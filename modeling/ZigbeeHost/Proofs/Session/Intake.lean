import ZigbeeHost.Proofs.Session.Forwarding
import ZigbeeHost.Proofs.Session.Progress

/-!
# How frames move towards the engine

The reader finds a frame in the stream, forwards it to the engine, and the engine
handles it.  In between, the frame waits in a queue.  Few turns move a frame, each of
them one frame by one place, and `Course.Brings` lists them.  The reader stops in one
turn: it meets an error that ends the stream.
-/

namespace ZigbeeHost

namespace Session

variable {session next : Session}

/-- The receiving side is as before. -/
structure ReceivesAlike (session next : Session) : Prop where
  inbound : next.inbound = session.inbound
  reader : next.reader = session.reader
  requested : next.stopRequested = session.stopRequested

/-- The reader stops because of an error that ends the stream, or because it has nobody
to forward a frame to. -/
theorem handing_of_stops (stepped : session.read? = some next) (stops : next.reader = .stopped)
    (running : session.isRunning = true) :
    ∃ cause, session.handing = [.error cause] ∧ cause.isFatal = true := by
  cases reader : session.reader with
  | stopped => simp [read?, reader] at stepped
  | holding frame =>
      obtain ⟨-, rfl⟩ := forward_of_holding reader running stepped
      cases stops
  | reading =>
      simp only [read?, reader] at stepped
      simp only [handing, reader]
      generalize readFrame session.buffer session.pipe.toHost = result at stepped ⊢
      obtain ⟨outcome, rest, left⟩ := result
      split at stepped
      · cases stepped
      · obtain rfl := Option.some.inj stepped
        cases outcome with
        | frame frame => cases stops
        | pending => simp [take] at stops
        | error cause =>
            simp only [take] at stops
            split at stops
            · rename_i fatal
              exact ⟨cause, rfl, fatal⟩
            · simp [report] at stops

end Session

namespace Course

/-- The frame that the reader forwards: the engine has not stopped, and there is room in
its queue. -/
def forwarded (course : Course) : Turn → List Frame
  | .read =>
      match course.session.reader with
      | .holding frame =>
          if course.session.isRunning ∧ course.session.inbound.length < course.session.queueLimit
          then [frame] else []
      | _ => []
  | _ => []

/-- The oldest frame in the queue, which the engine handles. -/
def handled (course : Course) : Turn → List Frame
  | .receive =>
      if course.phase = .serving ∧ course.session.engine = .idle then
        course.session.inbound.take 1
      else []
  | _ => []

/-- What a turn does to the frames on their way to the engine. -/
inductive Brings (course : Course) (turn : Turn) : Prop
  | rests (nobody : course.forwarded turn = []) (nothing : course.handled turn = [])
      (inbound : (course.step turn).session.inbound = course.session.inbound)
      (reader : (course.step turn).session.reader = course.session.reader)
      (requested : turn = .requestStop ∨
        (course.step turn).session.stopRequested = course.session.stopRequested)
  /-- The reader looks for a frame. -/
  | looks (same : turn = .read) (going : course.session.reader ≠ .stopped)
      (nobody : course.forwarded turn = [])
      (inbound : (course.step turn).session.inbound = course.session.inbound)
      (cause : (course.step turn).session.reader = .stopped → course.session.isRunning = true →
        ∃ cause, course.session.handing = [.error cause] ∧ cause.isFatal = true)
      (requested : (course.step turn).session.stopRequested = course.session.stopRequested)
  | forwards (frame : Frame) (same : turn = .read) (going : course.session.reader ≠ .stopped)
      (passed : course.forwarded turn = [frame])
      (inbound : (course.step turn).session.inbound = course.session.inbound ++ [frame])
      (reader : (course.step turn).session.reader = .reading)
      (requested : (course.step turn).session.stopRequested = course.session.stopRequested)
  | handles (frame : Frame) (rest : List Frame) (same : turn = .receive)
      (serving : course.phase = .serving) (taken : course.handled turn = [frame])
      (oldest : course.session.inbound = frame :: rest)
      (routed : (course.step turn).session = { course.session with inbound := rest }.route frame)
      (inbound : (course.step turn).session.inbound = rest)
      (reader : (course.step turn).session.reader = course.session.reader)
      (requested : (course.step turn).session.stopRequested = course.session.stopRequested)
  | drops (same : turn = .drop) (gone : (course.step turn).phase = .gone)
      (reader : (course.step turn).session.reader = course.session.reader)
      (requested : (course.step turn).session.stopRequested = course.session.stopRequested)
  | dismisses (same : turn = .dismiss) (gone : course.phase = .gone)
      (inbound : (course.step turn).session.inbound = course.session.inbound)
      (reader : (course.step turn).session.reader = .stopped)
      (requested : (course.step turn).session.stopRequested = course.session.stopRequested)

section Bringing

variable {course : Course} {turn : Turn}

theorem Brings.of_alike (nobody : course.forwarded turn = []) (nothing : course.handled turn = [])
    (alike : course.session.ReceivesAlike (course.step turn).session) : course.Brings turn :=
  .rests nobody nothing alike.inbound alike.reader (.inr alike.requested)

theorem brings_read (course : Course) : course.Brings .read := by
  cases attempted : course.session.read? with
  | none =>
      have same : (course.step .read).session = course.session := by
        simp only [step, attempt, attempted, Option.getD_none]
      refine .of_alike ?_ rfl ?_
      · simp only [forwarded]
        split
        · rename_i frame holding
          simp only [Session.read?, holding, Session.forward?] at attempted
          split at attempted
          · cases attempted
          · split at attempted
            · cases attempted
            · rename_i full
              simp [full]
        · rfl
      · rw [same]
        exact ⟨rfl, rfl, rfl⟩
  | some next =>
      have stepEq : (course.step .read).session = next := session_attempt attempted
      have going : course.session.reader ≠ .stopped := by
        intro stopped
        simp [Session.read?, stopped] at attempted
      have cause (stops : (course.step .read).session.reader = .stopped)
          (running : course.session.isRunning = true) :=
        Session.handing_of_stops attempted (stepEq ▸ stops) running
      rcases Session.read?_cases attempted with
        ⟨frame, holding, forwards⟩ | ⟨reading, buffer, pipe, reader, dispatcher, rfl⟩
      · rcases Session.forward?_cases forwards with ⟨stopped, rfl⟩ | ⟨running, room, rfl⟩
        · refine .looks rfl going ?_ (by rw [stepEq]) cause (by rw [stepEq])
          simp [forwarded, holding, stopped]
        · refine .forwards frame rfl going ?_ (by rw [stepEq]) (by rw [stepEq]) (by rw [stepEq])
          simp [forwarded, holding, running, room]
      · refine .looks rfl going ?_ (by rw [stepEq]) cause (by rw [stepEq])
        simp only [forwarded, reading]

theorem brings_receive (course : Course) : course.Brings .receive := by
  by_cases ready : course.phase = .serving ∧ course.session.engine = .idle
  · obtain ⟨serving, idle⟩ := ready
    cases waiting : course.session.inbound with
    | nil =>
        refine .of_alike rfl (by simp [handled, waiting]) ?_
        refine serve_induction (motive := fun later => course.session.ReceivesAlike later.session)
          ⟨rfl, rfl, rfl⟩ fun next _ stepped => ?_
        simp [Session.receive?, idle, waiting] at stepped
    | cons frame rest =>
        have stepped : course.session.receive? =
            some ({ course.session with inbound := rest }.route frame) := by
          simp only [Session.receive?, idle, waiting]
        have stepEq : (course.step .receive).session =
            { course.session with inbound := rest }.route frame := session_serve serving stepped
        obtain ⟨ledger, dispatcher, scope⟩ :=
          Session.route_scope { course.session with inbound := rest } frame
        refine .handles frame rest rfl serving ?_ waiting stepEq ?_ ?_ ?_
        · simp [handled, serving, idle, waiting]
        · rw [stepEq, scope]
        · rw [stepEq, scope]
        · rw [stepEq, scope]
  · refine .of_alike rfl (by simp only [handled, if_neg ready]) ?_
    refine serve_induction (motive := fun later => course.session.ReceivesAlike later.session)
      ⟨rfl, rfl, rfl⟩ fun next serving stepped => ?_
    exact absurd ⟨serving, (Session.receive?_cases stepped).1⟩ ready

theorem brings (course : Course) (turn : Turn) : course.Brings turn := by
  have tried {next : Option Session}
      (alike : ∀ session, next = some session → course.session.ReceivesAlike session) :
      course.session.ReceivesAlike (course.attempt next).session :=
    attempt_induction (motive := fun later => course.session.ReceivesAlike later.session)
      ⟨rfl, rfl, rfl⟩ alike
  have served {next : Option Session}
      (alike : ∀ session, next = some session → course.session.ReceivesAlike session) :
      course.session.ReceivesAlike (course.serve next).session :=
    serve_induction (motive := fun later => course.session.ReceivesAlike later.session)
      ⟨rfl, rfl, rfl⟩ fun session _ => alike session
  cases turn with
  | read => exact course.brings_read
  | receive => exact course.brings_receive
  | requestStop => exact .rests rfl rfl rfl rfl (.inl rfl)
  | submit number =>
      refine .of_alike rfl rfl (tried fun next stepped => ?_)
      obtain ⟨outgoing, -, ⟨-, rfl⟩ | ⟨-, -, rfl⟩⟩ := Session.submit?_cases stepped
      · exact ⟨rfl, rfl, rfl⟩
      · exact ⟨rfl, rfl, rfl⟩
  | collect number =>
      refine .of_alike rfl rfl (tried fun next stepped => ?_)
      obtain ⟨transaction, outcome, ledger, -, -, rfl⟩ := Session.collect?_cases stepped
      exact ⟨rfl, rfl, rfl⟩
  | abandon number =>
      refine .of_alike rfl rfl ?_
      obtain ⟨ledger, calls, left⟩ := course.session.abandon_scope number
      simp only [step, left]
      exact ⟨rfl, rfl, rfl⟩
  | dequeue =>
      refine .of_alike rfl rfl (served fun next stepped => ?_)
      obtain ⟨-, ⟨frame, call, rest, -, rfl⟩ | ⟨frame, rest, -, rfl⟩⟩ :=
        Session.dequeue?_cases stepped
      · obtain ⟨ledger, engine, scope, -⟩ :=
          Session.accept_scope { course.session with outbound := rest } frame call
        rw [scope]
        exact ⟨rfl, rfl, rfl⟩
      · exact ⟨rfl, rfl, rfl⟩
  | finishWrite =>
      refine .of_alike rfl rfl (served fun next stepped => ?_)
      obtain ⟨frame, transaction, -, ⟨pipe, -, rfl⟩ | ⟨cause, -, rfl⟩⟩ :=
        Session.finishWrite?_cases stepped
      · exact ⟨rfl, rfl, rfl⟩
      · obtain ⟨ledger, dispatcher, scope⟩ :=
          Session.failWrite_scope { course.session with engine := .idle } transaction cause
        rw [scope]
        exact ⟨rfl, rfl, rfl⟩
  | call | outside | expiry | giveUp | wait => exact .of_alike rfl rfl ⟨rfl, rfl, rfl⟩
  | leave | cancel =>
      refine .of_alike rfl rfl ?_
      simp only [step]
      split <;> exact ⟨rfl, rfl, rfl⟩
  | drop =>
      by_cases cancelled : course.phase = .cancelled
      · have stepEq := step_drop cancelled
        exact .drops rfl (by rw [stepEq]) (by rw [stepEq]) (by rw [stepEq])
      · refine .of_alike rfl rfl ?_
        simp only [step, if_neg cancelled]
        exact ⟨rfl, rfl, rfl⟩
  | dismiss =>
      by_cases gone : course.phase = .gone
      · have stepEq : (course.step .dismiss).session =
            { course.session with reader := .stopped } := by
          simp only [step, if_pos gone]
        exact .dismisses rfl gone (by rw [stepEq]) (by rw [stepEq]) (by rw [stepEq])
      · refine .of_alike rfl rfl ?_
        simp only [step, if_neg gone]
        exact ⟨rfl, rfl, rfl⟩

end Bringing

namespace Brings

variable {course : Course} {turn : Turn}

/-- What has been forwarded waits in the queue until it is handled. -/
theorem inbound_eq (brings : course.Brings turn) (there : (course.step turn).phase ≠ .gone) :
    course.session.inbound ++ course.forwarded turn =
      course.handled turn ++ (course.step turn).session.inbound := by
  cases brings with
  | rests nobody nothing inbound =>
      rw [nobody, nothing, inbound, List.append_nil]
      rfl
  | looks same going nobody inbound =>
      rw [nobody, inbound, same, List.append_nil]
      rfl
  | forwards frame same going passed inbound =>
      rw [passed, inbound, same]
      rfl
  | handles frame rest same serving taken oldest routed inbound =>
      rw [taken, inbound, oldest, same]
      exact List.append_nil _
  | drops same gone => exact absurd gone there
  | dismisses same gone inbound =>
      rw [inbound, same]
      exact List.append_nil _

/-- The engine that goes handles nothing. -/
theorem handled_of_gone (brings : course.Brings turn) (gone : (course.step turn).phase = .gone) :
    course.handled turn = [] := by
  cases brings with
  | rests nobody nothing => exact nothing
  | handles frame rest same serving =>
      rw [same] at gone
      have still : (course.step .receive).phase = course.phase := course.phase_serve _
      rw [still, serving] at gone
      cases gone
  | looks same => rw [same]; rfl
  | forwards frame same => rw [same]; rfl
  | drops same => rw [same]; rfl
  | dismisses same => rw [same]; rfl

/-- The reader that has stopped forwards nothing any more. -/
theorem of_stopped (brings : course.Brings turn) (stopped : course.session.reader = .stopped) :
    course.forwarded turn = [] ∧ (course.step turn).session.reader = .stopped := by
  cases brings with
  | rests nobody nothing inbound reader => exact ⟨nobody, reader.trans stopped⟩
  | looks same going | forwards frame same going => exact absurd stopped going
  | handles frame rest same serving taken oldest routed inbound reader =>
      subst same
      exact ⟨rfl, reader.trans stopped⟩
  | drops same gone reader =>
      subst same
      exact ⟨rfl, reader.trans stopped⟩
  | dismisses same gone inbound reader =>
      subst same
      exact ⟨rfl, reader⟩

theorem stopRequested_eq (brings : course.Brings turn) (other : turn ≠ .requestStop) :
    (course.step turn).session.stopRequested = course.session.stopRequested := by
  cases brings with
  | rests nobody nothing inbound reader requested => exact requested.resolve_left other
  | looks same going nobody inbound cause requested => exact requested
  | forwards frame same going passed inbound reader requested => exact requested
  | handles frame rest same serving taken oldest routed inbound reader requested =>
      exact requested
  | drops same gone reader requested => exact requested
  | dismisses same gone inbound reader requested => exact requested

end Brings

end Course

end ZigbeeHost
