import ZigbeeHost.Proofs.Session.Settlement

/-!
# How frames move towards the radio

A frame goes from its caller into the queue, from there to the writer, and from the
writer to the radio.  Few turns move a frame, each of them one frame by one place, and
`Course.Conveys` lists them: a caller hands a frame in, the engine takes the oldest one
out, refuses it or begins to write it, and the engine has written it.
-/

namespace ZigbeeHost

namespace Ledger

variable {ledger : Ledger} {key : CommandKey}

/-- A request is pending under the key: the table has an entry for it.  A request
that is overdue has left the table, and its key is free. -/
def IsPending (ledger : Ledger) (key : CommandKey) : Prop :=
  key ∈ ledger.waiting.map Prod.fst

instance decidableIsPending (ledger : Ledger) (key : CommandKey) :
    Decidable (ledger.IsPending key) :=
  inferInstanceAs (Decidable (key ∈ ledger.waiting.map Prod.fst))

theorem isPending_of_find? {number : Nat} (found : ledger.find? key = some number) :
    ledger.IsPending key :=
  List.mem_map_of_mem (mem_waiting_of_find? found)

end Ledger

namespace Outgoing

def frame : Outgoing → Frame
  | .answered frame _ => frame
  | .unanswered frame => frame

/-- The frame asks for a response while one is pending under the same key. -/
def IsRefused (outgoing : Outgoing) (ledger : Ledger) : Prop :=
  outgoing.caller.isSome ∧ ledger.IsPending outgoing.frame.key

instance decidableIsRefused (outgoing : Outgoing) (ledger : Ledger) :
    Decidable (outgoing.IsRefused ledger) :=
  inferInstanceAs (Decidable (_ ∧ _))

end Outgoing

namespace Session

variable {session next : Session}

/-- The frame that the engine has begun to write. -/
def inFlight (session : Session) : List Frame :=
  match session.engine with
  | .writing frame _ => [frame]
  | _ => []

/-- The sending side is as before. -/
structure SendsAlike (session next : Session) : Prop where
  outbound : next.outbound = session.outbound
  engine : next.engine = session.engine
  toRadio : next.pipe.toRadio = session.pipe.toRadio

theorem sendsAlike_of_read (stepped : session.read? = some next) : session.SendsAlike next := by
  simp only [read?] at stepped
  split at stepped
  · cases stepped
  · rcases forward?_cases stepped with ⟨-, rfl⟩ | ⟨-, -, rfl⟩ <;> exact ⟨rfl, rfl, rfl⟩
  · split at stepped
    · cases stepped
    · obtain rfl := Option.some.inj stepped
      simp only [take]
      split
      · exact ⟨rfl, rfl, rfl⟩
      · split <;> exact ⟨rfl, rfl, rfl⟩
      · exact ⟨rfl, rfl, rfl⟩

/-- The engine begins to write the oldest frame in the queue, unless it refuses it. -/
theorem exists_dequeue (idle : session.engine = .idle)
    {outgoing : Outgoing} {rest : List Outgoing} (oldest : session.outbound = outgoing :: rest) :
    ∃ next, session.dequeue? = some next ∧ next.outbound = rest ∧
      next.inFlight = (if outgoing.IsRefused session.ledger then [] else [outgoing.frame]) ∧
        next.pipe.toRadio = session.pipe.toRadio := by
  cases outgoing with
  | unanswered frame =>
      refine ⟨{ session with outbound := rest, engine := .writing frame none },
        by simp only [dequeue?, idle, oldest], rfl, ?_, rfl⟩
      rw [if_neg (by simp [Outgoing.IsRefused, Outgoing.caller])]
      rfl
  | answered frame call =>
      refine ⟨{ session with outbound := rest }.accept frame call,
        by simp only [dequeue?, idle, oldest], ?_⟩
      cases found : session.ledger.find? frame.key with
      | none =>
          obtain ⟨calls, accepted, -⟩ :=
            accept_of_free { session with outbound := rest } frame call found
          rw [accepted, if_neg fun refused => Ledger.key_notMem_of_find?_eq_none found refused.2]
          exact ⟨rfl, rfl, rfl⟩
      | some earlier =>
          obtain ⟨calls, declined, -⟩ :=
            accept_of_waiting { session with outbound := rest } frame call found
          rw [declined, if_pos ⟨rfl, Ledger.isPending_of_find? found⟩]
          refine ⟨rfl, ?_, rfl⟩
          simp only [inFlight, idle]

end Session

/-- What has been written is in the stream, framed. -/
theorem Pipe.toRadio_of_writeFrame {pipe written : Pipe} {frame : Frame}
    (stepped : pipe.writeFrame frame = .ok written) :
    written.toRadio = pipe.toRadio ++ frame.wireForm := by
  simp only [writeFrame, Frame.toWire] at stepped
  cases sized : frame.checkSize with
  | error cause => simp [sized, Except.map] at stepped
  | ok =>
      simp only [sized, Except.map, write] at stepped
      split at stepped
      · cases stepped
      · cases stepped
      · split at stepped
        · obtain rfl := Except.ok.inj stepped
          rfl
        · cases stepped

/-- The radio writes or hangs up, or takes what has been sent. -/
def Turn.IsOutside : Turn → Prop
  | .outside _ _ => True
  | _ => False

namespace Course

/-- The frame that a caller hands in: the engine has not stopped, and there is room in
its queue. -/
def handedIn (course : Course) : Turn → List Outgoing
  | .submit number =>
      match course.session.calls[number]? with
      | some (.submitting outgoing) =>
          if course.session.isRunning ∧
              course.session.outbound.length < course.session.queueLimit then [outgoing]
          else []
      | _ => []
  | _ => []

/-- The oldest frame in the queue, which the engine takes out, and the ledger at that
time. -/
def takenOut (course : Course) : Turn → List (Outgoing × Ledger)
  | .dequeue =>
      if course.phase = .serving ∧ course.session.engine = .idle then
        (course.session.outbound.take 1).map fun outgoing => (outgoing, course.session.ledger)
      else []
  | _ => []

/-- The frame that is passed to the writer: the engine begins to write it. -/
def passed (course : Course) (turn : Turn) : List Frame :=
  match course.session.engine with
  | .idle => (course.step turn).session.inFlight
  | _ => []

/-- The frame that the engine has written, and whether the stream has taken it. -/
def written (course : Course) : Turn → List (Frame × Except TransportError Pipe)
  | .finishWrite =>
      if course.phase = .serving then
        course.session.inFlight.map fun frame => (frame, course.session.pipe.writeFrame frame)
      else []
  | _ => []

/-- What reaches the radio of a frame that has been written. -/
def sentBytes (write : Frame × Except TransportError Pipe) : Bytes :=
  if write.2.isOk then write.1.wireForm else []

/-- The bytes that a turn sends to the radio.  What the radio itself does with its end
of the stream does not count. -/
def transmitted (course : Course) : Turn → Bytes
  | .outside _ _ => []
  | turn => (course.step turn).session.pipe.toRadio.drop course.session.pipe.toRadio.length

/-- What a turn does to the frames on their way to the radio. -/
inductive Conveys (course : Course) (turn : Turn) : Prop
  | rests (nobody : course.handedIn turn = []) (none : course.takenOut turn = [])
      (nothing : course.written turn = [])
      (outbound : (course.step turn).session.outbound = course.session.outbound)
      (engine : (course.step turn).session.engine = course.session.engine)
      (toRadio : ¬ turn.IsOutside →
        (course.step turn).session.pipe.toRadio = course.session.pipe.toRadio)
  | queues (number : Nat) (outgoing : Outgoing) (same : turn = .submit number)
      (known : course.session.calls[number]? = some (.submitting outgoing))
      (handed : course.handedIn turn = [outgoing])
      (outbound : (course.step turn).session.outbound = course.session.outbound ++ [outgoing])
      (engine : (course.step turn).session.engine = course.session.engine)
      (toRadio : (course.step turn).session.pipe.toRadio = course.session.pipe.toRadio)
  | takes (outgoing : Outgoing) (same : turn = .dequeue) (serving : course.phase = .serving)
      (idle : course.session.engine = .idle)
      (taken : course.takenOut turn = [(outgoing, course.session.ledger)])
      (outbound : course.session.outbound = outgoing :: (course.step turn).session.outbound)
      (begins : (course.step turn).session.inFlight =
        if outgoing.IsRefused course.session.ledger then [] else [outgoing.frame])
      (toRadio : (course.step turn).session.pipe.toRadio = course.session.pipe.toRadio)
  | writes (frame : Frame) (same : turn = .finishWrite)
      (writing : course.session.inFlight = [frame])
      (ended : course.written turn = [(frame, course.session.pipe.writeFrame frame)])
      (outbound : (course.step turn).session.outbound = course.session.outbound)
      (idle : (course.step turn).session.engine = .idle)
      (toRadio : (course.step turn).session.pipe.toRadio = course.session.pipe.toRadio ++
        sentBytes (frame, course.session.pipe.writeFrame frame))
  | drops (same : turn = .drop) (gone : (course.step turn).phase = .gone)
      (idle : course.session.engine = .idle)
      (stopped : (course.step turn).session.engine = .stopped)
      (toRadio : (course.step turn).session.pipe.toRadio = course.session.pipe.toRadio)

section Conveying

variable {course : Course}

theorem Conveys.of_alike {turn : Turn} (nobody : course.handedIn turn = [])
    (none : course.takenOut turn = []) (nothing : course.written turn = [])
    (alike : course.session.SendsAlike (course.step turn).session) : course.Conveys turn :=
  .rests nobody none nothing alike.outbound alike.engine fun _ => alike.toRadio

theorem conveys_submit (course : Course) (number : Nat) : course.Conveys (.submit number) := by
  cases attempted : course.session.submit? number with
  | none =>
      have same : (course.step (.submit number)).session = course.session := by
        simp only [step, attempt, attempted, Option.getD_none]
      refine .of_alike ?_ rfl rfl ?_
      · simp only [handedIn]
        split
        · rename_i outgoing submitting
          simp only [Session.submit?, submitting] at attempted
          split at attempted
          · cases attempted
          · rename_i running
            split at attempted
            · cases attempted
            · rename_i full
              simp [full]
        · rfl
      · rw [same]
        exact ⟨rfl, rfl, rfl⟩
  | some next =>
      have stepEq : (course.step (.submit number)).session = next := session_attempt attempted
      obtain ⟨outgoing, submitting, ⟨stopped, rfl⟩ | ⟨running, room, rfl⟩⟩ :=
        Session.submit?_cases attempted
      · refine .of_alike ?_ rfl rfl ?_
        · simp [handedIn, submitting, stopped]
        · rw [stepEq]
          exact ⟨rfl, rfl, rfl⟩
      · refine .queues number outgoing rfl submitting ?_ ?_ ?_ ?_
        · simp [handedIn, submitting, running, room]
        · rw [stepEq]
        · rw [stepEq]
        · rw [stepEq]

theorem conveys_dequeue (course : Course) : course.Conveys .dequeue := by
  by_cases ready : course.phase = .serving ∧ course.session.engine = .idle
  · obtain ⟨serving, idle⟩ := ready
    cases waiting : course.session.outbound with
    | nil =>
        refine .of_alike rfl (by simp [takenOut, waiting]) rfl ?_
        refine serve_induction (motive := fun later => course.session.SendsAlike later.session)
          ⟨rfl, rfl, rfl⟩ fun next _ stepped => ?_
        simp [Session.dequeue?, idle, waiting] at stepped
    | cons outgoing rest =>
        obtain ⟨next, stepped, outbound, begins, toRadio⟩ := Session.exists_dequeue idle waiting
        have stepEq : (course.step .dequeue).session = next := session_serve serving stepped
        refine .takes outgoing rfl serving idle ?_ ?_ ?_ ?_
        · simp [takenOut, serving, idle, waiting]
        · rw [stepEq, outbound, waiting]
        · rw [stepEq, begins]
        · rw [stepEq, toRadio]
  · refine .of_alike rfl (by simp only [takenOut, if_neg ready]) rfl ?_
    refine serve_induction (motive := fun later => course.session.SendsAlike later.session)
      ⟨rfl, rfl, rfl⟩ fun next serving stepped => ?_
    exact absurd ⟨serving, (Session.dequeue?_cases stepped).1⟩ ready

theorem conveys_finishWrite (course : Course) : course.Conveys .finishWrite := by
  by_cases serving : course.phase = .serving
  · cases stepped : course.session.finishWrite? with
    | none =>
        have idle : course.session.inFlight = [] := by
          cases engine : course.session.engine with
          | idle | stopped => simp only [Session.inFlight, engine]
          | writing frame transaction =>
              simp only [Session.finishWrite?, engine] at stepped
              split at stepped <;> cases stepped
        refine .of_alike rfl rfl ?_ ?_
        · simp [written, idle]
        · simp only [step, serve, serving, if_true, attempt, stepped, Option.getD_none]
          exact ⟨rfl, rfl, rfl⟩
    | some next =>
        have stepEq : (course.step .finishWrite).session = next := session_serve serving stepped
        obtain ⟨frame, transaction, writing, outcome⟩ := Session.finishWrite?_cases stepped
        have inFlight : course.session.inFlight = [frame] := by
          simp only [Session.inFlight, writing]
        have ended : course.written .finishWrite =
            [(frame, course.session.pipe.writeFrame frame)] := by
          simp only [written, serving, if_true, inFlight, List.map_singleton]
        rcases outcome with ⟨pipe, sent, rfl⟩ | ⟨cause, failed, rfl⟩
        · refine .writes frame rfl inFlight ended ?_ ?_ ?_
          · rw [stepEq]
          · rw [stepEq]
          · rw [stepEq, sentBytes, sent]
            exact Pipe.toRadio_of_writeFrame sent
        · obtain ⟨ledger, dispatcher, scope⟩ :=
            Session.failWrite_scope { course.session with engine := .idle } transaction cause
          rw [scope] at stepEq
          refine .writes frame rfl inFlight ended ?_ ?_ ?_
          · rw [stepEq]
          · rw [stepEq]
          · rw [stepEq, sentBytes, failed]
            exact (List.append_nil _).symm
  · refine .of_alike rfl rfl ?_ ?_
    · simp only [written, if_neg serving]
    · simp only [step, serve, if_neg serving]
      exact ⟨rfl, rfl, rfl⟩

theorem conveys (steady : course.Steady) (turn : Turn) : course.Conveys turn := by
  have tried {next : Option Session}
      (alike : ∀ session, next = some session → course.session.SendsAlike session) :
      course.session.SendsAlike (course.attempt next).session :=
    attempt_induction (motive := fun later => course.session.SendsAlike later.session)
      ⟨rfl, rfl, rfl⟩ alike
  cases turn with
  | submit number => exact course.conveys_submit number
  | dequeue => exact course.conveys_dequeue
  | finishWrite => exact course.conveys_finishWrite
  | outside pipe dispatcher => exact .rests rfl rfl rfl rfl rfl fun inside => absurd trivial inside
  | collect number =>
      refine .of_alike rfl rfl rfl (tried fun next stepped => ?_)
      obtain ⟨transaction, outcome, ledger, -, -, rfl⟩ := Session.collect?_cases stepped
      exact ⟨rfl, rfl, rfl⟩
  | abandon number =>
      refine .of_alike rfl rfl rfl ?_
      obtain ⟨ledger, calls, left⟩ := course.session.abandon_scope number
      simp only [step, left]
      exact ⟨rfl, rfl, rfl⟩
  | read => exact .of_alike rfl rfl rfl (tried fun _ => Session.sendsAlike_of_read)
  | receive =>
      refine .of_alike rfl rfl rfl ?_
      refine serve_induction (motive := fun later => course.session.SendsAlike later.session)
        ⟨rfl, rfl, rfl⟩ fun next _ stepped => ?_
      obtain ⟨-, frame, rest, -, rfl⟩ := Session.receive?_cases stepped
      obtain ⟨ledger, dispatcher, scope⟩ :=
        Session.route_scope { course.session with inbound := rest } frame
      rw [scope]
      exact ⟨rfl, rfl, rfl⟩
  | call | expiry | giveUp | wait | requestStop => exact .of_alike rfl rfl rfl ⟨rfl, rfl, rfl⟩
  | leave | cancel | dismiss =>
      refine .of_alike rfl rfl rfl ?_
      simp only [step]
      split <;> exact ⟨rfl, rfl, rfl⟩
  | drop =>
      by_cases cancelled : course.phase = .cancelled
      · have idle : course.session.engine = .idle := by
          simp only [Steady, cancelled] at steady
          exact steady.idle
        have stepEq := step_drop cancelled
        exact .drops rfl (by rw [stepEq]) idle (by rw [stepEq]) (by rw [stepEq])
      · refine .of_alike rfl rfl rfl ?_
        simp only [step, if_neg cancelled]
        exact ⟨rfl, rfl, rfl⟩

end Conveying

namespace Conveys

variable {course : Course} {turn : Turn}

theorem passed_of_engine (same : (course.step turn).session.engine = course.session.engine) :
    course.passed turn = [] := by
  simp only [passed]
  split
  · rename_i idle
    simp only [Session.inFlight, same, idle]
  · rfl

/-- What is taken out of the queue is passed to the writer, unless it is refused. -/
theorem passed_eq (conveys : course.Conveys turn) :
    course.passed turn =
      ((course.takenOut turn).filter fun taken => ¬ taken.1.IsRefused taken.2).map
        fun taken => taken.1.frame := by
  cases conveys with
  | rests nobody none nothing outbound engine =>
      rw [passed_of_engine engine, none]
      rfl
  | queues number outgoing same known handed outbound engine =>
      rw [passed_of_engine engine, same]
      rfl
  | takes outgoing same serving idle taken outbound begins =>
      rw [taken]
      simp only [passed, idle, begins, List.filter_singleton, decide_not]
      by_cases refused : outgoing.IsRefused course.session.ledger <;> simp [refused]
  | writes frame same writing =>
      subst same
      simp only [Session.inFlight] at writing
      simp only [passed]
      split
      · rename_i idle
        simp [idle] at writing
      · rfl
  | drops same gone idle stopped =>
      subst same
      simp only [passed, idle, Session.inFlight, stopped]
      rfl

/-- What has been passed to the writer is being written until it has been written. -/
theorem inFlight_eq (conveys : course.Conveys turn) :
    course.session.inFlight ++ course.passed turn =
      (course.written turn).map Prod.fst ++ (course.step turn).session.inFlight := by
  cases conveys with
  | rests nobody none nothing outbound engine =>
      rw [passed_of_engine engine, nothing]
      simp only [Session.inFlight, engine, List.append_nil, List.map_nil, List.nil_append]
  | queues number outgoing same known handed outbound engine =>
      rw [passed_of_engine engine, same]
      simp only [Session.inFlight, ← same, engine, written, List.append_nil, List.map_nil,
        List.nil_append]
  | takes outgoing same serving idle =>
      subst same
      simp only [passed, idle, written, List.map_nil]
      simp only [Session.inFlight, idle]
  | writes frame same writing ended outbound idle =>
      have quiet : (course.step turn).session.inFlight = [] := by
        simp only [Session.inFlight, idle]
      have nothing : course.passed turn = [] := by
        simp only [passed, quiet]
        split <;> rfl
      rw [writing, ended, quiet, nothing]
      rfl
  | drops same gone idle stopped =>
      subst same
      simp only [passed, idle, Session.inFlight, stopped]
      rfl

/-- What has been handed in waits in the queue until it is taken out. -/
theorem outbound_eq (conveys : course.Conveys turn) (there : (course.step turn).phase ≠ .gone) :
    course.session.outbound ++ course.handedIn turn =
      (course.takenOut turn).map Prod.fst ++ (course.step turn).session.outbound := by
  cases conveys with
  | rests nobody none nothing outbound =>
      rw [nobody, none, outbound, List.append_nil]
      rfl
  | queues number outgoing same known handed outbound =>
      rw [handed, outbound, same]
      rfl
  | takes outgoing same serving idle taken outbound =>
      rw [taken, outbound, same]
      exact List.append_nil _
  | writes frame same writing ended outbound =>
      rw [outbound, same]
      exact List.append_nil _
  | drops same gone => exact absurd gone there

/-- The engine that goes takes nothing out. -/
theorem takenOut_of_gone (conveys : course.Conveys turn) (gone : (course.step turn).phase = .gone) :
    course.takenOut turn = [] := by
  cases conveys with
  | rests nobody none => exact none
  | takes outgoing same serving =>
      rw [same] at gone
      have still : (course.step .dequeue).phase = course.phase := course.phase_serve _
      rw [still, serving] at gone
      cases gone
  | queues number outgoing same => rw [same]; rfl
  | writes frame same => rw [same]; rfl
  | drops same => rw [same]; rfl

/-- What is written reaches the radio, and nothing else does. -/
theorem toRadio_eq (conveys : course.Conveys turn) (inside : ¬ turn.IsOutside) :
    (course.step turn).session.pipe.toRadio =
      course.session.pipe.toRadio ++ (course.written turn).flatMap sentBytes := by
  cases conveys with
  | rests nobody none nothing outbound engine toRadio =>
      rw [nothing, toRadio inside]
      exact (List.append_nil _).symm
  | queues number outgoing same known handed outbound engine toRadio =>
      rw [toRadio, same]
      exact (List.append_nil _).symm
  | takes outgoing same serving idle taken outbound begins toRadio =>
      rw [toRadio, same]
      exact (List.append_nil _).symm
  | writes frame same writing ended outbound idle toRadio =>
      rw [toRadio, ended, List.flatMap_singleton]
  | drops same gone idle stopped toRadio =>
      rw [toRadio, same]
      exact (List.append_nil _).symm

theorem transmitted_eq (conveys : course.Conveys turn) :
    course.transmitted turn = (course.written turn).flatMap sentBytes := by
  have left (inside : ¬ turn.IsOutside) :
      (course.step turn).session.pipe.toRadio.drop course.session.pipe.toRadio.length =
        (course.written turn).flatMap sentBytes := by
    rw [conveys.toRadio_eq inside, List.drop_left]
  cases turn with
  | outside pipe dispatcher => rfl
  | _ => exact left id

end Conveys

end Course

end ZigbeeHost
