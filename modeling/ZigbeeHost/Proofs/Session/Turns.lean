import ZigbeeHost.Proofs.Session.Histories
import ZigbeeHost.Proofs.Session.Registration
import ZigbeeHost.Proofs.Session.Scopes

/-!
# A session in single turns

The callers, the reader, the timers and the engine take turns in any order.  A
turn is what one of them does until it has to wait; a timer takes two, one in
which it takes its transaction out of the table and one in which it gives the
transaction up.  The engine serves until it leaves its loop, either because it
has been asked to stop or because no frame can arrive any more.  Then it cancels
the transactions that wait, and at last its ends of the queues are gone.  In
between, all the others go on: a timer may go off or give a transaction up, and a
call may still be queued.  What the activities of a session do is one way of
taking turns, in which neither the engine that stops nor a timer that goes off is
interrupted.
-/

namespace ZigbeeHost

/-- How far the engine has come. -/
inductive Phase where
  | serving
  /-- It has left its loop. -/
  | leaving
  /-- It has cancelled the transactions that wait. -/
  | cancelled
  /-- It has returned, and its ends of the queues are gone. -/
  | gone
deriving DecidableEq, Repr

/-- A session, and how far its engine has come. -/
structure Course where
  session : Session
  phase : Phase := .serving

/-- What one of those who share a session does next. -/
inductive Turn where
  | call (request : Request)
  | submit (number : Nat)
  | collect (number : Nat)
  | abandon (number : Nat)
  | read
  /-- The radio writes or hangs up, or the application takes events. -/
  | outside (pipe : Pipe) (dispatcher : Dispatcher)
  /-- A timer that is due goes off, and its transaction is overdue. -/
  | expiry (timer : Nat)
  /-- A timer gives an overdue transaction up. -/
  | giveUp (transaction : Nat)
  | wait (milliseconds : Nat)
  | requestStop
  | receive
  | dequeue
  | finishWrite
  | leave
  | cancel
  | drop
  /-- The reader is not needed any more. -/
  | dismiss

namespace Course

/-- The session changes if it can. -/
def attempt (course : Course) (next : Option Session) : Course :=
  { course with session := next.getD course.session }

/-- The engine does something in its loop. -/
def serve (course : Course) (next : Option Session) : Course :=
  if course.phase = .serving then course.attempt next else course

/-- The course after a turn; a turn that is not possible changes nothing. -/
def step (course : Course) : Turn → Course
  | .call request => { course with session := course.session.call request }
  | .submit number => course.attempt (course.session.submit? number)
  | .collect number => course.attempt (course.session.collect? number)
  | .abandon number => { course with session := course.session.abandon number }
  | .read => course.attempt course.session.read?
  | .outside pipe dispatcher => { course with session := { course.session with pipe, dispatcher } }
  | .expiry timer => { course with session := course.session.goOff timer }
  | .giveUp transaction => { course with session := course.session.giveUp transaction }
  | .wait milliseconds =>
      { course with session := course.session.apply (.advance milliseconds) }
  | .requestStop => { course with session := { course.session with stopRequested := true } }
  | .receive => course.serve course.session.receive?
  | .dequeue => course.serve course.session.dequeue?
  | .finishWrite => course.serve course.session.finishWrite?
  | .leave =>
      if course.phase = .serving ∧ course.session.halt?.isSome then
        { course with phase := .leaving }
      else course
  | .cancel =>
      if course.phase = .leaving then
        { session := { course.session with ledger := course.session.ledger.cancelAll.2 }
          phase := .cancelled }
      else course
  | .drop =>
      if course.phase = .cancelled then
        { session := { course.session with engine := .stopped, inbound := [] }.dropOutbound
          phase := .gone }
      else course
  | .dismiss =>
      if course.phase = .gone then { course with session := { course.session with reader := .stopped } }
      else course

/-- The course after some turns. -/
def run (course : Course) (turns : List Turn) : Course :=
  turns.foldl step course

theorem run_append (course : Course) (earlier later : List Turn) :
    course.run (earlier ++ later) = (course.run earlier).run later :=
  List.foldl_append

theorem run_cut (course : Course) (earlier : List Turn) (turn : Turn) (later : List Turn) :
    course.run (earlier ++ turn :: later) = ((course.run earlier).step turn).run later := by
  rw [run_append]
  rfl

theorem run_concat (course : Course) (turns : List Turn) (turn : Turn) :
    course.run (turns ++ [turn]) = (course.run turns).step turn :=
  course.run_cut turns turn []

/-- What the turns yield, one after the other. -/
def along {α : Type} (yields : Course → Turn → List α) (course : Course) : List Turn → List α
  | [] => []
  | turn :: turns => yields course turn ++ (course.step turn).along yields turns

section Yields

variable {α : Type} (yields : Course → Turn → List α)

theorem along_append (course : Course) (earlier later : List Turn) :
    course.along yields (earlier ++ later) =
      course.along yields earlier ++ (course.run earlier).along yields later := by
  induction earlier generalizing course with
  | nil => rfl
  | cons turn earlier ih =>
      rw [List.cons_append, along, along, ih, List.append_assoc]
      rfl

theorem along_concat (course : Course) (turns : List Turn) (turn : Turn) :
    course.along yields (turns ++ [turn]) =
      course.along yields turns ++ yields (course.run turns) turn := by
  rw [along_append, along, along, List.append_nil]

theorem along_map {β : Type} (view : α → β) (course : Course) (turns : List Turn) :
    course.along (fun course turn => (yields course turn).map view) turns =
      (course.along yields turns).map view := by
  induction turns generalizing course with
  | nil => rfl
  | cons turn turns ih => rw [along, along, ih, List.map_append]

theorem exists_of_mem_along {course : Course} {turns : List Turn} {yielded : α}
    (inside : yielded ∈ course.along yields turns) :
    ∃ earlier turn later, turns = earlier ++ turn :: later ∧
      yielded ∈ yields (course.run earlier) turn := by
  induction turns generalizing course with
  | nil => cases inside
  | cons turn turns ih =>
      rcases List.mem_append.1 inside with now | later
      · exact ⟨[], turn, turns, rfl, now⟩
      · obtain ⟨earlier, found, rest, rfl, yields⟩ := ih later
        exact ⟨turn :: earlier, found, rest, rfl, yields⟩

end Yields

/-- The course of a session that has just been started. -/
def start (config : SessionConfig) (prototypes : PrototypeTable) : Course :=
  { session := .start config prototypes }

/-- An engine that may stop can do so in three turns. -/
theorem run_leave_cancel_drop {course : Course} (serving : course.phase = .serving)
    (mayHalt : course.session.MayHalt) :
    course.run [.leave, .cancel, .drop] = { session := course.session.stop, phase := .gone } := by
  have halts : course.session.halt?.isSome := by
    rw [Session.halt?_eq_some_iff.2 ⟨mayHalt, rfl⟩]
    rfl
  simp only [run, List.foldl_cons, List.foldl_nil, step, serving, halts, and_self, if_true]
  rfl

section Cases

variable {course : Course} {next : Option Session}

/-- What holds before an attempt and whenever it succeeds holds after it. -/
theorem attempt_induction {motive : Course → Prop} (before : motive course)
    (after : ∀ session, next = some session → motive { course with session }) :
    motive (course.attempt next) := by
  cases next with
  | none => exact before
  | some session => exact after session rfl

theorem serve_induction {motive : Course → Prop} (before : motive course)
    (after : ∀ session, course.phase = .serving → next = some session →
      motive { course with session }) : motive (course.serve next) := by
  simp only [serve]
  split
  · rename_i serving
    exact attempt_induction before fun session => after session serving
  · exact before

theorem session_attempt {session : Session} (stepped : next = some session) :
    (course.attempt next).session = session := by
  rw [attempt, stepped, Option.getD_some]

theorem session_serve {session : Session} (serving : course.phase = .serving)
    (stepped : next = some session) : (course.serve next).session = session := by
  rw [serve, if_pos serving, session_attempt stepped]

theorem phase_serve (course : Course) (next : Option Session) :
    (course.serve next).phase = course.phase :=
  serve_induction (motive := fun later => later.phase = course.phase) rfl fun _ _ _ => rfl

/-- The queues go with the engine that has been cancelled, and so does its loop. -/
theorem step_drop (cancelled : course.phase = .cancelled) :
    course.step .drop =
      { session := { course.session with
          engine := .stopped, inbound := [], outbound := []
          calls := course.session.outbound.foldl Session.droppedCalls course.session.calls }
        phase := .gone } := by
  simp only [step, if_pos cancelled]
  rw [Session.dropOutbound_scope]

end Cases

/-- As long as the engine serves, it has not stopped.  Once it has left its loop
it may stop, and nothing that the others do changes this.  When it is gone, its
queues are empty. -/
def Steady (course : Course) : Prop :=
  match course.phase with
  | .serving => course.session.engine ≠ .stopped
  | .leaving => course.session.MayHalt
  | .cancelled => course.session.MayHalt
  | .gone =>
      course.session.engine = .stopped ∧ course.session.inbound = [] ∧ course.session.outbound = []

/-- Others than the engine take a turn.  They do not start it again, and they
take neither the request to stop nor the end of the stream back. -/
structure Bystands (session next : Session) : Prop where
  engine : next.engine = session.engine
  requested : session.stopRequested = true → next.stopRequested = true
  ended : session.reader = .stopped → next.reader = .stopped ∧ next.inbound = session.inbound
  refused : session.engine = .stopped →
    next.inbound = session.inbound ∧ next.outbound = session.outbound

namespace Steady

variable {course : Course} {next : Session}

theorem of_bystands (steady : course.Steady) (bystands : Bystands course.session next) :
    Steady { course with session := next } := by
  have left (mayHalt : course.session.MayHalt) : next.MayHalt := by
    obtain ⟨idle, requested | ⟨stopped, empty⟩⟩ := mayHalt
    · exact ⟨bystands.engine.trans idle, .inl (bystands.requested requested)⟩
    · obtain ⟨stillStopped, same⟩ := bystands.ended stopped
      exact ⟨bystands.engine.trans idle, .inr ⟨stillStopped, same.trans empty⟩⟩
  obtain ⟨session, phase⟩ := course
  cases phase with
  | serving => exact fun stopped => steady (bystands.engine.symm.trans stopped)
  | leaving => exact left steady
  | cancelled => exact left steady
  | gone =>
      obtain ⟨stopped, inbound, outbound⟩ := steady
      obtain ⟨sameInbound, sameOutbound⟩ := bystands.refused stopped
      exact ⟨bystands.engine.trans stopped, sameInbound.trans inbound,
        sameOutbound.trans outbound⟩

theorem of_serving (serving : course.phase = .serving) (going : next.engine ≠ .stopped) :
    Steady { course with session := next } := by
  simp only [Steady, serving]
  exact going

end Steady

section Bystanders

variable {session next : Session}

theorem bystands_of_same (engine : next.engine = session.engine)
    (requested : next.stopRequested = session.stopRequested)
    (reader : next.reader = session.reader) (inbound : next.inbound = session.inbound)
    (outbound : next.outbound = session.outbound) : Bystands session next where
  engine := engine
  requested := requested.trans
  ended stopped := ⟨reader.trans stopped, inbound⟩
  refused _ := ⟨inbound, outbound⟩

theorem bystands_of_submit {number : Nat} (stepped : session.submit? number = some next) :
    Bystands session next := by
  obtain ⟨outgoing, -, ⟨-, rfl⟩ | ⟨running, -, rfl⟩⟩ := Session.submit?_cases stepped
  · exact bystands_of_same rfl rfl rfl rfl rfl
  · refine ⟨rfl, id, fun stopped => ⟨stopped, rfl⟩, fun stopped => ?_⟩
    simp [Session.isRunning, stopped] at running

theorem bystands_of_collect {number : Nat} (stepped : session.collect? number = some next) :
    Bystands session next := by
  obtain ⟨transaction, outcome, ledger, -, -, rfl⟩ := Session.collect?_cases stepped
  exact bystands_of_same rfl rfl rfl rfl rfl

theorem bystands_of_abandon (session : Session) (number : Nat) :
    Bystands session (session.abandon number) := by
  obtain ⟨ledger, calls, left⟩ := session.abandon_scope number
  rw [left]
  exact bystands_of_same rfl rfl rfl rfl rfl

theorem bystands_of_read (stepped : session.read? = some next) : Bystands session next := by
  rcases Session.read?_cases stepped with
    ⟨frame, holding, forwarded⟩ | ⟨reading, buffer, pipe, reader, dispatcher, rfl⟩
  · have going (stopped : session.reader = .stopped) : False := by
      rw [holding] at stopped
      cases stopped
    rcases Session.forward?_cases forwarded with ⟨-, rfl⟩ | ⟨running, -, rfl⟩
    · exact ⟨rfl, id, fun stopped => (going stopped).elim, fun _ => ⟨rfl, rfl⟩⟩
    · refine ⟨rfl, id, fun stopped => (going stopped).elim, fun stopped => ?_⟩
      simp [Session.isRunning, stopped] at running
  · refine ⟨rfl, id, fun stopped => ?_, fun _ => ⟨rfl, rfl⟩⟩
    rw [reading] at stopped
    cases stopped

end Bystanders

theorem Steady.step {course : Course} (steady : course.Steady) (turn : Turn) :
    (course.step turn).Steady := by
  cases turn with
  | call request => exact steady.of_bystands (bystands_of_same rfl rfl rfl rfl rfl)
  | submit number =>
      exact attempt_induction steady fun next stepped =>
        steady.of_bystands (bystands_of_submit stepped)
  | collect number =>
      exact attempt_induction steady fun next stepped =>
        steady.of_bystands (bystands_of_collect stepped)
  | abandon number => exact steady.of_bystands (bystands_of_abandon _ number)
  | read =>
      exact attempt_induction steady fun next stepped =>
        steady.of_bystands (bystands_of_read stepped)
  | outside pipe dispatcher => exact steady.of_bystands (bystands_of_same rfl rfl rfl rfl rfl)
  | expiry timer => exact steady.of_bystands (bystands_of_same rfl rfl rfl rfl rfl)
  | giveUp number => exact steady.of_bystands (bystands_of_same rfl rfl rfl rfl rfl)
  | wait milliseconds => exact steady.of_bystands (bystands_of_same rfl rfl rfl rfl rfl)
  | requestStop =>
      exact steady.of_bystands ⟨rfl, fun _ => rfl, fun stopped => ⟨stopped, rfl⟩,
        fun _ => ⟨rfl, rfl⟩⟩
  | receive =>
      refine serve_induction steady fun next serving stepped => ?_
      obtain ⟨idle, frame, rest, -, rfl⟩ := Session.receive?_cases stepped
      refine .of_serving serving ?_
      rw [Session.engine_route]
      simp [idle]
  | dequeue =>
      refine serve_induction steady fun next serving stepped => ?_
      obtain ⟨idle, ⟨frame, call, rest, -, rfl⟩ | ⟨frame, rest, -, rfl⟩⟩ :=
        Session.dequeue?_cases stepped
      · obtain ⟨ledger, engine, accepted, going⟩ :=
          Session.accept_scope { course.session with outbound := rest } frame call
        rw [accepted]
        exact .of_serving serving (going (by simp [idle]))
      · exact .of_serving serving nofun
  | finishWrite =>
      refine serve_induction steady fun next serving stepped => ?_
      obtain ⟨frame, transaction, -, ⟨pipe, -, rfl⟩ | ⟨cause, -, rfl⟩⟩ :=
        Session.finishWrite?_cases stepped
      · exact .of_serving serving nofun
      · refine .of_serving serving ?_
        rw [Session.engine_failWrite]
        nofun
  | leave =>
      simp only [Course.step]
      split
      · rename_i leaves
        obtain ⟨next, halted⟩ := Option.isSome_iff_exists.1 leaves.2
        exact (Session.halt?_eq_some_iff.1 halted).1
      · exact steady
  | cancel =>
      simp only [Course.step]
      split
      · rename_i leaving
        simp only [Steady, leaving] at steady
        exact ⟨steady.idle, steady.cause⟩
      · exact steady
  | drop =>
      simp only [Course.step]
      split
      · rw [Session.dropOutbound_scope]
        exact ⟨rfl, rfl, rfl⟩
      · exact steady
  | dismiss =>
      simp only [Course.step]
      split
      · exact steady.of_bystands ⟨rfl, id, fun _ => ⟨rfl, rfl⟩, fun _ => ⟨rfl, rfl⟩⟩
      · exact steady

theorem Steady.run {course : Course} (steady : course.Steady) (turns : List Turn) :
    (course.run turns).Steady := by
  induction turns generalizing course with
  | nil => exact steady
  | cons turn turns ih => exact ih (steady.step turn)

theorem steady_start (config : SessionConfig) (prototypes : PrototypeTable) :
    (start config prototypes).Steady :=
  nofun

end Course

namespace Session

/-- The race that the one session follows can go on so that the other session
follows it. -/
def Advances (session next : Session) : Prop :=
  ∀ moves, session.Follows (Race.run {} moves) →
    ∃ more, next.Follows (Race.run {} (moves ++ more))

namespace Advances

variable {session middle next : Session}

theorem refl (session : Session) : session.Advances session := by
  intro moves follows
  exact ⟨[], by rwa [List.append_nil]⟩

theorem trans (first : session.Advances middle) (second : middle.Advances next) :
    session.Advances next := by
  intro moves follows
  obtain ⟨more, follows⟩ := first moves follows
  obtain ⟨later, follows⟩ := second _ follows
  exact ⟨more ++ later, by rwa [← List.append_assoc]⟩

theorem of_reaches (overdue : next.overdue = session.overdue)
    (reaches : ∀ due race, session.Mirrors due race →
      race.Reaches next.ledger (next.begun ++ due)) : session.Advances next := by
  intro moves follows
  obtain ⟨more, later⟩ := follows.advance overdue fun due => reaches due _
  refine ⟨more, ?_⟩
  rwa [Race.run, List.foldl_append]

theorem of_history (reaches : session.Reaches next) : session.Advances next := by
  intro moves follows
  obtain ⟨history, rfl⟩ := reaches
  obtain ⟨more, later⟩ := follows.of_history (Race.watches_run moves) history
  refine ⟨more, ?_⟩
  rwa [Race.run, List.foldl_append]

end Advances

end Session

namespace Course

/-- The ledger of a course is the ledger of a race. -/
theorem advances_step (course : Course) (turn : Turn) :
    course.session.Advances (course.step turn).session := by
  have same {next : Session} (alike : course.session.Alike next) : course.session.Advances next :=
    .of_history (.of_alike alike)
  have tried {next : Option Session}
      (reaches : ∀ session, next = some session → course.session.Reaches session) :
      course.session.Advances (course.attempt next).session :=
    attempt_induction (motive := fun later => course.session.Advances later.session)
      (.refl course.session) fun session stepped => .of_history (reaches session stepped)
  have served {next : Option Session}
      (reaches : ∀ session, next = some session → course.session.Reaches session) :
      course.session.Advances (course.serve next).session :=
    serve_induction (motive := fun later => course.session.Advances later.session)
      (.refl course.session) fun session _ stepped => .of_history (reaches session stepped)
  cases turn with
  | call request => exact same ⟨rfl, rfl, rfl, rfl, rfl⟩
  | submit number => exact tried fun _ => .submit
  | collect number => exact tried fun _ => .collect
  | abandon number => exact .of_history (.abandon course.session number)
  | read => exact tried fun _ => .read
  | outside pipe dispatcher => exact same ⟨rfl, rfl, rfl, rfl, rfl⟩
  | expiry timer => exact .of_history (.happen course.session (.expiry timer))
  | giveUp number => exact .of_history (.happen course.session (.giveUp number))
  | wait milliseconds => exact .of_history (.apply course.session (.advance milliseconds))
  | requestStop => exact same ⟨rfl, rfl, rfl, rfl, rfl⟩
  | receive => exact served fun _ => .receive
  | dequeue => exact served fun _ => .dequeue
  | finishWrite => exact served fun _ => .finishWrite
  | leave =>
      simp only [step]
      split <;> exact .refl course.session
  | cancel =>
      -- No occurrence cancels without stopping, so this is a run of the race itself.
      simp only [step]
      split
      · refine .of_reaches rfl fun due race mirrors => ?_
        have cancelled := (Race.reaches_cancelAll race).perm mirrors.tasks
        rw [mirrors.ledger] at cancelled
        exact cancelled
      · exact .refl course.session
  | drop =>
      simp only [step]
      split
      · rw [Session.dropOutbound_scope]
        exact .of_reaches rfl fun due race mirrors => mirrors.reaches_due
      · exact .refl course.session
  | dismiss =>
      simp only [step]
      split
      · exact same ⟨rfl, rfl, rfl, rfl, rfl⟩
      · exact .refl course.session

theorem advances_run (course : Course) (turns : List Turn) :
    course.session.Advances (course.run turns).session := by
  induction turns generalizing course with
  | nil => exact .refl course.session
  | cons turn turns ih => exact (course.advances_step turn).trans (ih (course.step turn))

section Activities

variable {course : Course} {next : Session}

/-- The engine serves, or it has stopped: what the activities of a session see. -/
def Agrees (course : Course) : Prop :=
  course.phase = .serving ∨ course.session.engine = .stopped

/-- A timer that takes both steps takes two turns, or one if its transaction has
been removed already. -/
theorem exists_turns_of_fire (course : Course) (timers : List Nat) :
    ∃ turns, course.run turns =
      { course with session := timers.foldl Session.fire course.session } := by
  induction timers generalizing course with
  | nil => exact ⟨[], rfl⟩
  | cons timer timers ih =>
      obtain ⟨turns, fired⟩ : ∃ turns,
          course.run turns = { course with session := course.session.fire timer } := by
        simp only [Session.fire]
        split
        · exact ⟨[.expiry timer], rfl⟩
        · rename_i number woken
          exact ⟨[.expiry timer, .giveUp number], rfl⟩
      obtain ⟨more, others⟩ := ih { course with session := course.session.fire timer }
      exact ⟨turns ++ more, by rw [run_append, fired, others, List.foldl_cons]⟩

/-- One who is not the engine takes a turn. -/
theorem exists_turns_of_bystander (agrees : course.Agrees) {turn : Turn}
    (stepEq : course.step turn = course.attempt (some next))
    (bystands : Bystands course.session next) :
    ∃ turns, (course.run turns).session = next ∧ (course.run turns).Agrees := by
  refine ⟨[turn], ?_, ?_⟩
  · rw [run, List.foldl_cons, List.foldl_nil, stepEq]
    rfl
  · rw [run, List.foldl_cons, List.foldl_nil, stepEq]
    exact agrees.imp id bystands.engine.trans

/-- The engine takes a turn in its loop. -/
theorem exists_turns_of_serve (agrees : course.Agrees) {turn : Turn}
    (going : course.session.engine ≠ .stopped)
    (stepEq : course.step turn = course.serve (some next)) :
    ∃ turns, (course.run turns).session = next ∧ (course.run turns).Agrees := by
  have serving := agrees.resolve_right going
  rw [serve, if_pos serving] at stepEq
  refine ⟨[turn], ?_, .inl ?_⟩
  · rw [run, List.foldl_cons, List.foldl_nil, stepEq]
    rfl
  · rw [run, List.foldl_cons, List.foldl_nil, stepEq]
    exact serving

/-- What an activity of a session does in one step is done in turns. -/
theorem exists_turns_of_step {activity : Activity} (agrees : course.Agrees)
    (stepped : course.session.step? activity = some next) :
    ∃ turns, (course.run turns).session = next ∧ (course.run turns).Agrees := by
  cases activity with
  | timers =>
      simp only [Session.step?, Session.timerStep?] at stepped
      split at stepped
      · obtain rfl := Option.some.inj stepped
        obtain ⟨turns, fired⟩ :=
          exists_turns_of_fire course (List.range course.session.ledger.timers.length)
        refine ⟨turns, ?_, ?_⟩
        · rw [fired]
        · rw [fired, Session.foldl_fire_scope]
          exact agrees
      · cases stepped
  | callers =>
      simp only [Session.step?, Session.proceed?, List.findSome?_eq_some_iff] at stepped
      obtain ⟨-, number, -, -, found, -⟩ := stepped
      rcases Option.or_eq_some_iff.1 found with submitted | ⟨-, collected⟩
      · have stepEq : course.step (.submit number) = course.attempt (some next) := by
          simp only [step, submitted]
        exact exists_turns_of_bystander agrees stepEq (bystands_of_submit submitted)
      · have stepEq : course.step (.collect number) = course.attempt (some next) := by
          simp only [step, collected]
        exact exists_turns_of_bystander agrees stepEq (bystands_of_collect collected)
  | reader =>
      have stepEq : course.step .read = course.attempt (some next) := by
        rw [← stepped]
        rfl
      exact exists_turns_of_bystander agrees stepEq (bystands_of_read stepped)
  | engine =>
      simp only [Session.step?, Session.engineStep?, Option.or_eq_some_iff] at stepped
      rcases stepped with written | ⟨-, received | ⟨-, dequeued | ⟨-, halted⟩⟩⟩
      · obtain ⟨frame, transaction, writing, -⟩ := Session.finishWrite?_cases written
        have stepEq : course.step .finishWrite = course.serve (some next) := by
          simp only [step, written]
        exact exists_turns_of_serve agrees (by simp [writing]) stepEq
      · have idle := (Session.receive?_cases received).1
        have stepEq : course.step .receive = course.serve (some next) := by
          simp only [step, received]
        exact exists_turns_of_serve agrees (by simp [idle]) stepEq
      · have idle := (Session.dequeue?_cases dequeued).1
        have stepEq : course.step .dequeue = course.serve (some next) := by
          simp only [step, dequeued]
        exact exists_turns_of_serve agrees (by simp [idle]) stepEq
      · obtain ⟨mayHalt, rfl⟩ := Session.halt?_eq_some_iff.1 halted
        have serving := agrees.resolve_right (by simp [mayHalt.idle])
        refine ⟨[.leave, .cancel, .drop], ?_, .inr ?_⟩
        · rw [run_leave_cancel_drop serving mayHalt]
        · rw [run_leave_cancel_drop serving mayHalt]
          exact (Session.dropOutbound_same _).2

theorem exists_turns_of_takeTurns (agrees : course.Agrees) (steps waiting : Nat)
    (activity : Activity) :
    ∃ turns, (course.run turns).session =
        Session.takeTurns steps waiting activity course.session ∧ (course.run turns).Agrees := by
  induction steps generalizing course waiting activity with
  | zero => exact ⟨[], rfl, agrees⟩
  | succ steps ih =>
      simp only [Session.takeTurns]
      split
      · rename_i next stepped
        obtain ⟨earlier, rfl, agrees⟩ := exists_turns_of_step agrees stepped
        obtain ⟨later, same, agrees⟩ := ih agrees 0 activity
        exact ⟨earlier ++ later, by rwa [run_append], by rwa [run_append]⟩
      · split
        · exact ih agrees (waiting + 1) activity.next
        · exact ⟨[], rfl, agrees⟩

/-- Coming to rest is done in turns. -/
theorem exists_turns_of_settle (agrees : course.Agrees) :
    ∃ turns, (course.run turns).session = course.session.settle ∧ (course.run turns).Agrees :=
  exists_turns_of_takeTurns agrees _ _ _

end Activities

end Course

end ZigbeeHost
