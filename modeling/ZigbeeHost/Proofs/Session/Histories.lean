import ZigbeeHost.Proofs.Session.Occurrences
import ZigbeeHost.Session.Run
import Mathlib.Logic.Relation

/-!
# Sessions have histories

Each step of an activity, and each stimulus, is a history: what concerns the
engine and its transactions are occurrences, and the rest is a change of the
surroundings.  So what holds after every history holds in every session that
the activities and the stimuli can reach.
-/

namespace ZigbeeHost.Session

/-- One activity takes a step, or something happens from outside. -/
inductive Evolves : Session → Session → Prop
  | step {session next : Session} (activity : Activity)
      (stepped : session.step? activity = some next) : Evolves session next
  | apply (session : Session) (stimulus : Stimulus) : Evolves session (session.apply stimulus)

/-- Running the activities until none can proceed is a sequence of their steps. -/
theorem evolves_takeTurns (turns waiting : Nat) (activity : Activity) (session : Session) :
    Relation.ReflTransGen Evolves session (takeTurns turns waiting activity session) := by
  induction turns generalizing waiting activity session with
  | zero => exact .refl
  | succ turns ih =>
      simp only [takeTurns]
      split
      · rename_i next stepped
        exact .head (.step activity stepped) (ih 0 activity next)
      · split
        · exact ih _ _ session
        · exact .refl

theorem evolves_react (session : Session) (stimulus : Stimulus) :
    Relation.ReflTransGen Evolves session (session.react stimulus) :=
  .head (.apply session stimulus) (evolves_takeTurns _ _ _ _)

/-- Some history leads from one session to the other. -/
def Reaches (session next : Session) : Prop :=
  ∃ history, session.run history = next

/-- The engine, its transactions and what it has been configured with stay. -/
structure Alike (session next : Session) : Prop where
  config : next.config = session.config
  prototypes : next.prototypes = session.prototypes
  ledger : next.ledger = session.ledger
  overdue : next.overdue = session.overdue
  engine : next.engine = session.engine

namespace Reaches

variable {session middle next : Session}

theorem refl (session : Session) : session.Reaches session :=
  ⟨[], rfl⟩

theorem trans (first : session.Reaches middle) (second : middle.Reaches next) :
    session.Reaches next := by
  obtain ⟨earlier, rfl⟩ := first
  obtain ⟨later, rfl⟩ := second
  exact ⟨earlier ++ later, run_append session earlier later⟩

theorem happen (session : Session) (occurrence : Occurrence) :
    session.Reaches (session.happen occurrence) :=
  ⟨[occurrence], rfl⟩

theorem of_alike (alike : session.Alike next) : session.Reaches next := by
  refine ⟨[.surround next], ?_⟩
  change session.within next = next
  rw [within, ← alike.config, ← alike.prototypes, ← alike.ledger, ← alike.overdue,
    ← alike.engine]

theorem accept (session : Session) (idle : session.engine = .idle) (frame : Frame) (call : Nat) :
    session.Reaches (session.accept frame call) := by
  have taken := happen session (.request frame call)
  simp only [Session.happen, if_pos idle] at taken
  exact taken

theorem route (session : Session) (idle : session.engine = .idle) (frame : Frame) :
    session.Reaches (session.route frame) := by
  have arrived := happen session (.arrival frame)
  simp only [Session.happen, if_pos idle] at arrived
  exact arrived

theorem fire (session : Session) (timer : Nat) : session.Reaches (session.fire timer) := by
  simp only [Session.fire]
  split
  · exact happen session (.expiry timer)
  · rename_i number woken
    exact (happen session (.expiry timer)).trans (happen _ (.giveUp number))

theorem fireAll (session : Session) (timers : List Nat) :
    session.Reaches (timers.foldl Session.fire session) := by
  induction timers generalizing session with
  | nil => exact .refl session
  | cons timer timers ih => exact (fire session timer).trans (ih _)

theorem timerStep (stepped : session.timerStep? = some next) : session.Reaches next := by
  simp only [timerStep?] at stepped
  split at stepped
  · obtain rfl := Option.some.inj stepped
    exact fireAll session (List.range session.ledger.timers.length)
  · cases stepped

theorem submit {number : Nat} (stepped : session.submit? number = some next) :
    session.Reaches next := by
  simp only [submit?] at stepped
  split at stepped
  · split at stepped
    · obtain rfl := Option.some.inj stepped
      exact .of_alike ⟨rfl, rfl, rfl, rfl, rfl⟩
    · split at stepped
      · obtain rfl := Option.some.inj stepped
        exact .of_alike ⟨rfl, rfl, rfl, rfl, rfl⟩
      · cases stepped
  · cases stepped

theorem collect {number : Nat} (stepped : session.collect? number = some next) :
    session.Reaches next := by
  simp only [collect?] at stepped
  split at stepped
  · rename_i transaction awaiting
    split at stepped
    · rename_i outcome ledger taken
      obtain rfl := Option.some.inj stepped
      refine (happen session (.collect transaction)).trans (.of_alike ⟨rfl, rfl, ?_, rfl, rfl⟩)
      simp only [Session.happen, taken, setCall]
    · cases stepped
  · cases stepped

theorem proceed (stepped : session.proceed? = some next) : session.Reaches next := by
  obtain ⟨number, -, found⟩ := List.exists_of_findSome?_eq_some stepped
  rcases Option.or_eq_some_iff.1 found with submitted | ⟨-, collected⟩
  · exact submit submitted
  · exact collect collected

theorem forward {frame : Frame} (stepped : session.forward? frame = some next) :
    session.Reaches next := by
  simp only [forward?] at stepped
  split at stepped
  · obtain rfl := Option.some.inj stepped
    exact .of_alike ⟨rfl, rfl, rfl, rfl, rfl⟩
  · split at stepped
    · obtain rfl := Option.some.inj stepped
      exact .of_alike ⟨rfl, rfl, rfl, rfl, rfl⟩
    · cases stepped

theorem read (stepped : session.read? = some next) : session.Reaches next := by
  simp only [read?] at stepped
  split at stepped
  · cases stepped
  · exact forward stepped
  · split at stepped
    · cases stepped
    · obtain rfl := Option.some.inj stepped
      simp only [take]
      split
      · exact .of_alike ⟨rfl, rfl, rfl, rfl, rfl⟩
      · split <;> exact .of_alike ⟨rfl, rfl, rfl, rfl, rfl⟩
      · exact .of_alike ⟨rfl, rfl, rfl, rfl, rfl⟩

theorem receive (stepped : session.receive? = some next) : session.Reaches next := by
  simp only [receive?] at stepped
  split at stepped
  · rename_i frame rest idle inbound
    obtain rfl := Option.some.inj stepped
    have same : session.Reaches { session with inbound := rest } :=
      .of_alike ⟨rfl, rfl, rfl, rfl, rfl⟩
    exact same.trans (route { session with inbound := rest } idle frame)
  · cases stepped

theorem dequeue (stepped : session.dequeue? = some next) : session.Reaches next := by
  simp only [dequeue?] at stepped
  split at stepped
  · rename_i frame call rest idle outbound
    obtain rfl := Option.some.inj stepped
    have same : session.Reaches { session with outbound := rest } :=
      .of_alike ⟨rfl, rfl, rfl, rfl, rfl⟩
    exact same.trans (accept { session with outbound := rest } idle frame call)
  · rename_i frame rest idle outbound
    obtain rfl := Option.some.inj stepped
    have noticed := happen session (.notice frame)
    simp only [Session.happen, if_pos idle] at noticed
    exact noticed.trans (.of_alike ⟨rfl, rfl, rfl, rfl, rfl⟩)
  · cases stepped

theorem finishWrite (stepped : session.finishWrite? = some next) : session.Reaches next := by
  simp only [finishWrite?] at stepped
  split at stepped
  · rename_i frame transaction writing
    split at stepped
    · obtain rfl := Option.some.inj stepped
      have written := happen session .written
      simp only [Session.happen, writing] at written
      exact written.trans (.of_alike ⟨rfl, rfl, rfl, rfl, rfl⟩)
    · rename_i cause failed
      obtain rfl := Option.some.inj stepped
      have refused := happen session (.refused cause)
      simp only [Session.happen, writing] at refused
      exact refused
  · cases stepped

theorem halt (stepped : session.halt? = some next) : session.Reaches next := by
  simp only [halt?] at stepped
  split at stepped
  · split at stepped
    · obtain rfl := Option.some.inj stepped
      exact happen session .stop
    · cases stepped
  · split at stepped
    · obtain rfl := Option.some.inj stepped
      exact happen session .stop
    · cases stepped
  · cases stepped

theorem step (activity : Activity) (stepped : session.step? activity = some next) :
    session.Reaches next := by
  cases activity with
  | timers => exact timerStep stepped
  | callers => exact proceed stepped
  | reader => exact read stepped
  | engine =>
      rcases Option.or_eq_some_iff.1 stepped with written | ⟨-, later⟩
      · exact finishWrite written
      · rcases Option.or_eq_some_iff.1 later with received | ⟨-, later⟩
        · exact receive received
        · rcases Option.or_eq_some_iff.1 later with dequeued | ⟨-, halted⟩
          · exact dequeue dequeued
          · exact halt halted

theorem abandon (session : Session) (number : Nat) : session.Reaches (session.abandon number) := by
  simp only [Session.abandon]
  split
  · exact .of_alike ⟨rfl, rfl, rfl, rfl, rfl⟩
  · exact .of_alike ⟨rfl, rfl, rfl, rfl, rfl⟩
  · rename_i transaction awaiting
    exact (happen session (.leave transaction)).trans (.of_alike ⟨rfl, rfl, rfl, rfl, rfl⟩)
  · exact .refl session

theorem abandonEach (session : Session) (numbers : List Nat) :
    session.Reaches (numbers.foldl Session.abandon session) := by
  induction numbers generalizing session with
  | nil => exact .refl session
  | cons number numbers ih => exact (abandon session number).trans (ih _)

theorem shutDown (session : Session) : session.Reaches session.shutDown := by
  have abandoned : session.Reaches session.abandonAll := abandonEach session _
  have quiet : session.Reaches { session.abandonAll with stopRequested := true } :=
    abandoned.trans (.of_alike ⟨rfl, rfl, rfl, rfl, rfl⟩)
  simp only [Session.shutDown]
  split
  · exact (quiet.trans (happen _ .stop)).trans (.of_alike ⟨rfl, rfl, rfl, rfl, rfl⟩)
  · exact quiet.trans (.of_alike ⟨rfl, rfl, rfl, rfl, rfl⟩)

theorem calls (session : Session) (requests : List Request) :
    session.Reaches (requests.foldl call session) := by
  induction requests generalizing session with
  | nil => exact .refl session
  | cons request requests ih =>
      have called : session.Reaches (session.call request) := .of_alike ⟨rfl, rfl, rfl, rfl, rfl⟩
      exact called.trans (ih _)

theorem apply (session : Session) (stimulus : Stimulus) :
    session.Reaches (session.apply stimulus) := by
  have fed (incoming : Bytes) : session.Reaches { session with
      pipe := session.pipe.feed incoming } := .of_alike ⟨rfl, rfl, rfl, rfl, rfl⟩
  cases stimulus with
  | calls requests => exact calls session requests
  | arrive bytes => exact fed bytes
  | advance milliseconds => exact happen session (.wait milliseconds)
  | setMode mode => exact .of_alike ⟨rfl, rfl, rfl, rfl, rfl⟩
  | abandon number => exact abandon session number
  | shutDown incoming => exact (fed incoming).trans (shutDown _)
  | release incoming =>
      exact ((fed incoming).trans (shutDown _)).trans (.of_alike ⟨rfl, rfl, rfl, rfl, rfl⟩)
  | hangUp => exact .of_alike ⟨rfl, rfl, rfl, rfl, rfl⟩
  | dropReceivers => exact .of_alike ⟨rfl, rfl, rfl, rfl, rfl⟩
  | idle => exact .refl session

/-- Whatever the activities and the stimuli do has a history. -/
theorem of_evolved (evolved : Relation.ReflTransGen Evolves session next) :
    session.Reaches next := by
  induction evolved with
  | refl => exact .refl session
  | tail _ evolves ih =>
      cases evolves with
      | step activity stepped => exact ih.trans (step activity stepped)
      | apply stimulus => exact ih.trans (apply _ stimulus)

/-- So has a session that comes to rest after a stimulus. -/
theorem react (session : Session) (stimulus : Stimulus) :
    session.Reaches (session.react stimulus) :=
  of_evolved (evolves_react session stimulus)

end Reaches

variable {config : SessionConfig} {prototypes : PrototypeTable} {session next : Session}

/-- In every session the pending transactions are those that wait under their
keys and those that are overdue. -/
theorem pending_iff_waits
    (reached : Relation.ReflTransGen Evolves (start config prototypes) session) (number : Nat) :
    session.ledger.stateOf number = some .pending ↔
      (∃ transaction, session.ledger.transactions[number]? = some transaction ∧
        session.ledger.find? transaction.key = some number) ∨ number ∈ session.overdue := by
  obtain ⟨history, rfl⟩ := Reaches.of_evolved reached
  have orderly := orderly_run config prototypes history
  rw [orderly.pending_iff]
  refine or_congr_left ⟨fun inside => ?_, ?_⟩
  · obtain ⟨transaction, known, -⟩ :=
      Ledger.exists_of_look ((orderly.pending_iff number).2 (.inl inside))
    exact ⟨transaction, known, orderly.wellKeyed.find?_of_mem_table inside known⟩
  · rintro ⟨transaction, known, found⟩
    exact List.mem_map_of_mem (Ledger.mem_waiting_of_find? found)

/-- A transaction that has had its outcome keeps its state for as long as the
session goes on. -/
theorem stateOf_of_evolved
    (reached : Relation.ReflTransGen Evolves (start config prototypes) session)
    (evolved : Relation.ReflTransGen Evolves session next) {number : Nat}
    {state : TransactionState} (settled : session.ledger.stateOf number = some state)
    (terminal : state ≠ .pending) : next.ledger.stateOf number = some state := by
  obtain ⟨history, rfl⟩ := Reaches.of_evolved reached
  obtain ⟨later, rfl⟩ := Reaches.of_evolved evolved
  obtain ⟨moves, follows⟩ := exists_follows_run config prototypes history
  obtain ⟨more, further⟩ := follows.of_history (Race.watches_run moves) later
  rw [← follows.ledger] at settled
  rw [← further.ledger]
  exact Race.stateOf_run settled terminal more

end ZigbeeHost.Session
