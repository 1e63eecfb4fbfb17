import ZigbeeHost.Proofs.Session.Races
import ZigbeeHost.Session.Deadlines

/-!
# What can happen to an engine

The engine of a session takes up requests, receives frames and learns how its
writes end, while timers go off and callers come and go.  A history lists such
occurrences in the order in which they happen.  It is more general than the
turns of a session: what the queues, the stream and the callers hold may change
in any way between two occurrences.  Every history is a run of a race.
-/

namespace ZigbeeHost

namespace Session

/-- Something that happens to the engine or its transactions. -/
inductive Occurrence where
  /-- The engine takes a request up, whose outcome goes to a call. -/
  | request (frame : Frame) (call : Nat)
  /-- The engine takes a frame up that is not answered. -/
  | notice (frame : Frame)
  | arrival (frame : Frame)
  /-- The frame that the engine is writing has been written. -/
  | written
  /-- It could not be written. -/
  | refused (cause : TransportError)
  /-- A timer that is due goes off, and its transaction is overdue. -/
  | expiry (timer : Nat)
  /-- A timer gives an overdue transaction up. -/
  | giveUp (transaction : Nat)
  | wait (milliseconds : Nat)
  /-- The caller of a transaction takes its outcome. -/
  | collect (transaction : Nat)
  /-- The caller of a transaction goes away. -/
  | leave (transaction : Nat)
  /-- The queues, the stream, the calls and the channels become those of another
  session. -/
  | surround (surroundings : Session)
  | stop

/-- The same engine and transactions in other surroundings. -/
def within (session surroundings : Session) : Session :=
  { surroundings with
    config := session.config
    prototypes := session.prototypes
    ledger := session.ledger
    overdue := session.overdue
    engine := session.engine }

/-- The session after an occurrence. The engine takes nothing up while it
writes, and nothing at all once it has stopped. -/
def happen (session : Session) : Occurrence → Session
  | .request frame call =>
      if session.engine = .idle then session.accept frame call else session
  | .notice frame =>
      if session.engine = .idle then { session with engine := .writing frame none } else session
  | .arrival frame => if session.engine = .idle then session.route frame else session
  | .written =>
      match session.engine with
      | .writing _ _ => { session with engine := .idle }
      | _ => session
  | .refused cause =>
      match session.engine with
      | .writing _ transaction => { session with engine := .idle }.failWrite transaction cause
      | _ => session
  | .expiry timer => session.goOff timer
  | .giveUp transaction => session.giveUp transaction
  | .wait milliseconds =>
      { session with ledger := { session.ledger with now := session.ledger.now + milliseconds } }
  | .collect transaction =>
      { session with ledger := (session.ledger.takeReply transaction).2 }
  | .leave transaction => { session with ledger := session.ledger.dropReply transaction }
  | .surround surroundings => session.within surroundings
  | .stop => session.stop

/-- The session after a history. -/
def run (session : Session) (history : List Occurrence) : Session :=
  history.foldl happen session

theorem run_append (session : Session) (earlier later : List Occurrence) :
    session.run (earlier ++ later) = (session.run earlier).run later :=
  List.foldl_append

theorem run_concat (session : Session) (history : List Occurrence) (occurrence : Occurrence) :
    session.run (history ++ [occurrence]) = (session.run history).happen occurrence := by
  rw [run_append]
  rfl

namespace Follows

variable {session next : Session} {race : Race}

/-- The race goes on with whatever happens. -/
theorem happen (follows : session.Follows race)
    (watched : ∀ timer ∈ race.ledger.timers, race.ledger.Watches timer)
    (occurrence : Occurrence) :
    ∃ moves, (session.happen occurrence).Follows (race.run moves) := by
  cases occurrence with
  | request frame call =>
      simp only [Session.happen]
      split
      · rename_i idle
        obtain ⟨ledger, engine, scope, -⟩ := session.accept_scope frame call
        refine follows.advance (by rw [scope]) fun due mirrors => ?_
        exact mirrors.reaches_accept idle frame call
      · exact follows.advance rfl fun due mirrors => mirrors.of_same rfl rfl
  | notice frame =>
      simp only [Session.happen]
      split
      · rename_i idle
        exact follows.advance rfl fun due mirrors =>
          ⟨[], mirrors.ledger, mirrors.tasks_of_idle idle⟩
      · exact follows.advance rfl fun due mirrors => mirrors.of_same rfl rfl
  | arrival frame =>
      simp only [Session.happen]
      split
      · obtain ⟨ledger, dispatcher, scope⟩ := session.route_scope frame
        exact follows.advance (by rw [scope]) fun due mirrors => mirrors.reaches_route frame
      · exact follows.advance rfl fun due mirrors => mirrors.of_same rfl rfl
  | written =>
      simp only [Session.happen]
      split
      · exact follows.advance rfl fun due mirrors => mirrors.reaches_due
      · exact follows.advance rfl fun due mirrors => mirrors.of_same rfl rfl
  | refused cause =>
      simp only [Session.happen]
      split
      · rename_i frame transaction writing
        obtain ⟨ledger, dispatcher, scope⟩ :=
          ({ session with engine := .idle } : Session).failWrite_scope transaction cause
        refine follows.advance (by rw [scope]) fun due mirrors => ?_
        rw [begun_of_idle (engine_failWrite _ transaction cause)]
        exact mirrors.reaches_failWrite writing cause
      · exact follows.advance rfl fun due mirrors => mirrors.of_same rfl rfl
  | expiry timer => exact follows.goOff watched timer
  | giveUp transaction => exact follows.giveUp transaction
  | wait milliseconds =>
      refine follows.advance rfl fun due mirrors => .after (.wait milliseconds) ?_
      simp only [Race.step, mirrors.ledger]
      exact ⟨[], rfl, mirrors.tasks⟩
  | collect transaction =>
      obtain ⟨reply, ledger, taken⟩ : ∃ reply ledger,
          session.ledger.takeReply transaction = (reply, ledger) := ⟨_, _, rfl⟩
      refine follows.advance rfl fun due mirrors => .after (.collect transaction) ?_
      simp only [Race.step, Session.happen, mirrors.ledger, taken]
      cases reply <;> exact ⟨[], rfl, mirrors.tasks⟩
  | leave transaction =>
      refine follows.advance rfl fun due mirrors => .after (.leave transaction) ?_
      simp only [Race.step, mirrors.ledger]
      exact ⟨[], rfl, mirrors.tasks⟩
  | surround surroundings => exact follows.advance rfl fun due mirrors => mirrors.of_same rfl rfl
  | stop =>
      refine follows.advance ?_ fun due mirrors => mirrors.reaches_stop
      simp only [Session.happen, stop, dropOutbound_scope]

theorem of_history (follows : session.Follows race)
    (watched : ∀ timer ∈ race.ledger.timers, race.ledger.Watches timer)
    (history : List Occurrence) : ∃ moves, (session.run history).Follows (race.run moves) := by
  induction history generalizing session race with
  | nil => exact ⟨[], follows⟩
  | cons occurrence history ih =>
      obtain ⟨moves, next⟩ := follows.happen watched occurrence
      obtain ⟨more, later⟩ := ih next ((race.grows_run moves).forall_watches watched)
      refine ⟨moves ++ more, ?_⟩
      rw [Race.run, List.foldl_append]
      exact later

end Follows

section Reached

variable (config : SessionConfig) (prototypes : PrototypeTable) (history : List Occurrence)

theorem follows_start : (start config prototypes).Follows {} :=
  ⟨rfl, [], .nil, .refl []⟩

/-- Every history is a run of a race. -/
theorem exists_follows_run :
    ∃ moves, ((start config prototypes).run history).Follows (Race.run {} moves) := by
  exact (follows_start config prototypes).of_history (fun _ member => by cases member) history

theorem orderly_run : ((start config prototypes).run history).Orderly := by
  obtain ⟨moves, follows⟩ := exists_follows_run config prototypes history
  exact follows.orderly (Race.sound_start.run moves)

theorem grows_happen (occurrence : Occurrence) :
    ((start config prototypes).run history).ledger.Grows
      (((start config prototypes).run history).happen occurrence).ledger := by
  obtain ⟨moves, follows⟩ := exists_follows_run config prototypes history
  obtain ⟨more, later⟩ := follows.happen (Race.watches_run moves) occurrence
  rw [← follows.ledger, ← later.ledger]
  exact Race.grows_run _ more

end Reached

end Session

end ZigbeeHost
