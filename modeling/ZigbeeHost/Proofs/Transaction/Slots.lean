import ZigbeeHost.Proofs.Transaction.Timers

/-!
# Timers and the transactions that keep them

An operation of the ledger starts one timer, or ends one that is asleep, or
leaves the timers alone.  Which timer it stops depends on the transaction: one
that gets its outcome gives the timer up that it has kept, and one that has its
outcome already does not take the timer that it is handed.
-/

namespace ZigbeeHost

/-- What concerns the timer in a transaction: the state that decides whether it
is kept, and the timer that is kept. -/
def Transaction.slot (transaction : Transaction) : TransactionState × Option Nat :=
  (transaction.state, transaction.timer)

namespace Ledger

/-- The transactions that are watched, in the order in which their timers have
been started. -/
def watched (ledger : Ledger) : List Nat :=
  ledger.timers.map Timer.transaction

/-- The state of the timer at a position. -/
def timerState (ledger : Ledger) (timer : Nat) : Option TimerState :=
  ledger.timers[timer]?.map Timer.state

/-- What one step can do to the timers: start one, or end one that is asleep. -/
inductive Ticks (ledger next : Ledger) : Prop
  | still (same : next.timers = ledger.timers)
  | started (entry : Timer) (added : next.timers = ledger.timers ++ [entry])
  | ended {timer : Nat} {entry : Timer} (known : ledger.timers[timer]? = some entry)
      (asleep : entry.state = .asleep) (state : TimerState)
      (changed : next.timers = ledger.timers.set timer { entry with state })

theorem watched_getElem?_iff {ledger : Ledger} {timer number : Nat} :
    ledger.watched[timer]? = some number ↔
      ∃ entry, ledger.timers[timer]? = some entry ∧ entry.transaction = number := by
  simp [watched]

theorem watched_of_set {ledger next : Ledger} {timer : Nat} {entry : Timer}
    (known : ledger.timers[timer]? = some entry) {state : TimerState}
    (changed : next.timers = ledger.timers.set timer { entry with state }) :
    next.watched = ledger.watched := by
  obtain ⟨inside, rfl⟩ := List.getElem?_eq_some_iff.1 known
  rw [watched, changed, List.map_set, ← List.map_set (a := ledger.timers[timer]),
    List.set_getElem_self, watched]

namespace Ticks

variable {ledger next : Ledger} {timer number : Nat}

/-- A timer goes on watching its transaction. -/
theorem watched (ticks : ledger.Ticks next) (watches : ledger.watched[timer]? = some number) :
    next.watched[timer]? = some number := by
  cases ticks with
  | still same => rwa [Ledger.watched, same]
  | started entry added =>
      obtain ⟨own, known, rfl⟩ := watched_getElem?_iff.1 watches
      have earlier := (List.getElem?_eq_some_iff.1 known).1
      refine watched_getElem?_iff.2 ⟨own, ?_, rfl⟩
      rw [added, List.getElem?_append_left earlier, known]
  | ended known _ state changed => rwa [watched_of_set known changed]

/-- A timer that is not asleep any more stays as it is. -/
theorem timerState (ticks : ledger.Ticks next) {state : TimerState}
    (now : ledger.timerState timer = some state) (awake : state ≠ .asleep) :
    next.timerState timer = some state := by
  cases ticks with
  | still same => rwa [Ledger.timerState, same]
  | started entry added =>
      obtain ⟨own, known, rfl⟩ := Option.map_eq_some_iff.1 now
      have earlier := (List.getElem?_eq_some_iff.1 known).1
      rw [Ledger.timerState, added, List.getElem?_append_left earlier, known, Option.map_some]
  | @ended other entry known asleep later changed =>
      have different : other ≠ timer := by
        rintro rfl
        rw [Ledger.timerState, known, Option.map_some, asleep] at now
        exact awake (Option.some.inj now).symm
      rwa [Ledger.timerState, changed, List.getElem?_set_ne different]

end Ticks

section Operations

variable (ledger : Ledger) (number timer : Nat)

theorem ticks_abort : ledger.Ticks (ledger.abort timer) := by
  rcases ledger.abort_cases timer with ⟨entry, known, asleep, aborted⟩ | unchanged
  · rw [aborted]
    exact .ended known asleep .aborted rfl
  · rw [unchanged]
    exact .still rfl

theorem timerState_abort : (ledger.abort timer).timerState timer ≠ some .asleep := by
  cases known : ledger.timers[timer]? with
  | none => simp [abort, timerState, known]
  | some entry =>
      by_cases asleep : entry.state = .asleep <;> simp [abort, timerState, known, asleep]

/-- Stops a timer if there is one to stop. -/
def stop (ledger : Ledger) : Option Nat → Ledger
  | none => ledger
  | some timer => ledger.abort timer

/-- The timer that a transaction gives up with its outcome; a timer that has
resolved its transaction is not stopped. -/
def released (ledger : Ledger) (number : Nat) (outcome : Outcome) : Option Nat :=
  match ledger.transactions[number]? with
  | none => none
  | some transaction =>
      if transaction.state = .pending ∧ TransactionState.ofOutcome outcome ≠ .timedOut then
        transaction.timer
      else none

/-- The timer that a transaction does not take because it has been settled. -/
def declined (ledger : Ledger) (number timer : Nat) : Option Nat :=
  match ledger.transactions[number]? with
  | none => none
  | some transaction => if transaction.state = .pending then none else some timer

/-- Resolving a transaction stops the timer that it gives up, and no other. -/
theorem timers_resolve_eq (outcome : Outcome) :
    (ledger.resolve number outcome).2.timers =
      (ledger.stop (ledger.released number outcome)).timers := by
  cases known : ledger.transactions[number]? with
  | none => simp only [resolve, released, known, stop]
  | some transaction =>
      simp only [resolve, released, known]
      by_cases pending : transaction.state = .pending
      · by_cases timedOut : TransactionState.ofOutcome outcome = .timedOut
        · cases timer : transaction.timer <;> simp [pending, timedOut, stop]
        · cases timer : transaction.timer <;> simp [pending, timedOut, stop, abort]
      · simp [pending, stop]

/-- A transaction that does not take its timer stops it. -/
theorem timers_keepTimer :
    (ledger.keepTimer number timer).timers = (ledger.stop (ledger.declined number timer)).timers := by
  cases known : ledger.transactions[number]? with
  | none => simp only [keepTimer, declined, known, stop]
  | some transaction =>
      simp only [keepTimer, declined, known]
      split <;> rfl

theorem ticks_stop (stopped : Option Nat) : ledger.Ticks (ledger.stop stopped) := by
  cases stopped with
  | none => exact .still rfl
  | some timer => exact ledger.ticks_abort timer

end Operations

theorem Ticks.of_timers {ledger middle next : Ledger} (ticks : ledger.Ticks middle)
    (same : next.timers = middle.timers) : ledger.Ticks next := by
  cases ticks with
  | still unchanged => exact .still (same.trans unchanged)
  | started entry added => exact .started entry (same.trans added)
  | ended known asleep state changed => exact .ended known asleep state (same.trans changed)

theorem Removes.timers {ledger : Ledger} {removal : Option Nat × Ledger}
    (removes : ledger.Removes removal) : removal.2.timers = ledger.timers := by
  cases removes <;> rfl

theorem watched_of_timers {ledger next : Ledger} (same : next.timers = ledger.timers) :
    next.watched = ledger.watched := by
  rw [watched, same, watched]

theorem watched_stop (ledger : Ledger) (stopped : Option Nat) :
    (ledger.stop stopped).watched = ledger.watched := by
  cases stopped with
  | none => rfl
  | some timer =>
      rcases ledger.abort_cases timer with ⟨entry, known, -, aborted⟩ | unchanged
      · exact watched_of_set known (by rw [stop, aborted])
      · rw [stop, unchanged]

/-- A pending transaction keeps the timer that it is handed. -/
theorem slot_keepTimer {ledger : Ledger} {number : Nat} {transaction : Transaction}
    (known : ledger.transactions[number]? = some transaction) (timer other : Nat) :
    (ledger.keepTimer number timer).look Transaction.slot other =
      if other = number ∧ transaction.state = .pending then some (.pending, some timer)
      else ledger.look Transaction.slot other := by
  by_cases pending : transaction.state = .pending
  · have changed : (ledger.keepTimer number timer).transactions =
        ledger.transactions.set number { transaction with timer := some timer } := by
      simp only [keepTimer, known, if_pos pending]
    rw [look_set known changed]
    simp only [pending, and_true, Transaction.slot]
  · have unchanged : (ledger.keepTimer number timer).transactions = ledger.transactions := by
      simp only [keepTimer, known, if_neg pending, abort]
    rw [look_eq_of_transactions unchanged, if_neg fun both => pending both.2]

/-- A pending transaction that gets its outcome keeps no timer, and releases the
one that it has kept unless it has timed out. -/
theorem slot_resolve (ledger : Ledger) (number : Nat) (outcome : Outcome) (other : Nat) :
    (ledger.resolve number outcome).2.look Transaction.slot other =
        ledger.look Transaction.slot other ∨
      ∃ handle, ledger.look Transaction.slot other = some (.pending, handle) ∧
        (ledger.resolve number outcome).2.look Transaction.slot other =
          some (.ofOutcome outcome, none) ∧
        (TransactionState.ofOutcome outcome ≠ .timedOut →
          ledger.released number outcome = handle) := by
  by_cases pending : ledger.stateOf number = some .pending
  · obtain ⟨transaction, known, state⟩ := exists_of_look pending
    obtain ⟨-, -, changed⟩ := ledger.resolve_of_pending number known state outcome
    rw [look_set known changed]
    by_cases same : other = number
    · subst same
      refine .inr ⟨transaction.timer, ?_, by rw [if_pos rfl]; rfl, fun ended => ?_⟩
      · rw [look_of_known known, Transaction.slot, state]
      · simp [released, known, state, ended]
    · exact .inl (if_neg same)
  · rw [ledger.resolve_of_settled number pending]
    exact .inl rfl

theorem exists_of_released {ledger : Ledger} {number timer : Nat} {outcome : Outcome}
    (released : ledger.released number outcome = some timer) :
    ∃ transaction, ledger.transactions[number]? = some transaction ∧
      transaction.timer = some timer := by
  simp only [Ledger.released] at released
  split at released
  · cases released
  · rename_i transaction known
    split at released
    · exact ⟨transaction, known, released⟩
    · cases released

theorem eq_of_declined {ledger : Ledger} {number timer stopped : Nat}
    (declined : ledger.declined number timer = some stopped) : timer = stopped := by
  simp only [Ledger.declined] at declined
  split at declined
  · cases declined
  · split at declined
    · cases declined
    · exact Option.some.inj declined

end Ledger

end ZigbeeHost
