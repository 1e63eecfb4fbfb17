import ZigbeeHost.Proofs.Transaction.Race

/-!
# What timers watch

The key, the limit and the deadline of a transaction never change, and a timer
watches one transaction from its start on.  Every move of a race leaves both as
they are, so each timer knows the key and the deadline of its transaction.
-/

namespace ZigbeeHost

/-- What never changes in a transaction: its key, its limit and its deadline. -/
def Transaction.terms (transaction : Transaction) : CommandKey × Nat × Nat :=
  (transaction.key, transaction.limit, transaction.deadline)

/-- What never changes in a timer: its key, its transaction and its deadline. -/
def Timer.target (timer : Timer) : CommandKey × Nat × Nat :=
  (timer.key, timer.transaction, timer.deadline)

namespace Ledger

/-- The timer has the key and the deadline of the transaction that it watches. -/
def Watches (ledger : Ledger) (timer : Timer) : Prop :=
  ∃ limit, ledger.look Transaction.terms timer.transaction =
    some (timer.key, limit, timer.deadline)

/-- Transactions and timers are added and change their states, and nothing
else. -/
structure Grows (ledger next : Ledger) : Prop where
  terms : ∀ number terms, ledger.look Transaction.terms number = some terms →
    next.look Transaction.terms number = some terms
  timers : ∀ timer ∈ next.timers,
    (∃ earlier ∈ ledger.timers, earlier.target = timer.target) ∨ next.Watches timer

namespace Grows

variable {ledger next : Ledger}

theorem of_same (transactions : next.transactions = ledger.transactions)
    (timers : next.timers = ledger.timers) : ledger.Grows next where
  terms number _ known := (look_eq_of_transactions transactions _ number).trans known
  timers timer member := .inl ⟨timer, timers ▸ member, rfl⟩

theorem refl (ledger : Ledger) : ledger.Grows ledger :=
  of_same rfl rfl

theorem watches (grows : ledger.Grows next) {timer later : Timer}
    (watches : ledger.Watches timer) (same : timer.target = later.target) :
    next.Watches later := by
  obtain ⟨limit, known⟩ := watches
  simp only [Timer.target, Prod.mk.injEq] at same
  obtain ⟨key, transaction, deadline⟩ := same
  rw [key, transaction, deadline] at known
  exact ⟨limit, grows.terms _ _ known⟩

theorem trans {middle : Ledger} (first : ledger.Grows middle) (second : middle.Grows next) :
    ledger.Grows next where
  terms number terms known := second.terms number terms (first.terms number terms known)
  timers timer member := by
    rcases second.timers timer member with ⟨earlier, inside, same⟩ | watches
    · rcases first.timers earlier inside with ⟨earliest, inside, target⟩ | watches
      · exact .inl ⟨earliest, inside, target.trans same⟩
      · exact .inr (second.watches watches same)
    · exact .inr watches

theorem of_set {number : Nat} {before after : Transaction}
    (known : ledger.transactions[number]? = some before)
    (changed : next.transactions = ledger.transactions.set number after)
    (same : after.terms = before.terms) (timers : next.timers = ledger.timers) :
    ledger.Grows next where
  terms other terms existing := by
    rw [look_set known changed]
    split
    · rename_i equal
      rwa [equal, look_of_known known, ← same] at existing
    · exact existing
  timers timer member := .inl ⟨timer, timers ▸ member, rfl⟩

theorem length_le (grows : ledger.Grows next) :
    ledger.transactions.length ≤ next.transactions.length := by
  by_contra fewer
  have inside : next.transactions.length < ledger.transactions.length := Nat.not_le.1 fewer
  have known := grows.terms _ _ (look_of_known (List.getElem?_eq_getElem inside) _)
  simp [look] at known

/-- Every timer of a ledger that has grown watches a transaction, if every timer
did before. -/
theorem forall_watches (grows : ledger.Grows next)
    (before : ∀ timer ∈ ledger.timers, ledger.Watches timer) :
    ∀ timer ∈ next.timers, next.Watches timer := by
  intro timer member
  rcases grows.timers timer member with ⟨earlier, inside, same⟩ | watches
  · exact grows.watches (before earlier inside) same
  · exact watches

end Grows

section Operations

variable (ledger : Ledger) (number timer : Nat)

theorem grows_create (key : CommandKey) (limit : Nat) :
    ledger.Grows (ledger.create key limit).2 where
  terms other terms known := by
    obtain ⟨transaction, existing, -⟩ := exists_of_look known
    have earlier := (List.getElem?_eq_some_iff.1 existing).1
    rw [look_create, if_neg (Nat.ne_of_lt earlier), known]
  timers timer member := .inl ⟨timer, member, rfl⟩

theorem grows_setTimer {entry : Timer} (known : ledger.timers[timer]? = some entry)
    (state : TimerState) :
    ledger.Grows { ledger with timers := ledger.timers.set timer { entry with state } } where
  terms other terms existing := existing
  timers other member := by
    rcases List.mem_or_eq_of_mem_set member with earlier | rfl
    · exact .inl ⟨other, earlier, rfl⟩
    · exact .inl ⟨entry, List.mem_of_getElem? known, rfl⟩

/-- A timer that is asleep is stopped, and any other one is left alone. -/
theorem abort_cases :
    (∃ entry, ledger.timers[timer]? = some entry ∧ entry.state = .asleep ∧
      ledger.abort timer =
        { ledger with timers := ledger.timers.set timer { entry with state := .aborted } }) ∨
      ledger.abort timer = ledger := by
  cases known : ledger.timers[timer]? with
  | none => exact .inr (by simp [abort, List.modify_eq_set_getElem?, known])
  | some entry =>
      by_cases asleep : entry.state = .asleep
      · exact .inl ⟨entry, rfl, asleep, by
          simp [abort, List.modify_eq_set_getElem?, known, asleep]⟩
      · obtain ⟨inside, rfl⟩ := List.getElem?_eq_some_iff.1 known
        exact .inr (by simp [abort, List.modify_eq_set_getElem?, known, asleep])

theorem grows_abort : ledger.Grows (ledger.abort timer) := by
  rcases ledger.abort_cases timer with ⟨entry, known, -, aborted⟩ | unchanged
  · rw [aborted]
    exact ledger.grows_setTimer timer known .aborted
  · rw [unchanged]
    exact .refl ledger

theorem grows_resolve (outcome : Outcome) : ledger.Grows (ledger.resolve number outcome).2 := by
  cases known : ledger.transactions[number]? with
  | none =>
      simp only [resolve, known]
      exact .refl ledger
  | some transaction =>
      simp only [resolve, known]
      split
      · have settled : ledger.Grows
            { ledger with
              transactions := ledger.transactions.set number (transaction.settle outcome) } :=
          .of_set known rfl rfl rfl
        split
        · split
          · exact settled
          · exact settled.trans (grows_abort _ _)
        · exact settled
      · exact .refl ledger

theorem grows_startTimer {transaction : Transaction}
    (known : ledger.transactions[number]? = some transaction) :
    ledger.Grows (ledger.startTimer number transaction).2 where
  terms other terms existing := existing
  timers timer member := by
    rcases List.mem_append.1 member with earlier | latest
    · exact .inl ⟨timer, earlier, rfl⟩
    · obtain rfl := List.mem_singleton.1 latest
      exact .inr ⟨transaction.limit, look_of_known known _⟩

theorem grows_keepTimer : ledger.Grows (ledger.keepTimer number timer) := by
  cases known : ledger.transactions[number]? with
  | none =>
      simp only [keepTimer, known]
      exact .refl ledger
  | some transaction =>
      simp only [keepTimer, known]
      split
      · exact .of_set known rfl rfl rfl
      · exact ledger.grows_abort timer

theorem grows_dropReply : ledger.Grows (ledger.dropReply number) := by
  cases known : ledger.transactions[number]? with
  | none =>
      rw [ledger.dropReply_of_unknown number known]
      exact .refl ledger
  | some transaction =>
      rw [ledger.dropReply_of_known number known]
      exact .of_set known rfl rfl rfl

theorem grows_takeReply : ledger.Grows (ledger.takeReply number).2 := by
  rcases ledger.takeReply_cases number with ⟨transaction, outcome, known, -, taken⟩ | nothing
  · rw [taken]
    exact .of_set known rfl rfl rfl
  · rw [nothing]
    exact .refl ledger

theorem grows_of_removes {removal : Option Nat × Ledger} (removes : ledger.Removes removal) :
    ledger.Grows removal.2 := by
  cases removes with
  | found waiting => exact .of_same rfl rfl
  | gone => exact .refl ledger

end Operations

end Ledger

namespace Race

variable {race : Race}

theorem grows_hold {removal : Option Nat × Ledger} (removes : race.ledger.Removes removal)
    (outcome : Outcome) : race.ledger.Grows (race.hold removal outcome).ledger := by
  have grows := race.ledger.grows_of_removes removes
  obtain ⟨removed, ledger⟩ := removal
  cases removed <;> exact grows

theorem grows_perform (race : Race) (task : Task) :
    race.ledger.Grows (race.perform task).ledger := by
  cases task with
  | register number =>
      simp only [perform]
      split
      · exact .refl race.ledger
      · rename_i ledger registered
        obtain ⟨waiting, rfl⟩ := race.ledger.register_changes number registered
        exact .of_same rfl rfl
  | start number =>
      simp only [perform]
      split
      · exact .refl race.ledger
      · rename_i transaction known
        exact race.ledger.grows_startTimer number known
  | arm number timer => exact race.ledger.grows_keepTimer number timer
  | write number => exact .refl race.ledger
  | expire key number error => exact grows_hold (Ledger.removes_expire _ _ _) _
  | refuse number error => exact race.ledger.grows_resolve number _
  | resolve number outcome => exact race.ledger.grows_resolve number _

theorem grows_step (race : Race) (move : Move) : race.ledger.Grows (race.step move).ledger := by
  cases move with
  | begin key limit => exact race.ledger.grows_create key limit
  | proceed index =>
      simp only [step]
      split
      · exact .refl race.ledger
      · exact grows_perform { race with tasks := race.tasks.eraseIdx index } _
  | failWrite index cause =>
      simp only [step]
      split
      · split <;> exact .refl race.ledger
      · exact .refl race.ledger
  | answer key payload => exact grows_hold (Ledger.removes_unregister _ _) _
  | reject key code => exact grows_hold (Ledger.removes_unregister _ _) _
  | cancelAll => exact .of_same rfl rfl
  | wake timer =>
      simp only [step]
      split
      · exact .refl race.ledger
      · rename_i entry known
        split
        · exact .refl race.ledger
        · split
          · exact race.ledger.grows_setTimer timer known .fired
          · exact .refl race.ledger
  | wait milliseconds => exact .of_same rfl rfl
  | collect number =>
      have grows := race.ledger.grows_takeReply number
      simp only [step]
      split <;> rename_i taken <;> rwa [taken] at grows
  | leave number => exact race.ledger.grows_dropReply number

theorem grows_run (race : Race) (moves : List Move) :
    race.ledger.Grows (race.run moves).ledger := by
  induction moves generalizing race with
  | nil => exact .refl race.ledger
  | cons move moves ih => exact (race.grows_step move).trans (ih (race.step move))

/-- In every race each timer has the key and the deadline of the transaction
that it watches. -/
theorem watches_run (moves : List Move) :
    ∀ timer ∈ (run {} moves).ledger.timers, (run {} moves).ledger.Watches timer :=
  (grows_run {} moves).forall_watches fun _ member => by cases member

end Race

end ZigbeeHost
