import ZigbeeHost.Transaction.Ledger
import Mathlib.Data.List.Basic
import Mathlib.Data.List.Perm.Basic

/-!
# What each operation changes in the ledger

An operation of the ledger concerns the table, the state of one transaction,
or its reply.  The lemmas below say which, and that everything else stays.  In
a table with distinct keys, removing a key removes exactly the transaction that
was found under it.
-/

namespace ZigbeeHost

/-- The view does not show which timer a transaction keeps. -/
def Transaction.IgnoresTimer {α : Type} (view : Transaction → α) : Prop :=
  ∀ transaction timer, view { transaction with timer } = view transaction

namespace Ledger

/-- What a view shows of the transaction with the given number. -/
def look {α : Type} (ledger : Ledger) (view : Transaction → α) (number : Nat) : Option α :=
  ledger.transactions[number]?.map view

/-- The state of the transaction with the given number. -/
abbrev stateOf (ledger : Ledger) (number : Nat) : Option TransactionState :=
  ledger.look Transaction.state number

/-- The waiting side of the transaction with the given number. -/
abbrev replyOf (ledger : Ledger) (number : Nat) : Option Reply :=
  ledger.look Transaction.reply number

/-- The numbers of the transactions in the table. -/
def table (ledger : Ledger) : List Nat :=
  ledger.waiting.map Prod.snd

/-- Transactions wait under their own keys, and at most one under each. -/
structure WellKeyed (ledger : Ledger) : Prop where
  distinct : (ledger.waiting.map Prod.fst).Nodup
  keyed : ∀ entry ∈ ledger.waiting, ledger.look Transaction.key entry.2 = some entry.1

section Lookup

variable {ledger : Ledger} {key : CommandKey} {number : Nat}

theorem mem_waiting_of_find? (found : ledger.find? key = some number) :
    (key, number) ∈ ledger.waiting := by
  simp only [find?, Option.map_eq_some_iff] at found
  obtain ⟨entry, first, rfl⟩ := found
  have same : entry.1 = key := by simpa using List.find?_some first
  rw [← same]
  exact List.mem_of_find?_eq_some first

theorem key_notMem_of_find?_eq_none (free : ledger.find? key = none) :
    key ∉ ledger.waiting.map Prod.fst := by
  simp only [find?, Option.map_eq_none_iff, List.find?_eq_none, decide_eq_true_eq] at free
  intro member
  obtain ⟨entry, inside, same⟩ := List.mem_map.1 member
  exact free entry inside same

theorem perm_cons_filter_key {entries : List (CommandKey × Nat)}
    (distinct : (entries.map Prod.fst).Nodup) (member : (key, number) ∈ entries) :
    entries.Perm ((key, number) :: entries.filter fun entry => entry.1 ≠ key) := by
  induction entries with
  | nil => simp at member
  | cons entry entries ih =>
      obtain ⟨fresh, distinct⟩ := List.nodup_cons.1 distinct
      rcases List.mem_cons.1 member with rfl | inside
      · have others : entries.filter (fun entry => entry.1 ≠ key) = entries := by
          apply List.filter_eq_self.2
          intro other otherInside
          simp only [decide_eq_true_eq]
          rintro rfl
          exact fresh (List.mem_map.2 ⟨other, otherInside, rfl⟩)
        rw [List.filter_cons_of_neg (by simp), others]
      · have kept : entry.1 ≠ key := by
          rintro rfl
          exact fresh (List.mem_map.2 ⟨_, inside, rfl⟩)
        rw [List.filter_cons_of_pos (by simpa using kept)]
        exact ((ih distinct inside).cons entry).trans (.swap _ _ _)

theorem count_table_of_find? (wellKeyed : ledger.WellKeyed)
    (found : ledger.find? key = some number) (other : Nat) :
    ledger.table.count other =
      (ledger.remove key).table.count other + if number = other then 1 else 0 := by
  have split := perm_cons_filter_key wellKeyed.distinct (mem_waiting_of_find? found)
  have counted := (split.map Prod.snd).count_eq other
  simpa [table, remove, List.count_cons] using counted

theorem find?_of_mem_waiting (wellKeyed : ledger.WellKeyed)
    (waiting : (key, number) ∈ ledger.waiting) : ledger.find? key = some number := by
  have split := perm_cons_filter_key wellKeyed.distinct waiting
  cases found : ledger.find? key with
  | none =>
      exact absurd (List.mem_map.2 ⟨_, waiting, rfl⟩) (key_notMem_of_find?_eq_none found)
  | some other =>
      have inside := split.subset (mem_waiting_of_find? found)
      simpa using inside

theorem WellKeyed.of_sublist {next : Ledger} (wellKeyed : ledger.WellKeyed)
    (fewer : next.waiting.Sublist ledger.waiting)
    (same : ∀ number key, ledger.look Transaction.key number = some key →
      next.look Transaction.key number = some key) : next.WellKeyed where
  distinct := wellKeyed.distinct.sublist (fewer.map Prod.fst)
  keyed entry member := same _ _ (wellKeyed.keyed entry (fewer.subset member))

/-- A transaction whose key is free can be added under it. -/
theorem WellKeyed.of_register (wellKeyed : ledger.WellKeyed) {transaction : Transaction}
    (known : ledger.transactions[number]? = some transaction)
    (free : ledger.find? transaction.key = none) :
    WellKeyed { ledger with waiting := ledger.waiting ++ [(transaction.key, number)] } where
  distinct := by
    simp only [List.map_append, List.map_cons, List.map_nil]
    exact (List.perm_append_singleton _ _).nodup_iff.2
      (List.nodup_cons.2 ⟨key_notMem_of_find?_eq_none free, wellKeyed.distinct⟩)
  keyed entry member := by
    rcases List.mem_append.1 member with earlier | latest
    · exact wellKeyed.keyed entry earlier
    · obtain rfl := List.mem_singleton.1 latest
      simp [look, known]

/-- A transaction in the table is found under its own key. -/
theorem WellKeyed.find?_of_mem_table (wellKeyed : ledger.WellKeyed)
    (inside : number ∈ ledger.table) {transaction : Transaction}
    (known : ledger.transactions[number]? = some transaction) :
    ledger.find? transaction.key = some number := by
  obtain ⟨⟨key, other⟩, waiting, same⟩ := List.mem_map.1 inside
  obtain rfl : other = number := same
  have keyed := wellKeyed.keyed _ waiting
  obtain rfl : transaction.key = key := by simpa [look, known] using keyed
  exact find?_of_mem_waiting wellKeyed waiting

end Lookup

section Removal

variable (ledger : Ledger) (key : CommandKey) (number : Nat)

/-- Taking what waits under a key, or giving up one transaction, removes the
transaction that was found or nothing. -/
inductive Removes : Option Nat × Ledger → Prop
  | found {key : CommandKey} {number : Nat} (waiting : ledger.find? key = some number) :
      Removes (some number, ledger.remove key)
  | gone : Removes (none, ledger)

theorem removes_unregister : ledger.Removes (ledger.unregister key) := by
  cases found : ledger.find? key with
  | some number =>
      simp only [unregister, found]
      exact .found found
  | none =>
      have free := key_notMem_of_find?_eq_none found
      have unchanged : ledger.remove key = ledger := by
        have same : ledger.waiting.filter (fun entry => entry.1 ≠ key) = ledger.waiting := by
          apply List.filter_eq_self.2
          intro entry inside
          simp only [decide_eq_true_eq]
          rintro rfl
          exact free (List.mem_map_of_mem inside)
        rw [remove, same]
      simp only [unregister, found, unchanged]
      exact .gone

theorem removes_expire : ledger.Removes (ledger.expire key number) := by
  by_cases found : ledger.find? key = some number
  · simp only [expire, if_pos found]
    exact .found found
  · simp only [expire, if_neg found]
    exact .gone

theorem expire_eq_some {ledger next : Ledger} {key : CommandKey} {number expired : Nat}
    (removed : ledger.expire key number = (some expired, next)) :
    number = expired ∧ next.transactions = ledger.transactions := by
  simp only [expire] at removed
  split at removed
  · simp only [Prod.mk.injEq, Option.some.injEq] at removed
    obtain ⟨same, rfl⟩ := removed
    exact ⟨same, rfl⟩
  · cases removed

theorem Removes.transactions {ledger : Ledger} {removal : Option Nat × Ledger}
    (removes : ledger.Removes removal) : removal.2.transactions = ledger.transactions := by
  cases removes <;> rfl

end Removal

section Views

variable {α : Type} {ledger next : Ledger} {number : Nat} {view : Transaction → α}

theorem exists_of_look {seen : α} (known : ledger.look view number = some seen) :
    ∃ transaction, ledger.transactions[number]? = some transaction ∧ view transaction = seen := by
  simpa [look] using known

theorem look_of_known {transaction : Transaction}
    (known : ledger.transactions[number]? = some transaction) (view : Transaction → α) :
    ledger.look view number = some (view transaction) := by
  simp [look, known]

theorem look_eq_of_transactions (same : next.transactions = ledger.transactions)
    (view : Transaction → α) (number : Nat) : next.look view number = ledger.look view number := by
  rw [look, same, look]

theorem look_set {before after : Transaction}
    (known : ledger.transactions[number]? = some before)
    (changed : next.transactions = ledger.transactions.set number after)
    (view : Transaction → α) (other : Nat) :
    next.look view other =
      if other = number then some (view after) else ledger.look view other := by
  have inside := (List.getElem?_eq_some_iff.1 known).1
  rw [look, changed, List.getElem?_set]
  by_cases same : other = number
  · subst same
    simp [inside]
  · simp [look, same, Ne.symm same]

theorem WellKeyed.of_set {before after : Transaction} (wellKeyed : ledger.WellKeyed)
    (waiting : next.waiting = ledger.waiting)
    (known : ledger.transactions[number]? = some before)
    (changed : next.transactions = ledger.transactions.set number after)
    (key : after.key = before.key) : next.WellKeyed := by
  apply wellKeyed.of_sublist (waiting ▸ List.Sublist.refl _)
  intro other found same
  rw [look_set known changed]
  split
  · rename_i equal
    rw [equal, look_of_known known, ← key] at same
    exact same
  · exact same

theorem stateOf_of_known {transaction : Transaction}
    (known : ledger.transactions[number]? = some transaction) :
    ledger.stateOf number = some transaction.state :=
  look_of_known known _

theorem replyOf_of_known {transaction : Transaction}
    (known : ledger.transactions[number]? = some transaction) :
    ledger.replyOf number = some transaction.reply :=
  look_of_known known _

theorem stateOf_set {before after : Transaction}
    (known : ledger.transactions[number]? = some before)
    (changed : next.transactions = ledger.transactions.set number after) (other : Nat) :
    next.stateOf other = if other = number then some after.state else ledger.stateOf other :=
  look_set known changed _ other

theorem replyOf_set {before after : Transaction}
    (known : ledger.transactions[number]? = some before)
    (changed : next.transactions = ledger.transactions.set number after) (other : Nat) :
    next.replyOf other = if other = number then some after.reply else ledger.replyOf other :=
  look_set known changed _ other

/-- A transaction changes in nothing that the view shows. -/
theorem look_set_of_same {before after : Transaction}
    (known : ledger.transactions[number]? = some before)
    (changed : next.transactions = ledger.transactions.set number after)
    (same : view after = view before) (other : Nat) :
    next.look view other = ledger.look view other := by
  rw [look_set known changed]
  split
  · rename_i equal
    rw [equal, look_of_known known, same]
  · rfl

theorem stateOf_set_reply {transaction : Transaction} {reply : Reply}
    (known : ledger.transactions[number]? = some transaction)
    (changed : next.transactions = ledger.transactions.set number { transaction with reply })
    (other : Nat) : next.stateOf other = ledger.stateOf other :=
  look_set_of_same known changed rfl other

end Views

section Operations

variable (ledger : Ledger) (number other : Nat)

theorem look_create {α : Type} (view : Transaction → α) (key : CommandKey) (limit : Nat) :
    (ledger.create key limit).2.look view other =
      if other = ledger.transactions.length then
        some (view { key, limit, deadline := ledger.now + limit })
      else ledger.look view other := by
  simp only [create, look, List.getElem?_append]
  grind

/-- Registering puts a transaction into the table under its key, which was
free, and changes nothing else. -/
theorem register_cases {next : Ledger} {transaction : Transaction}
    (known : ledger.transactions[number]? = some transaction)
    (registered : ledger.register number = .ok next) :
    ledger.find? transaction.key = none ∧
      next = { ledger with waiting := ledger.waiting ++ [(transaction.key, number)] } := by
  simp only [register, known] at registered
  split at registered
  · cases registered
  · rename_i free
    exact ⟨free, (Except.ok.inj registered).symm⟩

/-- The first outcome of a transaction settles it. -/
theorem resolve_of_pending {transaction : Transaction}
    (known : ledger.transactions[number]? = some transaction)
    (pending : transaction.state = .pending) (outcome : Outcome) :
    (ledger.resolve number outcome).1 = true ∧
      (ledger.resolve number outcome).2.waiting = ledger.waiting ∧
      (ledger.resolve number outcome).2.transactions =
        ledger.transactions.set number (transaction.settle outcome) := by
  simp only [resolve, known, if_pos pending]
  split
  · split <;> exact ⟨rfl, rfl, rfl⟩
  · exact ⟨rfl, rfl, rfl⟩

/-- Registering changes nothing but the table. -/
theorem register_changes {next : Ledger} (registered : ledger.register number = .ok next) :
    ∃ waiting, next = { ledger with waiting } := by
  simp only [register] at registered
  split at registered
  · exact ⟨ledger.waiting, (Except.ok.inj registered).symm⟩
  · split at registered
    · cases registered
    · exact ⟨_, (Except.ok.inj registered).symm⟩

/-- Later outcomes are ignored. -/
theorem resolve_of_settled (settled : ledger.stateOf number ≠ some .pending)
    (outcome : Outcome) : ledger.resolve number outcome = (false, ledger) := by
  cases known : ledger.transactions[number]? with
  | none => simp only [resolve, known]
  | some transaction =>
      have state : transaction.state ≠ .pending := by
        simpa [look, known] using settled
      simp only [resolve, known, if_neg state]

theorem stateOf_resolve_of_settled {state : TransactionState}
    (settled : ledger.stateOf other = some state) (terminal : state ≠ .pending)
    (outcome : Outcome) : (ledger.resolve number outcome).2.stateOf other = some state := by
  by_cases pending : ledger.stateOf number = some .pending
  · obtain ⟨transaction, known, stillPending⟩ := exists_of_look pending
    obtain ⟨-, -, transactions⟩ := ledger.resolve_of_pending number known stillPending outcome
    have different : other ≠ number := by
      rintro rfl
      exact terminal (Option.some.inj (settled.symm.trans pending))
    rw [stateOf_set known transactions, if_neg different, settled]
  · rw [ledger.resolve_of_settled number pending, settled]

theorem waiting_keepTimer (timer : Nat) :
    (ledger.keepTimer number timer).waiting = ledger.waiting := by
  grind [keepTimer, abort]

theorem look_keepTimer {α : Type} {view : Transaction → α}
    (blind : Transaction.IgnoresTimer view) (timer : Nat) :
    (ledger.keepTimer number timer).look view other = ledger.look view other := by
  cases known : ledger.transactions[number]? with
  | none => simp only [keepTimer, known]
  | some transaction =>
      by_cases pending : transaction.state = .pending
      · have changed : (ledger.keepTimer number timer).transactions =
            ledger.transactions.set number { transaction with timer := some timer } := by
          simp only [keepTimer, known, if_pos pending]
        rw [look_set known changed, blind]
        split
        · rename_i same
          subst same
          rw [look_of_known known]
        · rfl
      · simp only [keepTimer, known, if_neg pending]
        exact look_eq_of_transactions rfl view other

/-- The caller takes a delivered outcome, or nothing happens. -/
theorem takeReply_cases :
    (∃ transaction outcome, ledger.transactions[number]? = some transaction ∧
      transaction.reply = .delivered outcome ∧
        ledger.takeReply number =
          (some outcome,
            { ledger with
              transactions :=
                ledger.transactions.set number { transaction with reply := .taken } })) ∨
      ledger.takeReply number = (none, ledger) := by
  cases known : ledger.transactions[number]? with
  | none => exact .inr (by simp only [takeReply, known])
  | some transaction =>
      cases reply : transaction.reply with
      | delivered outcome =>
          exact .inl ⟨transaction, outcome, rfl, reply, by simp only [takeReply, known, reply]⟩
      | _ => exact .inr (by simp only [takeReply, known, reply])

theorem dropReply_of_known {transaction : Transaction}
    (known : ledger.transactions[number]? = some transaction) :
    ledger.dropReply number =
      { ledger with
        transactions :=
          ledger.transactions.set number { transaction with reply := .dropped } } := by
  simp only [dropReply, List.modify_eq_set_getElem?, known]
  rfl

theorem dropReply_of_unknown (unknown : ledger.transactions[number]? = none) :
    ledger.dropReply number = ledger := by
  simp only [dropReply, List.modify_eq_set_getElem?, unknown]
  rfl

end Operations

end Ledger

end ZigbeeHost
