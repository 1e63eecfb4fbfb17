import ZigbeeHost.Proofs.Transaction.Waning

/-!
# Who is cancelled, and when

No step of the ledger gives up a transaction as cancelled but the one that
cancels everything.  That step concerns exactly the pending transactions in the
table.  Once the table is empty, no timer finds anything to give up.  Only the
caller of a transaction can take its outcome or go away, so whatever else
happens, the outcome is there for a caller who still waits.
-/

namespace ZigbeeHost.Ledger

/-- The keys of the transactions, in the order in which these have begun. -/
def keys (ledger : Ledger) : List CommandKey :=
  ledger.transactions.map Transaction.key

theorem stateOf_eq_none_iff {ledger : Ledger} {number : Nat} :
    ledger.stateOf number = none ↔ ledger.keys.length ≤ number := by
  simp [look, keys]

theorem stateOf_ne_none_of_keys {ledger next : Ledger} (same : next.keys = ledger.keys)
    {number : Nat} (known : next.stateOf number ≠ none) : ledger.stateOf number ≠ none := by
  rwa [Ne, stateOf_eq_none_iff, ← same, ← stateOf_eq_none_iff]

/-- No transaction is added, and none is cancelled. -/
structure Continues (ledger next : Ledger) : Prop where
  keys : next.keys = ledger.keys
  cancelled : ∀ number, next.stateOf number = some .cancelled →
    ledger.stateOf number = some .cancelled

/-- The caller of a transaction has neither taken its outcome nor gone away. -/
def Claimable (ledger : Ledger) (number : Nat) : Prop :=
  ∃ reply, ledger.replyOf number = some reply ∧ reply ≠ .taken ∧ reply ≠ .dropped

/-- No transaction is added or cancelled, and no caller does anything. -/
structure Proceeds (ledger next : Ledger) : Prop extends ledger.Continues next where
  claimable : ∀ number, ledger.Claimable number → next.Claimable number

theorem keys_of_set {ledger next : Ledger} {number : Nat} {before after : Transaction}
    (known : ledger.transactions[number]? = some before)
    (changed : next.transactions = ledger.transactions.set number after)
    (same : after.key = before.key) : next.keys = ledger.keys := by
  obtain ⟨inside, rfl⟩ := List.getElem?_eq_some_iff.1 known
  rw [keys, changed, List.map_set, same, ← List.map_set, List.set_getElem_self, keys]

namespace Continues

variable {ledger next : Ledger}

theorem of_transactions (same : next.transactions = ledger.transactions) :
    ledger.Continues next where
  keys := by rw [Ledger.keys, same, Ledger.keys]
  cancelled number state := (look_eq_of_transactions same _ number).symm.trans state

theorem refl (ledger : Ledger) : ledger.Continues ledger :=
  of_transactions rfl

theorem trans {middle : Ledger} (first : ledger.Continues middle)
    (second : middle.Continues next) : ledger.Continues next where
  keys := second.keys.trans first.keys
  cancelled number state := first.cancelled number (second.cancelled number state)

theorem of_set {number : Nat} {before after : Transaction}
    (known : ledger.transactions[number]? = some before)
    (changed : next.transactions = ledger.transactions.set number after)
    (same : after.key = before.key)
    (state : after.state = .cancelled → before.state = .cancelled) : ledger.Continues next where
  keys := keys_of_set known changed same
  cancelled other cancelled := by
    rw [stateOf_set known changed] at cancelled
    split at cancelled
    · rename_i equal
      rw [equal, stateOf_of_known known, state (Option.some.inj cancelled)]
    · exact cancelled

end Continues

namespace Proceeds

variable {ledger next : Ledger}

theorem of_transactions (same : next.transactions = ledger.transactions) :
    ledger.Proceeds next where
  toContinues := .of_transactions same
  claimable number := by
    rintro ⟨reply, known, claimable⟩
    exact ⟨reply, (look_eq_of_transactions same _ number).trans known, claimable⟩

theorem refl (ledger : Ledger) : ledger.Proceeds ledger :=
  of_transactions rfl

theorem trans {middle : Ledger} (first : ledger.Proceeds middle)
    (second : middle.Proceeds next) : ledger.Proceeds next where
  toContinues := first.toContinues.trans second.toContinues
  claimable number claimable := second.claimable number (first.claimable number claimable)

end Proceeds

section Operations

variable (ledger : Ledger) (number timer : Nat)

theorem keys_resolve (outcome : Outcome) : (ledger.resolve number outcome).2.keys = ledger.keys := by
  by_cases pending : ledger.stateOf number = some .pending
  · obtain ⟨transaction, known, state⟩ := exists_of_look pending
    obtain ⟨-, -, changed⟩ := ledger.resolve_of_pending number known state outcome
    exact keys_of_set known changed rfl
  · rw [ledger.resolve_of_settled number pending]

/-- Resolving concerns one transaction, and only if it is pending. -/
theorem stateOf_resolve (outcome : Outcome) (other : Nat) :
    (ledger.resolve number outcome).2.stateOf other =
      if other = number ∧ ledger.stateOf other = some .pending then some (.ofOutcome outcome)
      else ledger.stateOf other := by
  by_cases pending : ledger.stateOf number = some .pending
  · obtain ⟨transaction, known, state⟩ := exists_of_look pending
    obtain ⟨-, -, changed⟩ := ledger.resolve_of_pending number known state outcome
    rw [stateOf_set known changed]
    by_cases same : other = number
    · subst same
      simp [pending, Transaction.settle]
    · simp [same]
  · rw [ledger.resolve_of_settled number pending, if_neg]
    rintro ⟨rfl, stillPending⟩
    exact pending stillPending

/-- Whoever waits for an outcome gets it or goes on waiting. -/
theorem claimable_resolve (outcome : Outcome) {other : Nat} (claimable : ledger.Claimable other) :
    (ledger.resolve number outcome).2.Claimable other := by
  by_cases pending : ledger.stateOf number = some .pending
  · obtain ⟨transaction, known, state⟩ := exists_of_look pending
    obtain ⟨-, -, changed⟩ := ledger.resolve_of_pending number known state outcome
    obtain ⟨reply, replied, notTaken, notDropped⟩ := claimable
    rw [Claimable, replyOf_set known changed]
    split
    · rename_i same
      rw [same, replyOf_of_known known] at replied
      obtain rfl := Option.some.inj replied
      refine ⟨_, rfl, ?_, ?_⟩
      · cases reply : transaction.reply <;> simp_all [Transaction.settle, Reply.deliver]
      · cases reply : transaction.reply <;> simp_all [Transaction.settle, Reply.deliver]
    · exact ⟨reply, replied, notTaken, notDropped⟩
  · rwa [ledger.resolve_of_settled number pending]

theorem proceeds_resolve {outcome : Outcome}
    (other : TransactionState.ofOutcome outcome ≠ .cancelled) :
    ledger.Proceeds (ledger.resolve number outcome).2 where
  keys := ledger.keys_resolve number outcome
  cancelled number cancelled := by
    rw [stateOf_resolve] at cancelled
    split at cancelled
    · exact absurd (Option.some.inj cancelled) other
    · exact cancelled
  claimable _ := ledger.claimable_resolve number outcome

theorem transactions_wake : (ledger.wake timer).2.transactions = ledger.transactions := by
  simp only [wake]
  split
  · rfl
  · split
    · exact (removes_expire _ _ _).transactions
    · rfl

theorem proceeds_timeOut : ledger.Proceeds (ledger.timeOut number) := by
  simp only [timeOut]
  split
  · exact .refl ledger
  · exact ledger.proceeds_resolve number
      (by simp [TransactionState.ofOutcome, Transaction.timeoutError])

theorem stateOf_timeOut (pending : ledger.stateOf number = some .pending) :
    (ledger.timeOut number).stateOf number = some .timedOut := by
  obtain ⟨transaction, known, -⟩ := exists_of_look pending
  simp only [timeOut, known]
  rw [stateOf_resolve, if_pos ⟨rfl, pending⟩]
  rfl

theorem continues_takeReply : ledger.Continues (ledger.takeReply number).2 := by
  rcases ledger.takeReply_cases number with ⟨transaction, outcome, known, -, taken⟩ | nothing
  · rw [taken]
    exact .of_set known rfl rfl id
  · rw [nothing]
    exact .refl ledger

theorem continues_dropReply : ledger.Continues (ledger.dropReply number) := by
  cases known : ledger.transactions[number]? with
  | none =>
      rw [ledger.dropReply_of_unknown number known]
      exact .refl ledger
  | some transaction =>
      rw [ledger.dropReply_of_known number known]
      exact .of_set known rfl rfl id

/-- A caller takes the outcome that has been delivered. -/
theorem takeReply_eq_some_iff {outcome : Outcome} :
    (ledger.takeReply number).1 = some outcome ↔
      ledger.replyOf number = some (.delivered outcome) := by
  cases known : ledger.transactions[number]? with
  | none => simp [takeReply, look, known]
  | some transaction =>
      rw [replyOf_of_known known]
      cases reply : transaction.reply <;> simp [takeReply, known, reply]

/-- A caller concerns its own transaction only. -/
theorem claimable_takeReply {other : Nat} (different : other ≠ number)
    (claimable : ledger.Claimable other) : (ledger.takeReply number).2.Claimable other := by
  rcases ledger.takeReply_cases number with ⟨transaction, outcome, known, -, taken⟩ | nothing
  · rw [taken, Claimable, replyOf_set known rfl, if_neg different]
    exact claimable
  · rwa [nothing]

theorem claimable_dropReply {other : Nat} (different : other ≠ number)
    (claimable : ledger.Claimable other) : (ledger.dropReply number).Claimable other := by
  cases known : ledger.transactions[number]? with
  | none => rwa [ledger.dropReply_of_unknown number known]
  | some transaction =>
      rw [ledger.dropReply_of_known number known, Claimable, replyOf_set known rfl,
        if_neg different]
      exact claimable

theorem keys_resolveAll (outcome : Outcome) (numbers : List Nat) :
    (ledger.resolveAll outcome numbers).2.keys = ledger.keys := by
  induction numbers generalizing ledger with
  | nil => rfl
  | cons number numbers ih =>
      exact (ih (ledger.resolve number outcome).2).trans (ledger.keys_resolve number outcome)

theorem claimable_resolveAll (outcome : Outcome) (numbers : List Nat) {other : Nat}
    (claimable : ledger.Claimable other) :
    (ledger.resolveAll outcome numbers).2.Claimable other := by
  induction numbers generalizing ledger with
  | nil => exact claimable
  | cons number numbers ih =>
      exact ih (ledger.resolve number outcome).2 (ledger.claimable_resolve number outcome claimable)

/-- Resolving several transactions concerns the pending ones among them. -/
theorem stateOf_resolveAll (outcome : Outcome) (numbers : List Nat) (other : Nat) :
    (ledger.resolveAll outcome numbers).2.stateOf other =
      if other ∈ numbers ∧ ledger.stateOf other = some .pending then some (.ofOutcome outcome)
      else ledger.stateOf other := by
  induction numbers generalizing ledger with
  | nil => simp [resolveAll]
  | cons number numbers ih =>
      have step := ledger.stateOf_resolve number outcome other
      simp only [resolveAll, ih, List.mem_cons]
      by_cases pending : ledger.stateOf other = some .pending
      · by_cases same : other = number
        · -- It is the first one, and later outcomes are ignored.
          have settled := Transaction.ofOutcome_ne_pending outcome
          rw [if_pos ⟨same, pending⟩] at step
          subst same
          simp [step, settled, pending]
        · rw [if_neg fun first => same first.1] at step
          simp [step, same, pending]
      · rw [if_neg fun first => pending first.2] at step
        simp [step, pending]

theorem keys_cancelAll : ledger.cancelAll.2.keys = ledger.keys :=
  keys_resolveAll { ledger with waiting := [] } _ _

theorem claimable_cancelAll {other : Nat} (claimable : ledger.Claimable other) :
    ledger.cancelAll.2.Claimable other :=
  claimable_resolveAll { ledger with waiting := [] } _ _ claimable

/-- Cancelling everything concerns the pending transactions in the table. -/
theorem stateOf_cancelAll (other : Nat) :
    ledger.cancelAll.2.stateOf other =
      if other ∈ ledger.table ∧ ledger.stateOf other = some .pending then some .cancelled
      else ledger.stateOf other :=
  stateOf_resolveAll { ledger with waiting := [] } (.error .cancelled) ledger.table other

/-- A timer finds nothing to take out of an empty table. -/
theorem wake_of_empty (empty : ledger.waiting = []) : (ledger.wake timer).1 = none := by
  simp only [wake]
  split
  · rfl
  · split
    · simp [expire, find?, empty]
    · rfl

end Operations

end ZigbeeHost.Ledger
