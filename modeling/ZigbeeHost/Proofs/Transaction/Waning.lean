import ZigbeeHost.Proofs.Transaction.Timers

/-!
# Steps that neither register nor answer

Most operations of the ledger put nothing into the table and hand no response to
a caller: errors, timers and cancellation only take away.  What waits after such
steps has been waiting before, and whoever has a response then has had it.
-/

namespace ZigbeeHost.Ledger

/-- Nothing is added to the table, and no caller gets a response. -/
structure Wanes (ledger next : Ledger) : Prop where
  waiting : next.waiting.Sublist ledger.waiting
  answers : ∀ number payload, next.replyOf number = some (.delivered (.ok payload)) →
    ledger.replyOf number = some (.delivered (.ok payload))

namespace Wanes

variable {ledger next : Ledger}

theorem of_transactions (waiting : next.waiting.Sublist ledger.waiting)
    (transactions : next.transactions = ledger.transactions) : ledger.Wanes next where
  waiting := waiting
  answers number _ delivered :=
    (look_eq_of_transactions transactions _ number).symm.trans delivered

theorem refl (ledger : Ledger) : ledger.Wanes ledger :=
  of_transactions (.refl _) rfl

theorem trans {middle : Ledger} (first : ledger.Wanes middle) (second : middle.Wanes next) :
    ledger.Wanes next where
  waiting := second.waiting.trans first.waiting
  answers number payload delivered :=
    first.answers number payload (second.answers number payload delivered)

/-- One transaction changes, and its caller gets no response by that. -/
theorem of_set {number : Nat} {before after : Transaction}
    (waiting : next.waiting = ledger.waiting)
    (known : ledger.transactions[number]? = some before)
    (changed : next.transactions = ledger.transactions.set number after)
    (unanswered : ∀ payload, after.reply = .delivered (.ok payload) →
      before.reply = .delivered (.ok payload)) : ledger.Wanes next where
  waiting := by rw [waiting]
  answers other payload delivered := by
    rw [replyOf_set known changed] at delivered
    split at delivered
    · rename_i same
      rw [same, replyOf_of_known known, unanswered payload (Option.some.inj delivered)]
    · exact delivered

/-- One transaction is added, and its caller gets no response by that. -/
theorem of_concat {latest : Transaction} (waiting : next.waiting = ledger.waiting)
    (added : next.transactions = ledger.transactions ++ [latest])
    (unanswered : ∀ payload, latest.reply ≠ .delivered (.ok payload)) :
    ledger.Wanes next where
  waiting := by rw [waiting]
  answers number payload delivered := by
    obtain ⟨transaction, known, reply⟩ := exists_of_look delivered
    rw [added, List.getElem?_append] at known
    split at known
    · rw [replyOf_of_known known, reply]
    · obtain rfl := List.mem_singleton.1 (List.mem_of_getElem? known)
      exact absurd reply (unanswered payload)

end Wanes

section Operations

variable (ledger : Ledger) (number : Nat)

theorem waiting_resolve (outcome : Outcome) :
    (ledger.resolve number outcome).2.waiting = ledger.waiting := by
  by_cases pending : ledger.stateOf number = some .pending
  · obtain ⟨transaction, known, state⟩ := exists_of_look pending
    exact (ledger.resolve_of_pending number known state outcome).2.1
  · rw [ledger.resolve_of_settled number pending]

/-- An error is not a response. -/
theorem wanes_resolve (error : Error) : ledger.Wanes (ledger.resolve number (.error error)).2 := by
  by_cases pending : ledger.stateOf number = some .pending
  · obtain ⟨transaction, known, state⟩ := exists_of_look pending
    obtain ⟨-, waiting, changed⟩ := ledger.resolve_of_pending number known state (.error error)
    refine .of_set waiting known changed ?_
    intro payload delivered
    cases reply : transaction.reply <;> simp_all [Transaction.settle, Reply.deliver]
  · rw [ledger.resolve_of_settled number pending]
    exact .refl ledger

theorem wanes_resolveAll (error : Error) (numbers : List Nat) :
    ledger.Wanes (ledger.resolveAll (.error error) numbers).2 := by
  induction numbers generalizing ledger with
  | nil => exact .refl ledger
  | cons number numbers ih =>
      exact (ledger.wanes_resolve number error).trans (ih (ledger.resolve number (.error error)).2)

theorem wanes_cancelAll : ledger.Wanes ledger.cancelAll.2 := by
  have emptied : ledger.Wanes { ledger with waiting := [] } :=
    .of_transactions (List.nil_sublist _) rfl
  exact emptied.trans (wanes_resolveAll _ .cancelled _)

theorem waiting_cancelAll : ledger.cancelAll.2.waiting = [] :=
  List.sublist_nil.1 (wanes_resolveAll { ledger with waiting := [] } .cancelled _).waiting

theorem wanes_of_removes {removal : Option Nat × Ledger} (removes : ledger.Removes removal) :
    ledger.Wanes removal.2 := by
  cases removes with
  | found _ => exact .of_transactions List.filter_sublist rfl
  | gone => exact .refl ledger

/-- Whoever has been removed gets an error. -/
theorem wanes_resolve_of_removes {removed : Nat} {next : Ledger}
    (removes : ledger.Removes (some removed, next)) (error : Error) :
    ledger.Wanes (next.resolve removed (.error error)).2 :=
  (ledger.wanes_of_removes removes).trans (next.wanes_resolve removed error)

theorem wanes_timeOut : ledger.Wanes (ledger.timeOut number) := by
  simp only [timeOut]
  split
  · exact .refl ledger
  · exact ledger.wanes_resolve number _

theorem wanes_wake (timer : Nat) : ledger.Wanes (ledger.wake timer).2 := by
  simp only [wake]
  split
  · exact .refl ledger
  · rename_i entry known
    split
    · have fired : ledger.Wanes
          { ledger with timers := ledger.timers.set timer { entry with state := .fired } } :=
        .of_transactions (.refl _) rfl
      exact fired.trans (wanes_of_removes _ (removes_expire _ _ _))
    · exact .refl ledger

theorem wanes_takeReply : ledger.Wanes (ledger.takeReply number).2 := by
  rcases ledger.takeReply_cases number with ⟨transaction, outcome, known, -, taken⟩ | nothing
  · rw [taken]
    exact .of_set rfl known rfl fun payload delivered => by cases delivered
  · rw [nothing]
    exact .refl ledger

theorem wanes_dropReply : ledger.Wanes (ledger.dropReply number) := by
  cases known : ledger.transactions[number]? with
  | none =>
      rw [ledger.dropReply_of_unknown number known]
      exact .refl ledger
  | some transaction =>
      rw [ledger.dropReply_of_known number known]
      exact .of_set rfl known rfl fun payload delivered => by cases delivered

end Operations

end ZigbeeHost.Ledger
