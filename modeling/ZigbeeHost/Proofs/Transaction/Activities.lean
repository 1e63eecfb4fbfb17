import ZigbeeHost.Proofs.Transaction.ExactlyOnce
import ZigbeeHost.Proofs.Transaction.Timers

/-!
# Activities as runs of a race

Waking a timer, timing out, cancelling everything, refusing a transaction and
arming it are made of several steps of the ledger.  Each of them is a run of the
race in which those steps follow one another without interruption, whatever other
tasks there are.
-/

namespace ZigbeeHost

/-- The task that is left to the timer that has taken a transaction out of the
table. -/
def Ledger.GivesUp (ledger : Ledger) (number : Nat) (task : Task) : Prop :=
  ∃ transaction, ledger.transactions[number]? = some transaction ∧
    task = .resolve number (.error transaction.timeoutError)

/-- What the timer has to do does not depend on what else happens. -/
theorem Ledger.Grows.givesUp {ledger next : Ledger} (grows : ledger.Grows next) {number : Nat}
    {task : Task} (gives : ledger.GivesUp number task) : next.GivesUp number task := by
  obtain ⟨transaction, known, rfl⟩ := gives
  obtain ⟨later, existing, terms⟩ :=
    exists_of_look (grows.terms number _ (look_of_known known _))
  simp only [Transaction.terms, Prod.mk.injEq] at terms
  refine ⟨later, existing, ?_⟩
  simp only [Transaction.timeoutError, terms]

namespace Race

/-- The race can go on until it has the given ledger and the given tasks, in some
order. -/
def Reaches (race : Race) (ledger : Ledger) (tasks : List Task) : Prop :=
  ∃ moves, (race.run moves).ledger = ledger ∧ (race.run moves).tasks.Perm tasks

variable {race : Race} {ledger : Ledger} {task : Task} {tasks rest : List Task} {number : Nat}

theorem Reaches.of_perm (same : race.tasks.Perm tasks) : race.Reaches race.ledger tasks :=
  ⟨[], rfl, same⟩

theorem Reaches.refl (race : Race) : race.Reaches race.ledger race.tasks :=
  .of_perm (.refl _)

theorem Reaches.after (move : Move) (later : (race.step move).Reaches ledger tasks) :
    race.Reaches ledger tasks := by
  obtain ⟨moves, ledgerEq, tasksPerm⟩ := later
  exact ⟨move :: moves, ledgerEq, tasksPerm⟩

theorem Reaches.trans {moves : List Move} (later : (race.run moves).Reaches ledger tasks) :
    race.Reaches ledger tasks := by
  obtain ⟨more, ledgerEq, tasksPerm⟩ := later
  refine ⟨moves ++ more, ?_, ?_⟩
  · rw [run, List.foldl_append]
    exact ledgerEq
  · rw [run, List.foldl_append]
    exact tasksPerm

theorem Reaches.perm (reaches : race.Reaches ledger tasks) (same : tasks.Perm rest) :
    race.Reaches ledger rest := by
  obtain ⟨moves, ledgerEq, tasksPerm⟩ := reaches
  exact ⟨moves, ledgerEq, tasksPerm.trans same⟩

/-- A task can be found wherever it stands among the others. -/
theorem exists_index (among : race.tasks.Perm (task :: rest)) :
    ∃ index, race.tasks[index]? = some task ∧ (race.tasks.eraseIdx index).Perm rest := by
  obtain ⟨index, known⟩ := List.mem_iff_getElem?.1 (among.mem_iff.2 List.mem_cons_self)
  exact ⟨index, known, ((perm_eraseIdx known).symm.trans among).cons_inv⟩

/-- A task is carried out. -/
theorem reaches_perform (among : race.tasks.Perm (task :: rest))
    (later : ∀ left, left.Perm rest →
      ({ race with tasks := left }.perform task).Reaches ledger tasks) :
    race.Reaches ledger tasks := by
  obtain ⟨index, known, others⟩ := exists_index among
  apply Reaches.after (.proceed index)
  simp only [step, known]
  exact later (race.tasks.eraseIdx index) others

theorem reaches_write (among : race.tasks.Perm (.write number :: rest)) :
    race.Reaches race.ledger rest :=
  reaches_perform among fun _ others => .of_perm others

theorem reaches_settle (race : Race) (number : Nat) (outcome : Outcome)
    (same : race.tasks.Perm rest) :
    (race.settle number outcome).Reaches (race.ledger.resolve number outcome).2 rest :=
  ⟨[], rfl, same⟩

theorem reaches_resolve {outcome : Outcome}
    (among : race.tasks.Perm (.resolve number outcome :: rest)) :
    race.Reaches (race.ledger.resolve number outcome).2 rest :=
  reaches_perform among fun left others =>
    reaches_settle { race with tasks := left } number outcome others

theorem reaches_resolveAll {outcome : Outcome} {numbers : List Nat}
    (among : race.tasks.Perm (numbers.map (.resolve · outcome) ++ rest)) :
    race.Reaches (race.ledger.resolveAll outcome numbers).2 rest := by
  induction numbers generalizing race with
  | nil => exact .of_perm among
  | cons number numbers ih => exact reaches_perform among fun _ others => ih others

theorem reaches_cancelAll (race : Race) : race.Reaches race.ledger.cancelAll.2 race.tasks := by
  apply Reaches.after .cancelAll
  exact reaches_resolveAll (.refl _)

/-- Whoever removes a transaction goes on to resolve it. -/
theorem reaches_hold {removal : Option Nat × Ledger} {outcome : Outcome}
    (removed : removal = (some number, ledger)) :
    (race.hold removal outcome).Reaches (ledger.resolve number outcome).2 race.tasks := by
  subst removed
  exact reaches_resolve (.refl _)

theorem reaches_hold_of_gone {removal : Option Nat × Ledger} {outcome : Outcome}
    (removed : removal = (none, ledger)) :
    (race.hold removal outcome).Reaches ledger race.tasks := by
  subst removed
  exact .refl { race with ledger }

theorem reaches_expire {key : CommandKey} {error : Error} {expired : Nat}
    (among : race.tasks.Perm (.expire key number error :: rest))
    (removed : race.ledger.expire key number = (some expired, ledger)) :
    race.Reaches (ledger.resolve expired (.error error)).2 rest := by
  refine reaches_perform among fun left others => ?_
  have resolved : ({ race with tasks := left }.hold (race.ledger.expire key number)
      (.error error)).Reaches (ledger.resolve expired (.error error)).2 left := reaches_hold removed
  exact resolved.perm others

/-- A timer that goes off takes its own transaction out of the table, and then it
has to give it up. -/
theorem reaches_wake (watched : ∀ timer ∈ race.ledger.timers, race.ledger.Watches timer)
    (timer : Nat) :
    ∃ due, List.Forall₂ race.ledger.GivesUp (race.ledger.wake timer).1.toList due ∧
      race.Reaches (race.ledger.wake timer).2 (due ++ race.tasks) := by
  cases known : race.ledger.timers[timer]? with
  | none =>
      simp only [Ledger.wake, known]
      exact ⟨[], .nil, .refl race⟩
  | some entry =>
      obtain ⟨limit, terms⟩ := watched entry (List.mem_of_getElem? known)
      obtain ⟨transaction, existing, -⟩ := Ledger.exists_of_look terms
      by_cases due : race.ledger.isDue entry = true
      · -- The transaction may have been removed since; then nothing is left to do.
        simp only [Ledger.wake, known, if_pos due]
        generalize removal :
          Ledger.expire { race.ledger with
            timers := race.ledger.timers.set timer { entry with state := .fired } }
              entry.key entry.transaction = removed
        have woken {tasks : List Task} (reaches :
            (race.hold removed (.error transaction.timeoutError)).Reaches removed.2 tasks) :
            race.Reaches removed.2 tasks := by
          apply Reaches.after (.wake timer)
          simp only [step, known, existing, if_pos due]
          apply Reaches.after (.proceed 0)
          simp only [step, List.getElem?_cons_zero, List.eraseIdx_cons_zero, perform, removal]
          exact reaches
        obtain ⟨expired, ledger⟩ := removed
        cases expired with
        | none => exact ⟨[], .nil, woken (reaches_hold_of_gone rfl)⟩
        | some number =>
            obtain ⟨rfl, -⟩ := Ledger.expire_eq_some removal
            exact ⟨[.resolve entry.transaction (.error transaction.timeoutError)],
              .cons ⟨transaction, existing, rfl⟩ .nil, woken (.of_perm (.refl _))⟩
      · simp only [Ledger.wake, known, if_neg due]
        exact ⟨[], .nil, .refl race⟩

/-- The timer gives the transaction up. -/
theorem reaches_timeOut (gives : race.ledger.GivesUp number task)
    (among : race.tasks.Perm (task :: rest)) :
    race.Reaches (race.ledger.timeOut number) rest := by
  obtain ⟨transaction, known, rfl⟩ := gives
  simp only [Ledger.timeOut, known]
  exact reaches_resolve among

/-- A transaction that cannot be registered fails. -/
theorem reaches_refuse {error : Error} (among : race.tasks.Perm (.register number :: rest))
    (refused : race.ledger.register number = .error error) :
    race.Reaches (race.ledger.resolve number (.error error)).2 rest := by
  refine reaches_perform among fun left others => ?_
  simp only [perform, refused]
  exact reaches_perform (others.cons _) fun left others =>
    reaches_settle { race with tasks := left } number (.error error) others

/-- A transaction that has been registered gets its timer, and then its frame is
to be written. -/
theorem reaches_arm (among : race.tasks.Perm (.register number :: rest))
    (registered : race.ledger.register number = .ok ledger) {transaction : Transaction}
    (known : race.ledger.transactions[number]? = some transaction) :
    race.Reaches (ledger.arm number) (.write number :: rest) := by
  obtain ⟨waiting, rfl⟩ := race.ledger.register_changes number registered
  refine reaches_perform among fun left others => ?_
  simp only [perform, registered]
  refine reaches_perform (others.cons _) fun left others => ?_
  simp only [perform, known]
  refine reaches_perform (others.cons _) fun left others => ?_
  rw [Ledger.arm, known]
  exact .of_perm (others.cons _)

end Race

end ZigbeeHost
