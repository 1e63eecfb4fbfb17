import ZigbeeHost.Proofs.Transaction.Slots

/-!
# When timers go off, and where timeouts come from

A timer begins asleep and changes its state once: it goes off, or it is stopped.
Nobody but a timer that has gone off gives a transaction up for its deadline, so
behind every timeout there is a timer that has.
-/

namespace ZigbeeHost

namespace Task

/-- The transaction for which the task starts a timer. -/
def starts : Task → Option Nat
  | .start number => some number
  | .register _ => none
  | .arm _ _ => none
  | .write _ => none
  | .expire _ _ _ => none
  | .refuse _ _ => none
  | .resolve _ _ => none

/-- The transaction that the task is to end, and the outcome that it has for
it. -/
def verdict : Task → Option (Nat × Outcome)
  | .expire _ number error => some (number, .error error)
  | .refuse number error => some (number, .error error)
  | .resolve number outcome => some (number, outcome)
  | .register _ => none
  | .start _ => none
  | .arm _ _ => none
  | .write _ => none

end Task

namespace Ledger

/-- The timer that is aborted when a task is carried out; `Race.timers_perform`
says that nothing else happens to timers then. -/
def stops (ledger : Ledger) : Task → Option Nat
  | .arm number timer => ledger.declined number timer
  | .refuse number error => ledger.released number (.error error)
  | .resolve number outcome => ledger.released number outcome
  | .register _ => none
  | .start _ => none
  | .write _ => none
  | .expire _ _ _ => none

/-- A transaction is refused because its key is taken. -/
theorem error_of_register {ledger : Ledger} {number : Nat} {error : Error}
    (refused : ledger.register number = .error error) :
    ∃ key, error = .duplicateTransaction key := by
  simp only [register] at refused
  split at refused
  · cases refused
  · split at refused
    · exact ⟨_, (Except.error.inj refused).symm⟩
    · cases refused

end Ledger

namespace Race

variable {race : Race} {number : Nat}

theorem timers_hold {removal : Option Nat × Ledger} (removes : race.ledger.Removes removal)
    (outcome : Outcome) : (race.hold removal outcome).ledger.timers = race.ledger.timers := by
  rw [← removes.timers]
  obtain ⟨removed, ledger⟩ := removal
  cases removed <;> rfl

/-- Carrying out a task starts a timer or stops the one that is to be stopped. -/
theorem timers_perform (race : Race) {task : Task} (other : task.starts = none) :
    (race.perform task).ledger.timers = (race.ledger.stop (race.ledger.stops task)).timers := by
  cases task with
  | start number => cases other
  | register number =>
      simp only [perform]
      split
      · rfl
      · rename_i ledger registered
        obtain ⟨waiting, rfl⟩ := race.ledger.register_changes number registered
        rfl
  | arm number timer => exact race.ledger.timers_keepTimer number timer
  | write number => rfl
  | expire key number error => exact timers_hold (Ledger.removes_expire _ _ _) _
  | refuse number error => exact race.ledger.timers_resolve_eq number _
  | resolve number outcome => exact race.ledger.timers_resolve_eq number _

theorem ticks_perform (race : Race) (task : Task) :
    race.ledger.Ticks (race.perform task).ledger := by
  cases starts : task.starts with
  | none => exact (race.ledger.ticks_stop _).of_timers (race.timers_perform starts)
  | some number =>
      obtain rfl : task = .start number := by
        cases task with
        | start other => exact congrArg Task.start (Option.some.inj starts)
        | register | arm | write | expire | refuse | resolve => cases starts
      simp only [perform]
      split
      · exact .still rfl
      · exact .started _ rfl

theorem ticks_step (race : Race) (move : Move) : race.ledger.Ticks (race.step move).ledger := by
  cases move with
  | proceed index =>
      simp only [step]
      split
      · exact .still rfl
      · exact ticks_perform { race with tasks := race.tasks.eraseIdx index } _
  | failWrite index cause =>
      simp only [step]
      split
      · split <;> exact .still rfl
      · exact .still rfl
  | answer key payload => exact .still (timers_hold (Ledger.removes_unregister _ _) _)
  | reject key code => exact .still (timers_hold (Ledger.removes_unregister _ _) _)
  | wake timer =>
      simp only [step]
      split
      · exact .still rfl
      · rename_i entry known
        split
        · exact .still rfl
        · split
          · rename_i due
            have asleep : entry.state = .asleep := by
              simp only [Ledger.isDue, Bool.and_eq_true, decide_eq_true_eq] at due
              exact due.1
            exact .ended known asleep .fired rfl
          · exact .still rfl
  | collect number =>
      rcases race.ledger.takeReply_cases number with ⟨_, outcome, -, -, taken⟩ | nothing
      · simp only [step, taken]
        exact .still rfl
      · simp only [step, nothing]
        exact .still rfl
  | begin | cancelAll | wait | leave => exact .still rfl

theorem timerState_run {timer : Nat} {state : TimerState}
    (now : race.ledger.timerState timer = some state) (awake : state ≠ .asleep)
    (moves : List Move) : (race.run moves).ledger.timerState timer = some state := by
  induction moves generalizing race with
  | nil => exact now
  | cons move moves ih => exact ih ((race.ticks_step move).timerState now awake)

theorem mem_wins_iff {outcome : Outcome} :
    outcome ∈ race.winsOf number ↔ (number, outcome) ∈ race.wins := by
  simp only [winsOf, outcomesOf, List.mem_filterMap]
  constructor
  · rintro ⟨⟨owner, other⟩, inside, same⟩
    split at same
    · rename_i equal
      rwa [← Option.some.inj same, ← equal]
    · cases same
  · intro inside
    exact ⟨(number, outcome), inside, if_pos rfl⟩

/-- Somebody is to end the transaction with the outcome, or has done so. -/
def Bears (race : Race) (number : Nat) (outcome : Outcome) : Prop :=
  (∃ task ∈ race.tasks, task.verdict = some (number, outcome)) ∨ (number, outcome) ∈ race.wins

namespace Bears

variable {next : Race} {outcome : Outcome} {task : Task}

/-- One task is added, and nothing is decided. -/
theorem of_cons (bears : next.Bears number outcome) (tasks : next.tasks = task :: race.tasks)
    (wins : next.wins = race.wins) :
    race.Bears number outcome ∨ task.verdict = some (number, outcome) := by
  rcases bears with ⟨other, member, verdict⟩ | won
  · rw [tasks] at member
    rcases List.mem_cons.1 member with rfl | earlier
    · exact .inr verdict
    · exact .inl (.inl ⟨other, earlier, verdict⟩)
  · exact .inl (.inr (wins ▸ won))

/-- The only task that is added has no outcome for anybody. -/
theorem of_silent (bears : next.Bears number outcome) (tasks : next.tasks = task :: race.tasks)
    (wins : next.wins = race.wins) (silent : task.verdict = none) : race.Bears number outcome := by
  rcases bears.of_cons tasks wins with earlier | verdict
  · exact earlier
  · rw [silent] at verdict
    cases verdict

theorem of_eraseIdx {index : Nat}
    (bears : Bears { race with tasks := race.tasks.eraseIdx index } number outcome) :
    race.Bears number outcome := by
  rcases bears with ⟨task, member, verdict⟩ | won
  · exact .inl ⟨task, List.mem_of_mem_eraseIdx member, verdict⟩
  · exact .inr won

theorem of_hold {removal : Option Nat × Ledger} {verdict : Outcome}
    (bears : (race.hold removal verdict).Bears number outcome) :
    race.Bears number outcome ∨ (removal.1 = some number ∧ verdict = outcome) := by
  obtain ⟨removed, ledger⟩ := removal
  cases removed with
  | none => exact .inl bears
  | some other =>
      rcases bears.of_cons rfl rfl with earlier | latest
      · exact .inl earlier
      · obtain ⟨rfl, rfl⟩ := Prod.mk.inj (Option.some.inj latest)
        exact .inr ⟨rfl, rfl⟩

theorem of_settle {other : Nat} {verdict : Outcome}
    (bears : (race.settle other verdict).Bears number outcome) :
    race.Bears number outcome ∨ (other = number ∧ verdict = outcome) := by
  rcases bears with task | won
  · exact .inl (.inl task)
  · simp only [settle] at won
    split at won
    · rcases List.mem_cons.1 won with latest | earlier
      · obtain ⟨rfl, rfl⟩ := Prod.mk.inj latest
        exact .inr ⟨rfl, rfl⟩
      · exact .inl (.inr earlier)
    · exact .inl (.inr won)

end Bears

section Timeouts

variable {key : CommandKey} {limit : Nat}

/-- Carrying out a task makes no timeout but the one that the task is about. -/
theorem bears_of_perform {task : Task}
    (bears : (race.perform task).Bears number (.error (.timeout key limit))) :
    race.Bears number (.error (.timeout key limit)) ∨
      task.verdict = some (number, .error (.timeout key limit)) := by
  cases task with
  | register other =>
      simp only [perform] at bears
      split at bears
      · rename_i error refused
        obtain ⟨taken, rfl⟩ := Ledger.error_of_register refused
        rcases bears.of_cons rfl rfl with earlier | latest
        · exact .inl earlier
        · cases latest
      · exact .inl (bears.of_silent rfl rfl rfl)
  | start other =>
      simp only [perform] at bears
      split at bears
      · exact .inl bears
      · exact .inl (bears.of_silent rfl rfl rfl)
  | arm other timer => exact .inl (bears.of_silent rfl rfl rfl)
  | write other => exact .inl bears
  | expire key other error =>
      rcases bears.of_hold with earlier | ⟨removed, same⟩
      · exact .inl earlier
      · obtain ⟨rfl, -⟩ := Ledger.expire_eq_some
          (Prod.ext removed rfl : race.ledger.expire key other = (some number, _))
        exact .inr (by rw [Task.verdict, same])
  | refuse other error =>
      rcases bears.of_settle with earlier | ⟨rfl, same⟩
      · exact .inl earlier
      · exact .inr (by rw [Task.verdict, same])
  | resolve other outcome =>
      rcases bears.of_settle with earlier | ⟨rfl, rfl⟩
      · exact .inl earlier
      · exact .inr rfl

/-- A move makes no timeout but that of a timer which goes off: the timeout is for
the transaction that the timer watches, and names its key and its limit. -/
theorem bears_of_step {move : Move}
    (bears : (race.step move).Bears number (.error (.timeout key limit))) :
    race.Bears number (.error (.timeout key limit)) ∨
      ∃ timer transaction, (race.step move).ledger.watched[timer]? = some number ∧
        (race.step move).ledger.timerState timer = some .fired ∧
          race.ledger.transactions[number]? = some transaction ∧
            transaction.key = key ∧ transaction.limit = limit := by
  cases move with
  | begin => exact .inl (bears.of_silent rfl rfl rfl)
  | proceed index =>
      simp only [step] at bears
      split at bears
      · exact .inl bears
      · rename_i task found
        rcases bears_of_perform bears with earlier | verdict
        · exact .inl earlier.of_eraseIdx
        · exact .inl (.inl ⟨task, List.mem_of_getElem? found, verdict⟩)
  | failWrite index cause =>
      simp only [step] at bears
      split at bears
      · split at bears
        · exact .inl bears
        · rename_i transaction known
          have rest : Bears { race with tasks := race.tasks.eraseIdx index } number
              (.error (.timeout key limit)) ∨ _ := bears.of_cons rfl rfl
          rcases rest with earlier | latest
          · exact .inl earlier.of_eraseIdx
          · cases latest
      · exact .inl bears
  | answer other payload =>
      rcases bears.of_hold with earlier | ⟨-, same⟩
      · exact .inl earlier
      · cases same
  | reject other code =>
      rcases bears.of_hold with earlier | ⟨-, same⟩
      · exact .inl earlier
      · cases same
  | cancelAll =>
      rcases bears with ⟨task, member, verdict⟩ | won
      · rcases List.mem_append.1 member with latest | earlier
        · obtain ⟨other, -, rfl⟩ := List.mem_map.1 latest
          cases verdict
        · exact .inl (.inl ⟨task, earlier, verdict⟩)
      · exact .inl (.inr won)
  | wake timer =>
      cases known : race.ledger.timers[timer]? with
      | none =>
          simp only [step, known] at bears
          exact .inl bears
      | some entry =>
          cases watched : race.ledger.transactions[entry.transaction]? with
          | none =>
              simp only [step, known, watched] at bears
              exact .inl bears
          | some transaction =>
              by_cases due : race.ledger.isDue entry = true
              · simp only [step, known, watched, if_pos due] at bears ⊢
                rcases bears.of_cons rfl rfl with earlier | verdict
                · exact .inl earlier
                · obtain ⟨rfl, same⟩ := Prod.mk.inj (Option.some.inj verdict)
                  cases same
                  have inside := (List.getElem?_eq_some_iff.1 known).1
                  refine .inr ⟨timer, transaction, ?_, ?_, watched, rfl, rfl⟩
                  · exact Ledger.watched_getElem?_iff.2 ⟨_, List.getElem?_set_self inside, rfl⟩
                  · simp [Ledger.timerState, inside]
              · simp only [step, known, watched, if_neg due] at bears
                exact .inl bears
  | wait => exact .inl bears
  | collect other =>
      simp only [step] at bears
      split at bears <;> exact .inl bears
  | leave => exact .inl bears

end Timeouts

/-- Behind every timeout there is a timer of that transaction that has gone off. -/
def Backed (race : Race) : Prop :=
  ∀ number key limit, race.Bears number (.error (.timeout key limit)) →
    ∃ timer, race.ledger.watched[timer]? = some number ∧
      race.ledger.timerState timer = some .fired

theorem backed_start : Backed {} := by
  rintro number key limit (⟨task, member, -⟩ | won)
  · cases member
  · cases won

theorem Backed.step (backed : race.Backed) (move : Move) : (race.step move).Backed := by
  intro number key limit bears
  have ticks := race.ticks_step move
  rcases bears_of_step bears with earlier | ⟨timer, transaction, watches, fired, -⟩
  · obtain ⟨timer, watches, fired⟩ := backed number key limit earlier
    exact ⟨timer, ticks.watched watches, ticks.timerState fired (by decide)⟩
  · exact ⟨timer, watches, fired⟩

theorem Backed.run (backed : race.Backed) (moves : List Move) : (race.run moves).Backed := by
  induction moves generalizing race with
  | nil => exact backed
  | cons move moves ih => exact ih (backed.step move)

end Race

end ZigbeeHost
