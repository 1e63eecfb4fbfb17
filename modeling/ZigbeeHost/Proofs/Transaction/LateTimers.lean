import ZigbeeHost.Proofs.Transaction.ExactlyOnce
import ZigbeeHost.Proofs.Transaction.Firing

/-!
# Late timers and failed writes

One transaction after the other may use a key.  The timer of an earlier one may
go off, or its frame may turn out not to have been written, when a later one
waits under the same key.  Whatever is done to end the earlier one carries its
number, and the number keeps it from the later one: the later one stays as it
is, in the table or wherever it was.  If a transaction does time out, then its
outcome is the timeout with its own key and its own limit.
-/

namespace ZigbeeHost

namespace Ledger

variable {ledger : Ledger}

/-- Giving a transaction up concerns its own entry only: the entry is found if
it is in the table, and it is the only one that leaves the table. -/
theorem expire_spec (wellKeyed : ledger.WellKeyed) (key : CommandKey) (number : Nat) :
    (ledger.expire key number).1 =
        (if (key, number) ∈ ledger.waiting then some number else none) ∧
      ∀ entry, entry ∈ (ledger.expire key number).2.waiting ↔
        entry ∈ ledger.waiting ∧ entry ≠ (key, number) := by
  by_cases waiting : (key, number) ∈ ledger.waiting
  · have found := find?_of_mem_waiting wellKeyed waiting
    refine ⟨by simp only [expire, if_pos found, if_pos waiting], fun entry => ?_⟩
    simp only [expire, if_pos found, remove, List.mem_filter, decide_eq_true_eq]
    refine and_congr_right fun inside => not_congr ⟨?_, ?_⟩
    · rintro rfl
      have same := (find?_of_mem_waiting wellKeyed inside).symm.trans found
      rw [← Option.some.inj same]
    · rintro rfl
      rfl
  · have other : ledger.find? key ≠ some number :=
      fun found => waiting (mem_waiting_of_find? found)
    refine ⟨by simp only [expire, if_neg other, if_neg waiting], fun entry => ?_⟩
    simp only [expire, if_neg other]
    refine ⟨fun inside => ⟨inside, ?_⟩, And.left⟩
    rintro rfl
    exact waiting inside

/-- If the outcome of a transaction is a timeout, then it names the key and the
limit of that transaction. -/
def Names (ledger : Ledger) (number : Nat) (outcome : Outcome) : Prop :=
  ∀ key limit, outcome = .error (.timeout key limit) →
    ∃ deadline, ledger.look Transaction.terms number = some (key, limit, deadline)

theorem Grows.names {next : Ledger} {number : Nat} {outcome : Outcome}
    (grows : ledger.Grows next) (names : ledger.Names number outcome) :
    next.Names number outcome := by
  intro key limit timeout
  obtain ⟨deadline, known⟩ := names key limit timeout
  exact ⟨deadline, grows.terms _ _ known⟩

end Ledger

namespace Task

/-- The task is to end the transaction. -/
def Ends (number : Nat) (task : Task) : Prop :=
  task.verdict.map Prod.fst = some number

instance (number : Nat) : DecidablePred (Ends number) :=
  fun task => inferInstanceAs (Decidable (task.verdict.map Prod.fst = some number))

end Task

namespace Race

/-- The transaction that a move is to end: its timer goes off, its frame could
not be written, or one of the tasks that end it is carried out. -/
def ending (race : Race) : Move → Option Nat
  | .wake timer => race.ledger.timers[timer]?.map Timer.transaction
  | .failWrite index _ =>
      match race.tasks[index]? with
      | some (.write number) => some number
      | _ => none
  | .proceed index => do
      let task ← race.tasks[index]?
      let verdict ← task.verdict
      return verdict.1
  | .begin _ _ => none
  | .answer _ _ => none
  | .reject _ _ => none
  | .cancelAll => none
  | .wait _ => none
  | .collect _ => none
  | .leave _ => none

/-- All moves are made to end transactions, and never the given one. -/
def EndsOthers (number : Nat) (race : Race) : List Move → Prop
  | [] => True
  | move :: later =>
      (∃ other, race.ending move = some other ∧ other ≠ number) ∧
        EndsOthers number (race.step move) later

/-- A transaction is as it was: its state, its key, its limit and its reply, its
place in the table, the tasks that are to end it, and what its caller knows. -/
structure Spares (number : Nat) (race next : Race) : Prop where
  transaction : next.ledger.transactions[number]? = race.ledger.transactions[number]?
  waiting : ∀ key, (key, number) ∈ next.ledger.waiting ↔ (key, number) ∈ race.ledger.waiting
  tasks : (next.tasks.filter (Task.Ends number)).Perm (race.tasks.filter (Task.Ends number))
  wins : next.winsOf number = race.winsOf number
  received : next.receivedOf number = race.receivedOf number

namespace Spares

variable {race next : Race} {number other : Nat} {task : Task}

theorem refl (number : Nat) (race : Race) : Spares number race race :=
  ⟨rfl, fun _ => .rfl, .refl _, rfl, rfl⟩

theorem trans {middle : Race} (first : Spares number race middle)
    (second : Spares number middle next) : Spares number race next where
  transaction := second.transaction.trans first.transaction
  waiting key := (second.waiting key).trans (first.waiting key)
  tasks := second.tasks.trans first.tasks
  wins := second.wins.trans first.wins
  received := second.received.trans first.received

theorem not_ends {outcome : Outcome} (verdict : task.verdict = some (other, outcome))
    (different : other ≠ number) : ¬ task.Ends number := by
  simp [Task.Ends, verdict, different]

/-- A task for another transaction is added or dropped. -/
theorem cons (foreign : ¬ task.Ends number) :
    Spares number race { race with tasks := task :: race.tasks } :=
  ⟨rfl, fun _ => .rfl, by simp [foreign], rfl, rfl⟩

theorem eraseIdx {index : Nat} (found : race.tasks[index]? = some task)
    (foreign : ¬ task.Ends number) :
    Spares number race { race with tasks := race.tasks.eraseIdx index } := by
  refine ⟨rfl, fun _ => .rfl, ?_, rfl, rfl⟩
  have same := (perm_eraseIdx found).filter (Task.Ends number)
  rw [List.filter_cons_of_neg (by simpa using foreign)] at same
  exact same.symm

/-- Another transaction is given up. -/
theorem expire (wellKeyed : race.ledger.WellKeyed) (key : CommandKey) (error : Error)
    (different : other ≠ number) :
    Spares number race (race.hold (race.ledger.expire key other) (.error error)) := by
  obtain ⟨-, entries⟩ := Ledger.expire_spec wellKeyed key other
  have removes := Ledger.removes_expire race.ledger key other
  generalize removed : race.ledger.expire key other = removal at entries removes ⊢
  have kept (own : CommandKey) :
      (own, number) ∈ removal.2.waiting ↔ (own, number) ∈ race.ledger.waiting := by
    rw [entries]
    refine and_iff_left fun same => ?_
    exact different (Prod.mk.inj same).2.symm
  obtain ⟨expired, ledger⟩ := removal
  have transactions : ledger.transactions = race.ledger.transactions := removes.transactions
  cases expired with
  | none => exact ⟨by rw [hold, transactions], kept, .refl _, rfl, rfl⟩
  | some found =>
      obtain ⟨rfl, -⟩ := Ledger.expire_eq_some removed
      have foreign : ¬ (Task.resolve other (.error error)).Ends number :=
        not_ends rfl different
      exact ⟨by rw [hold, transactions], kept, by simp [hold, foreign], rfl, rfl⟩

/-- Another transaction gets its outcome. -/
theorem settle (race : Race) (outcome : Outcome) (different : other ≠ number) :
    Spares number race (race.settle other outcome) := by
  by_cases pending : race.ledger.stateOf other = some .pending
  · obtain ⟨transaction, known, state⟩ := Ledger.exists_of_look pending
    obtain ⟨first, waiting, changed⟩ :=
      race.ledger.resolve_of_pending other known state outcome
    refine ⟨?_, ?_, .refl _, ?_, rfl⟩
    · simp only [Race.settle, changed, List.getElem?_set_ne different]
    · simp only [Race.settle, waiting, implies_true]
    · simp only [Race.settle, winsOf, first, if_true, outcomesOf_cons, if_neg different]
  · have ignored := race.ledger.resolve_of_settled other pending outcome
    simp only [Race.settle, ignored]
    exact refl number race

/-- Carrying out a task that ends another transaction. -/
theorem perform (wellKeyed : race.ledger.WellKeyed) {outcome : Outcome}
    (verdict : task.verdict = some (other, outcome)) (different : other ≠ number) :
    Spares number race (race.perform task) := by
  cases task with
  | expire key owner error =>
      obtain ⟨rfl, rfl⟩ := Prod.mk.inj (Option.some.inj verdict)
      exact expire wellKeyed key error different
  | refuse owner error =>
      obtain ⟨rfl, rfl⟩ := Prod.mk.inj (Option.some.inj verdict)
      exact settle race (.error error) different
  | resolve owner outcome =>
      obtain ⟨rfl, rfl⟩ := Prod.mk.inj (Option.some.inj verdict)
      exact settle race _ different
  | register | start | arm | write => cases verdict

/-- A move that is to end one transaction spares every other one. -/
theorem step (wellKeyed : race.ledger.WellKeyed) {move : Move}
    (ending : race.ending move = some other) (different : other ≠ number) :
    Spares number race (race.step move) := by
  cases move with
  | wake timer =>
      simp only [Race.ending, Option.map_eq_some_iff] at ending
      obtain ⟨entry, known, rfl⟩ := ending
      simp only [Race.step, known]
      split
      · exact refl number race
      · split
        · have awake : Spares number race
              { race with
                ledger :=
                  { race.ledger with
                    timers := race.ledger.timers.set timer { entry with state := .fired } } } :=
            ⟨rfl, fun _ => .rfl, .refl _, rfl, rfl⟩
          exact awake.trans (cons (not_ends rfl different))
        · exact refl number race
  | failWrite index cause =>
      simp only [Race.ending] at ending
      split at ending
      · rename_i owner found
        obtain rfl := Option.some.inj ending
        simp only [Race.step, found]
        split
        · exact refl number race
        · have written : ¬ (Task.write owner).Ends number := by simp [Task.Ends, Task.verdict]
          exact (eraseIdx found written).trans (cons (not_ends rfl different))
      · cases ending
  | proceed index =>
      simp only [Race.ending, bind, pure, Option.bind_eq_some_iff] at ending
      obtain ⟨task, found, ⟨owner, outcome⟩, verdict, same⟩ := ending
      obtain rfl : owner = other := Option.some.inj same
      simp only [Race.step, found]
      have rest := eraseIdx found (not_ends verdict different)
      exact rest.trans (perform wellKeyed verdict different)
  | begin | answer | reject | cancelAll | wait | collect | leave => cases ending

/-- So do any number of such moves. -/
theorem run (sound : race.Sound) {moves : List Move} (others : race.EndsOthers number moves) :
    Spares number race (race.run moves) := by
  induction moves generalizing race with
  | nil => exact refl number race
  | cons move moves ih =>
      obtain ⟨⟨other, ending, different⟩, others⟩ := others
      exact (step sound.wellKeyed ending different).trans (ih (sound.step move) others)

end Spares

/-- Every timeout that is or will be the outcome of a transaction names its key
and its limit. -/
structure Truthful (race : Race) : Prop where
  tasks : ∀ task ∈ race.tasks, ∀ number outcome, task.verdict = some (number, outcome) →
    race.ledger.Names number outcome
  wins : ∀ entry ∈ race.wins, race.ledger.Names entry.1 entry.2

namespace Truthful

variable {race : Race} {number : Nat} {outcome : Outcome}

theorem start : Truthful {} where
  tasks _ member := by cases member
  wins _ member := by cases member

theorem names (truthful : race.Truthful) (bears : race.Bears number outcome) :
    race.ledger.Names number outcome := by
  rcases bears with ⟨task, member, verdict⟩ | won
  · exact truthful.tasks task member number outcome verdict
  · exact truthful.wins (number, outcome) won

theorem step (truthful : race.Truthful) (move : Move) : (race.step move).Truthful := by
  have grows := race.grows_step move
  have names {number : Nat} {outcome : Outcome} (bears : (race.step move).Bears number outcome) :
      (race.step move).ledger.Names number outcome := by
    rintro key limit rfl
    rcases bears_of_step bears with earlier | ⟨timer, transaction, -, -, known, rfl, rfl⟩
    · exact grows.names (truthful.names earlier) key limit rfl
    · exact ⟨transaction.deadline, grows.terms _ _ (Ledger.look_of_known known _)⟩
  constructor
  · intro task member number outcome verdict
    exact names (.inl ⟨task, member, verdict⟩)
  · intro entry member
    exact names (.inr member)

theorem run (truthful : race.Truthful) (moves : List Move) : (race.run moves).Truthful := by
  induction moves generalizing race with
  | nil => exact truthful
  | cons move moves ih => exact ih (truthful.step move)

/-- The first outcome of a transaction that has timed out is the timeout with its
own key and limit. -/
theorem winsOf_of_timedOut (truthful : race.Truthful) (sound : race.Sound)
    (timedOut : race.ledger.stateOf number = some .timedOut) :
    ∃ transaction, race.ledger.transactions[number]? = some transaction ∧
      race.winsOf number = [.error (.timeout transaction.key transaction.limit)] := by
  have life := sound.lives number
  rcases life.state_cases (by simp [timedOut]) with ⟨-, pending⟩ | ⟨outcome, won, settled⟩
  · simp [timedOut] at pending
  · rw [timedOut, Option.some.injEq] at settled
    obtain ⟨key, limit, rfl⟩ : ∃ key limit, outcome = .error (.timeout key limit) := by
      unfold TransactionState.ofOutcome at settled
      split at settled <;> first | exact ⟨_, _, rfl⟩ | cases settled
    have member : (number, .error (.timeout key limit)) ∈ race.wins :=
      mem_wins_iff.1 (won ▸ List.mem_cons_self)
    obtain ⟨deadline, terms⟩ := truthful.wins _ member key limit rfl
    obtain ⟨transaction, known, same⟩ := Ledger.exists_of_look terms
    obtain ⟨rfl, rfl, -⟩ : transaction.key = key ∧ transaction.limit = limit ∧ _ := by
      simpa [Transaction.terms] using same
    exact ⟨transaction, known, won⟩

end Truthful

theorem run_append (race : Race) (first later : List Move) :
    race.run (first ++ later) = (race.run first).run later :=
  List.foldl_append

/-- A transaction keeps the key and the limit with which it has begun. -/
theorem terms_of_begun (before : List Move) (key : CommandKey) (limit : Nat) (after : List Move) :
    ∃ deadline, (run {} (before ++ .begin key limit :: after)).ledger.look Transaction.terms
      (run {} before).ledger.transactions.length = some (key, limit, deadline) := by
  have begun := (run {} before).ledger.look_create
    (run {} before).ledger.transactions.length Transaction.terms key limit
  rw [if_pos rfl] at begun
  rw [run_append]
  exact ⟨_, (grows_run ((run {} before).step (.begin key limit)) after).terms _ _ begun⟩

/-- In every run, however often a key is used again and however late timers go
off and writes fail: giving a transaction up removes its own entry from the
table and no other; what is done to end some transactions spares all others;
and a transaction that times out has one outcome, the timeout with the key and
the limit with which it has begun, which its caller receives unless it has gone
away. -/
theorem timers_end_their_own (moves : List Move) :
    (∀ key number,
      ((run {} moves).ledger.expire key number).1 =
          (if (key, number) ∈ (run {} moves).ledger.waiting then some number else none) ∧
        ∀ entry, entry ∈ ((run {} moves).ledger.expire key number).2.waiting ↔
          entry ∈ (run {} moves).ledger.waiting ∧ entry ≠ (key, number)) ∧
    (∀ number late, EndsOthers number (run {} moves) late →
      Spares number (run {} moves) (run {} (moves ++ late))) ∧
    ∀ key limit after,
      let number := (run {} moves).ledger.transactions.length
      let race := run {} (moves ++ .begin key limit :: after)
      race.ledger.stateOf number = some .timedOut →
        race.winsOf number = [.error (.timeout key limit)] ∧
          (race.receivedOf number = [] ∨
            race.receivedOf number = [.error (.timeout key limit)]) ∧
          (race.ledger.replyOf number = some (.delivered (.error (.timeout key limit))) ∨
            race.receivedOf number = [.error (.timeout key limit)] ∨
              race.ledger.replyOf number = some .dropped) := by
  have sound := sound_start.run moves
  refine ⟨Ledger.expire_spec sound.wellKeyed, fun number late others => ?_, ?_⟩
  · rw [run_append]
    exact .run sound others
  · intro key limit after number race timedOut
    have soundLater : race.Sound := sound_start.run _
    have truthful : race.Truthful := Truthful.start.run _
    obtain ⟨transaction, known, won⟩ := truthful.winsOf_of_timedOut soundLater timedOut
    obtain ⟨deadline, terms⟩ := terms_of_begun moves key limit after
    obtain ⟨rfl, rfl, -⟩ : transaction.key = key ∧ transaction.limit = limit ∧ _ := by
      have same := (Ledger.look_of_known known Transaction.terms).symm.trans terms
      simpa [Transaction.terms] using same
    have life := soundLater.lives number
    rw [won] at life
    exact ⟨won, life.received_cases, life.wins_read _ List.mem_cons_self⟩

/-- The timer of a transaction goes off just before its response arrives.  The key
is used again, and only then the timer looks for its transaction, and the
failure of its write becomes known.  The second transaction waits on, until its
own timer ends it. -/
theorem timers_end_their_own_of_reused_key :
    let key : CommandKey := { subsystem := .system, command := 1 }
    let first : List Move :=
      [.begin key 10, .proceed 0, .proceed 0, .proceed 0, .wait 10, .wake 0, .answer key [7],
        .proceed 0]
    let armed : List Move := [.proceed 0, .proceed 0, .proceed 0]
    let late : List Move := [.proceed 1, .failWrite 1 .closed, .proceed 0]
    let own : List Move := [.wait 20, .wake 1, .proceed 0, .proceed 0, .collect 1]
    let waits := run {} (first ++ .begin key 20 :: armed)
    let ends := run {} (first ++ .begin key 20 :: (armed ++ late ++ own))
    (run {} first).winsOf 0 = [.ok [7]] ∧ (key, 1) ∈ waits.ledger.waiting ∧
      EndsOthers 1 waits late ∧
        Spares 1 waits (run {} (first ++ .begin key 20 :: armed ++ late)) ∧
          ends.ledger.stateOf 1 = some .timedOut ∧
            ends.winsOf 1 = [.error (.timeout key 20)] := by
  intro key first armed late own waits ends
  have others : EndsOthers 1 waits late :=
    ⟨⟨0, by decide +kernel, by decide⟩, ⟨0, by decide +kernel, by decide⟩,
      ⟨0, by decide +kernel, by decide⟩, trivial⟩
  have spares := (timers_end_their_own (first ++ .begin key 20 :: armed)).2.1 1 late others
  have timedOut : ends.ledger.stateOf 1 = some .timedOut := by
    decide +kernel
  have number : (run {} first).ledger.transactions.length = 1 := by
    decide +kernel
  have ended := (timers_end_their_own first).2.2 key 20 (armed ++ late ++ own)
  rw [number] at ended
  exact ⟨by decide +kernel, by decide +kernel, others, spares, timedOut, (ended timedOut).1⟩

end Race

end ZigbeeHost
