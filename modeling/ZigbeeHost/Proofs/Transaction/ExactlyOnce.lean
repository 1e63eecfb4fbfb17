import ZigbeeHost.Proofs.Transaction.Race
import Mathlib.Data.List.Perm.Basic

/-!
# Every transaction is resolved exactly once

The invariant is one of ownership: a pending transaction is in exactly one
place, and a settled one in none.  The places are the engine before it has
registered the transaction, the table, and the hands of whoever has removed it
from there.  Every move keeps the invariant, so whoever resolves a transaction
is the only one who can.
-/

namespace ZigbeeHost

/-- No outcome has been handed over: the caller waits for one, or has gone
away. -/
def Reply.Unspent (reply : Reply) : Prop :=
  reply = .waiting ∨ reply = .dropped

/-- The life of a transaction as its state, its waiting side, its first
outcomes and the outcomes that its caller has received. -/
inductive Life : Option TransactionState → Option Reply → List Outcome → List Outcome → Prop
  | absent : Life none none [] []
  | waiting : Life (some .pending) (some .waiting) [] []
  | abandoned : Life (some .pending) (some .dropped) [] []
  | delivered (outcome : Outcome) :
      Life (some (.ofOutcome outcome)) (some (.delivered outcome)) [outcome] []
  | taken (outcome : Outcome) :
      Life (some (.ofOutcome outcome)) (some .taken) [outcome] [outcome]
  | unread (outcome : Outcome) :
      Life (some (.ofOutcome outcome)) (some .dropped) [outcome] []
  | finished (outcome : Outcome) :
      Life (some (.ofOutcome outcome)) (some .dropped) [outcome] [outcome]

namespace Life

variable {state : Option TransactionState} {reply : Option Reply}
variable {wins received : List Outcome}

theorem begin (life : Life state reply wins received) (absent : state = none) :
    Life (some .pending) (some .waiting) wins received := by
  cases life with
  | absent => exact .waiting
  | waiting | abandoned | delivered | taken | unread | finished => cases absent

theorem settle {reply : Reply} (life : Life state (some reply) wins received)
    (pending : state = some .pending) (outcome : Outcome) :
    Life (some (.ofOutcome outcome)) (some (reply.deliver outcome)) (outcome :: wins)
      received := by
  cases life with
  | waiting => exact .delivered outcome
  | abandoned => exact .unread outcome
  | delivered other | taken other | unread other | finished other =>
      exact absurd (Option.some.inj pending) (Transaction.ofOutcome_ne_pending other)

theorem take {outcome : Outcome} (life : Life state (some (.delivered outcome)) wins received) :
    Life state (some .taken) wins (outcome :: received) := by
  cases life with
  | delivered => exact .taken outcome

theorem drop {reply : Reply} (life : Life state (some reply) wins received) :
    Life state (some .dropped) wins received := by
  cases life with
  | waiting => exact .abandoned
  | abandoned => exact .abandoned
  | delivered outcome => exact .unread outcome
  | taken outcome => exact .finished outcome
  | unread outcome => exact .unread outcome
  | finished outcome => exact .finished outcome

theorem length_wins_le (life : Life state reply wins received) : wins.length ≤ 1 := by
  cases life <;> simp

theorem unspent_of_pending (life : Life (some .pending) reply wins received) :
    ∃ handle, reply = some handle ∧ handle.Unspent := by
  generalize pending : some TransactionState.pending = state at life
  cases life with
  | absent => cases pending
  | waiting => exact ⟨_, rfl, .inl rfl⟩
  | abandoned => exact ⟨_, rfl, .inr rfl⟩
  | delivered outcome | taken outcome | unread outcome | finished outcome =>
      exact absurd (Option.some.inj pending).symm (Transaction.ofOutcome_ne_pending outcome)

theorem received_cases (life : Life state reply wins received) :
    received = [] ∨ received = wins := by
  cases life <;> simp

theorem wins_read (life : Life state reply wins received) :
    ∀ outcome ∈ wins, reply = some (.delivered outcome) ∨ received = [outcome] ∨
      reply = some .dropped := by
  cases life <;> simp

theorem state_cases (life : Life state reply wins received) (existing : state ≠ none) :
    (wins = [] ∧ state = some .pending) ∨
      ∃ outcome, wins = [outcome] ∧ state = some (.ofOutcome outcome) := by
  cases life with
  | absent => exact absurd rfl existing
  | waiting | abandoned => exact .inl ⟨rfl, rfl⟩
  | delivered outcome | taken outcome | unread outcome | finished outcome =>
      exact .inr ⟨outcome, rfl, rfl⟩

end Life

namespace Race

/-- In how many places a transaction is. -/
def places (race : Race) (number : Nat) : Nat :=
  race.offered.count number + race.held.count number + race.ledger.table.count number

/-- Pending transactions are in one place and others in none, lives are as they
should be, and what has been registered is not offered again. -/
structure Sound (race : Race) : Prop where
  wellKeyed : race.ledger.WellKeyed
  owned : ∀ number,
    race.places number = if race.ledger.stateOf number = some .pending then 1 else 0
  lives : ∀ number,
    Life (race.ledger.stateOf number) (race.ledger.replyOf number) (race.winsOf number)
      (race.receivedOf number)
  settledOffer : ∀ number ∈ race.registered,
    race.ledger.stateOf number ≠ none ∧ race.offered.count number = 0

theorem sound_start : Sound {} where
  wellKeyed := ⟨List.nodup_nil, fun _ member => by cases member⟩
  owned _ := rfl
  lives _ := .absent
  settledOffer _ member := by cases member

theorem count_filterMap_cons {α : Type} (place : α → Option Nat) (first : α) (rest : List α)
    (number : Nat) :
    ((first :: rest).filterMap place).count number =
      (rest.filterMap place).count number + if place first = some number then 1 else 0 := by
  cases placed : place first with
  | none => simp [placed]
  | some other => simp [placed, List.count_cons]

theorem perm_eraseIdx {tasks : List Task} {index : Nat} {task : Task}
    (found : tasks[index]? = some task) : tasks.Perm (task :: tasks.eraseIdx index) := by
  obtain ⟨inside, rfl⟩ := List.getElem?_eq_some_iff.1 found
  exact (List.getElem_cons_eraseIdx_perm inside).symm

theorem outcomesOf_cons (number other : Nat) (outcome : Outcome)
    (entries : List (Nat × Outcome)) :
    outcomesOf number ((other, outcome) :: entries) =
      if other = number then outcome :: outcomesOf number entries
      else outcomesOf number entries := by
  by_cases same : other = number
  · simp [outcomesOf, same]
  · simp [outcomesOf, same]

section Places

variable {race : Race}

theorem offered_cons (task : Task) (number : Nat) :
    (offered { race with tasks := task :: race.tasks }).count number =
      race.offered.count number + if task.offers = some number then 1 else 0 :=
  count_filterMap_cons Task.offers task race.tasks number

theorem places_cons (task : Task) (number : Nat) :
    places { race with tasks := task :: race.tasks } number =
      race.places number + (if task.offers = some number then 1 else 0) +
        if task.holds = some number then 1 else 0 := by
  simp only [places, offered, held, count_filterMap_cons]
  omega

/-- A task that offers a transaction is one more place of that transaction. -/
theorem places_cons_of_offers {task : Task} {number : Nat} (offers : task.offers = some number)
    (holds : task.holds = none) (other : Nat) :
    places { race with tasks := task :: race.tasks } other =
      race.places other + if number = other then 1 else 0 := by
  simp [places_cons, offers, holds]

/-- So is a task that holds it. -/
theorem places_cons_of_holds {task : Task} {number : Nat} (offers : task.offers = none)
    (holds : task.holds = some number) (other : Nat) :
    places { race with tasks := task :: race.tasks } other =
      race.places other + if number = other then 1 else 0 := by
  simp [places_cons, offers, holds]

namespace Sound

theorem pending_of_places (sound : race.Sound) (number : Nat)
    (placed : 0 < race.places number) :
    race.ledger.stateOf number = some .pending ∧ race.places number = 1 := by
  have owned := sound.owned number
  split at owned
  · rename_i pending
    exact ⟨pending, owned⟩
  · omega

/-- The transaction of a task is pending and in no other place. -/
theorem alone {task : Task} {number : Nat}
    (sound : Sound { race with tasks := task :: race.tasks })
    (placed : ∀ other, Race.places { race with tasks := task :: race.tasks } other =
      race.places other + if number = other then 1 else 0) :
    race.ledger.stateOf number = some .pending ∧ race.places number = 0 := by
  have here := placed number
  rw [if_pos rfl] at here
  obtain ⟨pending, one⟩ := sound.pending_of_places number (by omega)
  exact ⟨pending, by omega⟩

/-- Moves that leave every transaction in as many places as before, and in the
state in which it was. -/
theorem transfer {next : Race} (sound : race.Sound) (wellKeyed : next.ledger.WellKeyed)
    (places : ∀ number, next.places number = race.places number)
    (offered : ∀ number, next.offered.count number = race.offered.count number)
    (states : ∀ number, next.ledger.stateOf number = race.ledger.stateOf number)
    (lives : ∀ number, Life (race.ledger.stateOf number) (next.ledger.replyOf number)
      (next.winsOf number) (next.receivedOf number))
    (registered : next.registered = race.registered) : next.Sound where
  wellKeyed := wellKeyed
  owned number := by rw [places, states, sound.owned]
  lives number := by
    rw [states]
    exact lives number
  settledOffer number member := by
    rw [offered, states]
    rw [registered] at member
    exact sound.settledOffer number member

/-- The order of the tasks does not matter. -/
theorem perm (sound : race.Sound) {tasks : List Task} (same : race.tasks.Perm tasks) :
    Sound { race with tasks } := by
  have offers (number : Nat) := (same.filterMap Task.offers).count_eq number
  have holds (number : Nat) := (same.filterMap Task.holds).count_eq number
  refine sound.transfer sound.wellKeyed ?_ ?_ (fun _ => rfl) sound.lives rfl
  · intro number
    simp only [Race.places, Race.offered, held, offers, holds]
  · intro number
    exact (offers number).symm

/-- A task can give way to another one that concerns the same transactions. -/
theorem replace {task other : Task} (sound : Sound { race with tasks := task :: race.tasks })
    (offers : other.offers = task.offers) (holds : other.holds = task.holds) :
    Sound { race with tasks := other :: race.tasks } := by
  refine sound.transfer sound.wellKeyed ?_ ?_ (fun _ => rfl) sound.lives rfl
  · intro number
    simp only [places_cons, offers, holds]
  · intro number
    simp only [offered_cons, offers]

/-- A task that concerns neither an unregistered nor a removed transaction can
be added. -/
theorem cons (sound : race.Sound) {task : Task} (offers : task.offers = none)
    (holds : task.holds = none) : Sound { race with tasks := task :: race.tasks } := by
  refine sound.transfer sound.wellKeyed ?_ ?_ (fun _ => rfl) sound.lives rfl
  · intro number
    simp [places_cons, offers, holds]
  · intro number
    simp [offered_cons, offers]

/-- Such a task can also be dropped. -/
theorem of_cons {task : Task} (sound : Sound { race with tasks := task :: race.tasks })
    (offers : task.offers = none) (holds : task.holds = none) : race.Sound := by
  refine sound.transfer sound.wellKeyed ?_ ?_ (fun _ => rfl) sound.lives rfl
  · intro number
    simp [places_cons, offers, holds]
  · intro number
    simp [offered_cons, offers]

/-- Changes to the ledger that concern neither the table nor what can be seen of
the transactions. -/
theorem of_same_view {ledger : Ledger} (sound : race.Sound)
    (waiting : ledger.waiting = race.ledger.waiting)
    (views : ∀ {α : Type} (view : Transaction → α), Transaction.IgnoresTimer view →
      ∀ number, ledger.look view number = race.ledger.look view number) :
    Sound { race with ledger } := by
  have states := views Transaction.state fun _ _ => rfl
  have replies (number : Nat) : ledger.replyOf number = race.ledger.replyOf number :=
    views Transaction.reply (fun _ _ => rfl) number
  have keys := views Transaction.key fun _ _ => rfl
  refine sound.transfer ?_ ?_ (fun _ => rfl) states ?_ rfl
  · apply sound.wellKeyed.of_sublist (waiting ▸ List.Sublist.refl _)
    intro number key same
    exact (keys number).trans same
  · intro number
    simp only [Race.places, Race.offered, held, Ledger.table, waiting]
  · intro number
    have life := sound.lives number
    rw [← replies] at life
    exact life

/-- What has been removed from the table is held by whoever resolves it. -/
theorem hold {removal : Option Nat × Ledger} (sound : race.Sound)
    (removes : race.ledger.Removes removal) (outcome : Outcome) :
    (race.hold removal outcome).Sound := by
  cases removes with
  | gone => exact sound
  | @found key number waiting =>
      have counted := Ledger.count_table_of_find? sound.wellKeyed waiting
      have fewer : (race.ledger.remove key).waiting.Sublist race.ledger.waiting :=
        List.filter_sublist
      have wellKeyed : (race.ledger.remove key).WellKeyed :=
        sound.wellKeyed.of_sublist fewer fun _ _ same => same
      refine sound.transfer wellKeyed ?_ ?_ (fun _ => rfl) sound.lives rfl
      · intro other
        simp only [Race.places, Race.offered, held, Race.hold, count_filterMap_cons, counted,
          Task.offers, Task.holds, Option.some.injEq, reduceCtorEq, if_false]
        omega
      · intro other
        simp [Race.offered, Race.hold, count_filterMap_cons, Task.offers]

theorem cancelAll (sound : race.Sound) : (race.step .cancelAll).Sound := by
  have offers : (race.ledger.table.map (Task.resolve · (.error .cancelled))).filterMap
      Task.offers = [] := by
    simp [List.filterMap_map, Function.comp_def, Task.offers]
  have holds : (race.ledger.table.map (Task.resolve · (.error .cancelled))).filterMap
      Task.holds = race.ledger.table := by
    simp [List.filterMap_map, Function.comp_def, Task.holds]
  have wellKeyed : (race.step .cancelAll).ledger.WellKeyed :=
    sound.wellKeyed.of_sublist (List.nil_sublist _) fun _ _ same => same
  refine sound.transfer wellKeyed ?_ ?_ (fun _ => rfl) sound.lives rfl
  · intro number
    have empty : (race.step .cancelAll).ledger.table = [] := rfl
    have tasks : (race.step .cancelAll).tasks =
        race.ledger.table.map (Task.resolve · (.error .cancelled)) ++ race.tasks := rfl
    simp only [Race.places, Race.offered, held, tasks, empty, List.filterMap_append, offers,
      holds, List.count_append, List.count_nil]
    omega
  · intro number
    have tasks : (race.step .cancelAll).tasks =
        race.ledger.table.map (Task.resolve · (.error .cancelled)) ++ race.tasks := rfl
    simp only [Race.offered, tasks, List.filterMap_append, offers, List.nil_append]

/-- A change to the waiting side of one transaction that its life allows. -/
theorem set_reply {next : Race} (sound : race.Sound) {number : Nat} {transaction : Transaction}
    (known : race.ledger.transactions[number]? = some transaction) {reply : Reply}
    (ledger : next.ledger = { race.ledger with
      transactions := race.ledger.transactions.set number { transaction with reply } })
    (tasks : next.tasks = race.tasks) (registered : next.registered = race.registered)
    (life : Life (some transaction.state) (some reply) (next.winsOf number)
      (next.receivedOf number))
    (others : ∀ other, other ≠ number →
      next.winsOf other = race.winsOf other ∧ next.receivedOf other = race.receivedOf other) :
    next.Sound := by
  have transactions : next.ledger.transactions =
      race.ledger.transactions.set number { transaction with reply } := by rw [ledger]
  have states := Ledger.stateOf_set_reply known transactions
  refine sound.transfer ?_ ?_ ?_ states ?_ registered
  · exact sound.wellKeyed.of_set (by rw [ledger]) known transactions rfl
  · intro other
    simp only [Race.places, Race.offered, held, tasks, ledger, Ledger.table]
  · intro other
    simp only [Race.offered, tasks]
  · intro other
    rw [Ledger.replyOf_set known transactions]
    split
    · rename_i same
      rw [same, Ledger.stateOf_of_known known]
      exact life
    · rename_i different
      rw [(others other different).1, (others other different).2]
      exact sound.lives other

theorem collect (sound : race.Sound) (number : Nat) : (race.step (.collect number)).Sound := by
  rcases race.ledger.takeReply_cases number with
    ⟨transaction, outcome, known, reply, taken⟩ | nothing
  · have life := sound.lives number
    rw [Ledger.stateOf_of_known known, Ledger.replyOf_of_known known, reply] at life
    simp only [Race.step, taken]
    refine sound.set_reply known rfl rfl rfl ?_ ?_
    · simp only [receivedOf, outcomesOf_cons, if_true]
      exact life.take
    · intro other different
      exact ⟨rfl, by simp only [receivedOf, outcomesOf_cons, if_neg (Ne.symm different)]⟩
  · simp only [Race.step, nothing]
    exact sound

theorem leave (sound : race.Sound) (number : Nat) : (race.step (.leave number)).Sound := by
  cases known : race.ledger.transactions[number]? with
  | none =>
      simp only [Race.step, Ledger.dropReply_of_unknown _ _ known]
      exact sound
  | some transaction =>
      have life := sound.lives number
      rw [Ledger.stateOf_of_known known, Ledger.replyOf_of_known known] at life
      simp only [Race.step, Ledger.dropReply_of_known _ _ known]
      exact sound.set_reply known rfl rfl rfl life.drop fun _ _ => ⟨rfl, rfl⟩

/-- Resolving a transaction from its only place settles it. -/
theorem settle {number : Nat} {task : Task} (outcome : Outcome)
    (sound : Sound { race with tasks := task :: race.tasks })
    (placed : ∀ other, Race.places { race with tasks := task :: race.tasks } other =
      race.places other + if number = other then 1 else 0) :
    (race.settle number outcome).Sound := by
  -- The place that is given up is the only one, so the transaction is still pending.
  obtain ⟨pending, nowhere⟩ := sound.alone placed
  obtain ⟨transaction, known, state⟩ := Ledger.exists_of_look pending
  obtain ⟨first, waiting, transactions⟩ := Ledger.resolve_of_pending _ _ known state outcome
  have wins : (race.settle number outcome).wins = (number, outcome) :: race.wins := by
    simp only [Race.settle, first, if_true]
  have places (other : Nat) : (race.settle number outcome).places other = race.places other := by
    simp only [Race.places, Race.offered, held, Ledger.table, Race.settle, waiting]
  have states := Ledger.stateOf_set known transactions
  have replies := Ledger.replyOf_set known transactions
  constructor
  · exact sound.wellKeyed.of_set waiting known transactions rfl
  · intro other
    have owned := sound.owned other
    simp only [placed] at owned
    rw [places]
    simp only [Race.settle, states]
    by_cases same : other = number
    · subst same
      have settled : some (transaction.settle outcome).state ≠ some .pending :=
        fun equal => Transaction.ofOutcome_ne_pending outcome (Option.some.inj equal)
      rw [if_pos rfl, if_neg settled]
      omega
    · rw [if_neg (Ne.symm same), Nat.add_zero] at owned
      rw [if_neg same, owned]
  · intro other
    have life := sound.lives other
    simp only [winsOf, receivedOf, wins, outcomesOf_cons]
    simp only [Race.settle, states, replies]
    by_cases same : other = number
    · subst same
      rw [Ledger.stateOf_of_known known, Ledger.replyOf_of_known known] at life
      simp only [if_true]
      exact life.settle (by rw [state]) outcome
    · simp only [if_neg same, if_neg (Ne.symm same)]
      exact life
  · intro other member
    obtain ⟨existing, offered⟩ := sound.settledOffer other member
    rw [offered_cons] at offered
    have unoffered : (race.settle number outcome).offered.count other = 0 :=
      Nat.eq_zero_of_add_eq_zero_right offered
    refine ⟨?_, unoffered⟩
    simp only [Race.settle, states]
    split
    · simp
    · exact existing

/-- A registered transaction is in the table and no longer offered. -/
theorem enroll {number : Nat} {transaction : Transaction}
    (sound : Sound { race with tasks := .register number :: race.tasks })
    (known : race.ledger.transactions[number]? = some transaction)
    (free : race.ledger.find? transaction.key = none) :
    Sound
      { race with
        ledger :=
          { race.ledger with
            waiting := race.ledger.waiting ++ [(transaction.key, number)] }
        tasks := .start number :: race.tasks
        registered := number :: race.registered } := by
  have placed (other : Nat) :
      Race.places { race with tasks := .register number :: race.tasks } other =
        race.places other + if number = other then 1 else 0 :=
    places_cons_of_offers rfl rfl other
  obtain ⟨-, nowhere⟩ := sound.alone placed
  have offered (other : Nat) :
      ((Task.start number :: race.tasks).filterMap Task.offers).count other =
        race.offered.count other := by
    simp [count_filterMap_cons, Task.offers, Race.offered]
  constructor
  · exact sound.wellKeyed.of_register known free
  · intro other
    have owned := sound.owned other
    rw [placed] at owned
    refine Eq.trans ?_ owned
    simp only [Race.places, Race.offered, held, Ledger.table, count_filterMap_cons,
      Task.offers, Task.holds, reduceCtorEq, if_false, List.map_append, List.map_cons,
      List.map_nil, List.count_append, List.count_singleton, beq_iff_eq]
    omega
  · exact sound.lives
  · intro other member
    rcases List.mem_cons.1 member with rfl | earlier
    · refine ⟨by simp [Ledger.look, known], ?_⟩
      simp only [Race.places] at nowhere
      exact (offered other).trans (by omega)
    · obtain ⟨existing, unoffered⟩ := sound.settledOffer other earlier
      rw [offered_cons] at unoffered
      exact ⟨existing, (offered other).trans (Nat.eq_zero_of_add_eq_zero_right unoffered)⟩

theorem register {number : Nat}
    (sound : Sound { race with tasks := .register number :: race.tasks }) :
    (race.perform (.register number)).Sound := by
  obtain ⟨pending, -⟩ := sound.alone (places_cons_of_offers rfl rfl)
  obtain ⟨transaction, known, -⟩ := Ledger.exists_of_look pending
  simp only [Race.perform]
  split
  · exact sound.replace rfl rfl
  · rename_i ledger registered
    obtain ⟨free, rfl⟩ := Ledger.register_cases _ _ known registered
    exact sound.enroll known free

theorem perform {task : Task} (sound : Sound { race with tasks := task :: race.tasks }) :
    (race.perform task).Sound := by
  cases task with
  | register number => exact sound.register
  | start number =>
      have sound := sound.of_cons rfl rfl
      simp only [Race.perform]
      split
      · exact sound
      · rename_i transaction known
        have started : Sound
            { race with ledger := (race.ledger.startTimer number transaction).2 } :=
          sound.of_same_view rfl fun _ _ _ => rfl
        exact started.cons rfl rfl
  | arm number timer =>
      have kept := (sound.of_cons rfl rfl).of_same_view
        (Ledger.waiting_keepTimer race.ledger number timer)
        fun _ blind other => Ledger.look_keepTimer _ _ other blind timer
      exact kept.cons rfl rfl
  | write number => exact sound.of_cons rfl rfl
  | expire key number error =>
      exact (sound.of_cons rfl rfl).hold (Ledger.removes_expire _ _ _) _
  | refuse number error => exact sound.settle _ (places_cons_of_offers rfl rfl)
  | resolve number outcome => exact sound.settle _ (places_cons_of_holds rfl rfl)

theorem begin (sound : race.Sound) (begun : CommandKey) (limit : Nat) :
    (race.step (.begin begun limit)).Sound := by
  have states (other : Nat) : (race.step (.begin begun limit)).ledger.stateOf other =
      if other = race.ledger.transactions.length then some .pending
      else race.ledger.stateOf other :=
    race.ledger.look_create other Transaction.state begun limit
  have replies (other : Nat) : (race.step (.begin begun limit)).ledger.replyOf other =
      if other = race.ledger.transactions.length then some .waiting
      else race.ledger.replyOf other :=
    race.ledger.look_create other Transaction.reply begun limit
  have fresh : race.ledger.stateOf race.ledger.transactions.length = none := by
    simp [Ledger.look]
  have places (other : Nat) : (race.step (.begin begun limit)).places other =
      race.places other + if race.ledger.transactions.length = other then 1 else 0 := by
    simp only [Race.places, Race.offered, held, Ledger.table, Race.step, Ledger.create,
      count_filterMap_cons, Task.offers, Task.holds, Option.some.injEq, reduceCtorEq, if_false]
    omega
  constructor
  · refine sound.wellKeyed.of_sublist (List.Sublist.refl _) ?_
    intro other key same
    have keys := race.ledger.look_create other Transaction.key begun limit
    have earlier : other ≠ race.ledger.transactions.length := by
      rintro rfl
      simp [Ledger.look] at same
    rw [if_neg earlier] at keys
    exact keys.trans same
  · intro other
    have owned := sound.owned other
    rw [places, states]
    by_cases same : other = race.ledger.transactions.length
    · subst same
      simp [fresh] at owned
      simp [owned]
    · simp only [if_neg same, if_neg (Ne.symm same), Nat.add_zero]
      exact owned
  · intro other
    have life := sound.lives other
    rw [states, replies]
    by_cases same : other = race.ledger.transactions.length
    · subst same
      rw [if_pos rfl, if_pos rfl]
      exact life.begin fresh
    · simp only [if_neg same]
      exact life
  · intro other member
    obtain ⟨existing, unoffered⟩ := sound.settledOffer other member
    have different : other ≠ race.ledger.transactions.length := by
      rintro rfl
      exact existing fresh
    have same : (race.step (.begin begun limit)).offered.count other =
        race.offered.count other := by
      simp [Race.offered, Race.step, Ledger.create, Task.offers, Ne.symm different]
    rw [states, if_neg different, same]
    exact ⟨existing, unoffered⟩

theorem step (sound : race.Sound) (move : Move) : (race.step move).Sound := by
  cases move with
  | begin key limit => exact sound.begin key limit
  | proceed index =>
      simp only [Race.step]
      split
      · exact sound
      · rename_i task found
        exact perform (sound.perm (perm_eraseIdx found))
  | failWrite index cause =>
      simp only [Race.step]
      split
      · rename_i number found
        have rest : Sound { race with tasks := race.tasks.eraseIdx index } :=
          of_cons (sound.perm (perm_eraseIdx found)) rfl rfl
        split
        · exact sound
        · exact rest.cons rfl rfl
      · exact sound
  | answer key payload => exact sound.hold (Ledger.removes_unregister _ _) _
  | reject key code => exact sound.hold (Ledger.removes_unregister _ _) _
  | cancelAll => exact sound.cancelAll
  | wake timer =>
      simp only [Race.step]
      split
      · exact sound
      · rename_i entry known
        split
        · exact sound
        · split
          · have fired : Sound
                { race with
                  ledger :=
                    { race.ledger with
                      timers := race.ledger.timers.set timer { entry with state := .fired } } } :=
              sound.of_same_view rfl fun _ _ _ => rfl
            exact fired.cons rfl rfl
          · exact sound
  | wait milliseconds => exact sound.of_same_view rfl fun _ _ _ => rfl
  | collect number => exact sound.collect number
  | leave number => exact sound.leave number

theorem run (sound : race.Sound) (moves : List Move) : (race.run moves).Sound := by
  induction moves generalizing race with
  | nil => exact sound
  | cons move moves ih => exact ih (sound.step move)

/-- A pending registered transaction waits under its key, or one resolver has
removed it. -/
theorem owned_of_registered (sound : race.Sound) {number : Nat}
    (registered : number ∈ race.registered)
    (pending : race.ledger.stateOf number = some .pending) :
    (∃ transaction, race.ledger.transactions[number]? = some transaction ∧
      race.ledger.find? transaction.key = some number ∧ race.held.count number = 0) ∨
    (number ∉ race.ledger.table ∧ race.held.count number = 1) := by
  have owned := sound.owned number
  rw [if_pos pending, Race.places, (sound.settledOffer number registered).2] at owned
  obtain ⟨transaction, known, -⟩ := Ledger.exists_of_look pending
  by_cases inside : number ∈ race.ledger.table
  · have counted := List.count_pos_iff.2 inside
    exact .inl ⟨transaction, known, sound.wellKeyed.find?_of_mem_table inside known, by omega⟩
  · have counted := List.count_eq_zero.2 inside
    exact .inr ⟨inside, by omega⟩

end Sound

end Places

section Settled

variable {race : Race} {number : Nat} {state : TransactionState}

theorem transactions_hold {removal : Option Nat × Ledger}
    (removes : race.ledger.Removes removal) (outcome : Outcome) :
    (race.hold removal outcome).ledger.transactions = race.ledger.transactions := by
  rw [← removes.transactions]
  obtain ⟨removed, ledger⟩ := removal
  cases removed <;> rfl

theorem stateOf_perform (race : Race) (settled : race.ledger.stateOf number = some state)
    (terminal : state ≠ .pending) (task : Task) :
    (race.perform task).ledger.stateOf number = some state := by
  cases task with
  | register other =>
      simp only [perform]
      split
      · exact settled
      · rename_i registered
        obtain ⟨waiting, rfl⟩ := race.ledger.register_changes _ registered
        exact settled
  | start other =>
      simp only [perform]
      split <;> exact settled
  | arm other timer =>
      exact (Ledger.look_keepTimer _ _ number (fun _ _ => rfl) timer).trans settled
  | write other => exact settled
  | expire key other error =>
      have same := transactions_hold (Ledger.removes_expire race.ledger key other) (.error error)
      exact (Ledger.look_eq_of_transactions same _ number).trans settled
  | refuse other error => exact Ledger.stateOf_resolve_of_settled _ _ _ settled terminal _
  | resolve other outcome => exact Ledger.stateOf_resolve_of_settled _ _ _ settled terminal _

/-- A transaction that is not pending any more keeps its state. -/
theorem stateOf_step (settled : race.ledger.stateOf number = some state)
    (terminal : state ≠ .pending) (move : Move) :
    (race.step move).ledger.stateOf number = some state := by
  cases move with
  | begin key limit =>
      obtain ⟨transaction, known, -⟩ := Ledger.exists_of_look settled
      have earlier := (List.getElem?_eq_some_iff.1 known).1
      refine (race.ledger.look_create number _ key limit).trans ?_
      rw [if_neg (Nat.ne_of_lt earlier)]
      exact settled
  | proceed index =>
      simp only [step]
      split
      · exact settled
      · exact stateOf_perform { race with tasks := race.tasks.eraseIdx index } settled terminal _
  | failWrite index cause =>
      simp only [step]
      split
      · split <;> exact settled
      · exact settled
  | answer key payload =>
      have same := transactions_hold (Ledger.removes_unregister race.ledger key) (.ok payload)
      exact (Ledger.look_eq_of_transactions same _ number).trans settled
  | reject key code =>
      have same := transactions_hold (Ledger.removes_unregister race.ledger key)
        (.error (.device code))
      exact (Ledger.look_eq_of_transactions same _ number).trans settled
  | cancelAll => exact settled
  | wake timer =>
      simp only [step]
      split
      · exact settled
      · split
        · exact settled
        · split <;> exact settled
  | wait milliseconds => exact settled
  | collect other =>
      rcases race.ledger.takeReply_cases other with
        ⟨transaction, outcome, known, -, taken⟩ | nothing
      · simp only [step, taken]
        exact (Ledger.stateOf_set_reply known rfl number).trans settled
      · simp only [step, nothing]
        exact settled
  | leave other =>
      cases known : race.ledger.transactions[other]? with
      | none =>
          simp only [step, Ledger.dropReply_of_unknown _ _ known]
          exact settled
      | some transaction =>
          simp only [step, Ledger.dropReply_of_known _ _ known]
          exact (Ledger.stateOf_set_reply known rfl number).trans settled

theorem stateOf_run (settled : race.ledger.stateOf number = some state)
    (terminal : state ≠ .pending) (moves : List Move) :
    (race.run moves).ledger.stateOf number = some state := by
  induction moves generalizing race with
  | nil => exact settled
  | cons move moves ih => exact ih (stateOf_step settled terminal move)

end Settled

/-- In every run, however the engine, the timers and those who cancel
interleave, a registered transaction has at most one first outcome.  The caller
receives no other, and unless it has gone away that outcome waits for it or has
been received.  The transaction is pending until then, and keeps the state that
belongs to the outcome from then on.  While it is pending it waits under its
key, or is in the hands of the one resolver that has removed it. -/
theorem resolved_exactly_once (moves : List Move) {number : Nat}
    (registered : number ∈ (run {} moves).registered) :
    ((run {} moves).winsOf number).length ≤ 1 ∧
    ((run {} moves).receivedOf number = [] ∨
      (run {} moves).receivedOf number = (run {} moves).winsOf number) ∧
    (∀ outcome ∈ (run {} moves).winsOf number,
      (run {} moves).ledger.replyOf number = some (.delivered outcome) ∨
        (run {} moves).receivedOf number = [outcome] ∨
          (run {} moves).ledger.replyOf number = some .dropped) ∧
    (((run {} moves).winsOf number = [] ∧
        (run {} moves).ledger.stateOf number = some .pending) ∨
      ∃ outcome, (run {} moves).winsOf number = [outcome] ∧
        ∀ later, (run {} (moves ++ later)).ledger.stateOf number =
          some (.ofOutcome outcome)) ∧
    ((run {} moves).ledger.stateOf number = some .pending →
      (∃ transaction, (run {} moves).ledger.transactions[number]? = some transaction ∧
        (run {} moves).ledger.find? transaction.key = some number ∧
          (run {} moves).held.count number = 0) ∨
      (number ∉ (run {} moves).ledger.table ∧ (run {} moves).held.count number = 1)) := by
  have sound := sound_start.run moves
  have life := sound.lives number
  have existing := (sound.settledOffer number registered).1
  refine ⟨life.length_wins_le, life.received_cases, life.wins_read, ?_,
    sound.owned_of_registered registered⟩
  rcases life.state_cases existing with ⟨none, pending⟩ | ⟨outcome, one, settled⟩
  · exact .inl ⟨none, pending⟩
  · refine .inr ⟨outcome, one, fun later => ?_⟩
    rw [run, List.foldl_append]
    exact stateOf_run settled (Transaction.ofOutcome_ne_pending outcome) later

/-- The response removes a transaction whose timer has just gone off, and
everything is cancelled before it is resolved; a second transaction reuses the
key and is cancelled. -/
theorem resolved_exactly_once_of_late_timer :
    let key : CommandKey := { subsystem := .system, command := 1 }
    let moves : List Move :=
      [.begin key 10, .proceed 0, .proceed 0, .proceed 0, .wait 10, .wake 0,
        .answer key [7], .begin key 10, .proceed 0, .cancelAll, .proceed 3, .proceed 2,
        .proceed 0, .collect 0]
    0 ∈ (run {} moves).registered ∧ 1 ∈ (run {} moves).registered ∧
      (run {} moves).winsOf 0 = [.ok [7]] ∧ (run {} moves).receivedOf 0 = [.ok [7]] ∧
        (run {} moves).winsOf 1 = [.error .cancelled] ∧
          ((run {} moves).winsOf 0).length ≤ 1 ∧ ((run {} moves).winsOf 1).length ≤ 1 := by
  intro key moves
  have first : 0 ∈ (run {} moves).registered := by decide
  have second : 1 ∈ (run {} moves).registered := by decide
  refine ⟨first, second, ?_, ?_, ?_, (resolved_exactly_once moves first).1,
    (resolved_exactly_once moves second).1⟩
  · decide +kernel
  · decide +kernel
  · decide +kernel

end Race

end ZigbeeHost
