import ZigbeeHost.Proofs.Transaction.LateTimers
import Mathlib.Data.List.Perm.Subperm

/-!
# Timers do not outlive their transactions

A timer is started before its transaction keeps it, and in between anything may
happen: the timer may go off, and the transaction may be resolved by anybody.
Whatever the order, a pending transaction that has been handed its timer keeps
it.  A settled one keeps none, and its timer has resolved it or has been
aborted, so it cannot go off later.
-/

namespace ZigbeeHost

namespace Task

/-- The transaction to which the task hands a timer, with that timer. -/
def hands : Task → Option (Nat × Nat)
  | .arm number timer => some (number, timer)
  | .register _ => none
  | .start _ => none
  | .write _ => none
  | .expire _ _ _ => none
  | .refuse _ _ => none
  | .resolve _ _ => none

end Task

namespace Race

/-- The task that a move carries out. -/
def carriedOut (race : Race) : Move → Option Task
  | .proceed index => race.tasks[index]?
  | .begin _ _ => none
  | .failWrite _ _ => none
  | .answer _ _ => none
  | .reject _ _ => none
  | .cancelAll => none
  | .wake _ => none
  | .wait _ => none
  | .collect _ => none
  | .leave _ => none

/-- The transaction that a move hands a timer, with that timer. -/
def arms (race : Race) (move : Move) : List (Nat × Nat) :=
  ((race.carriedOut move).bind Task.hands).toList

/-- The timer that a move aborts. -/
def aborts (race : Race) (move : Move) : List Nat :=
  ((race.carriedOut move).bind race.ledger.stops).toList

/-- What the moves yield, one after the other. -/
def along {α : Type} (yields : Race → Move → List α) (race : Race) : List Move → List α
  | [] => []
  | move :: moves => yields race move ++ (race.step move).along yields moves

/-- The transactions that have a timer or are about to get one. -/
def timed (race : Race) : List Nat :=
  race.tasks.filterMap Task.starts ++ race.ledger.watched

/-- The timers that are about to be handed to transactions. -/
def handing (race : Race) : List (Nat × Nat) :=
  race.tasks.filterMap Task.hands

/-- What becomes of a timer that has been handed to its transaction, given the
timers that have been aborted. -/
inductive Custody (aborted : List Nat) (timer : Nat) :
    Option (TransactionState × Option Nat) → Prop
  | kept : Custody aborted timer (some (.pending, some timer))
  | timedOut : Custody aborted timer (some (.timedOut, none))
  | stopped (state : TransactionState) (settled : state ≠ .pending) (inside : timer ∈ aborted) :
      Custody aborted timer (some (state, none))

namespace Custody

variable {aborted : List Nat} {timer : Nat}
variable {slot : Option (TransactionState × Option Nat)}

theorem append (custody : Custody aborted timer slot) (more : List Nat) :
    Custody (aborted ++ more) timer slot := by
  cases custody with
  | kept => exact .kept
  | timedOut => exact .timedOut
  | stopped state settled inside => exact .stopped state settled (List.mem_append_left _ inside)

theorem ne_none (custody : Custody aborted timer slot) : slot ≠ none := by
  cases custody <;> simp

theorem timer_eq {transaction : Transaction}
    (custody : Custody aborted timer (some transaction.slot)) :
    transaction.timer = if transaction.state = .pending then some timer else none := by
  generalize same : some transaction.slot = slot at custody
  cases custody with
  | kept => simp_all [Transaction.slot]
  | timedOut => simp_all [Transaction.slot]
  | stopped state settled => simp_all [Transaction.slot]

theorem of_settled {transaction : Transaction}
    (custody : Custody aborted timer (some transaction.slot))
    (settled : transaction.state ≠ .pending) :
    transaction.state = .timedOut ∨ timer ∈ aborted := by
  generalize same : some transaction.slot = slot at custody
  cases custody with
  | kept => exact absurd (Prod.mk.inj (Option.some.inj same)).1 settled
  | timedOut => exact .inl (Prod.mk.inj (Option.some.inj same)).1
  | stopped state _ inside => exact .inr inside

/-- A pending transaction that gets its outcome gives its timer up, unless it has
timed out. -/
theorem settle {handle : Option Nat} {outcome : Outcome} {more : List Nat}
    (custody : Custody aborted timer (some (.pending, handle)))
    (released : TransactionState.ofOutcome outcome ≠ .timedOut → handle.toList ⊆ more) :
    Custody (aborted ++ more) timer (some (.ofOutcome outcome, none)) := by
  obtain rfl : handle = some timer := by
    cases custody with
    | kept => rfl
    | stopped _ settled => exact absurd rfl settled
  by_cases timedOut : TransactionState.ofOutcome outcome = .timedOut
  · rw [timedOut]
    exact .timedOut
  · refine .stopped _ (Transaction.ofOutcome_ne_pending outcome) (List.mem_append_right _ ?_)
    exact released timedOut List.mem_cons_self

end Custody

/-- There is one timer for a transaction, it is handed to that transaction only,
and transactions keep theirs as they should. -/
structure Tended (race : Race) (armed : List (Nat × Nat)) (aborted : List Nat) : Prop where
  single : race.timed.Nodup
  enrolled : ∀ number ∈ race.timed, number ∈ race.registered
  handing : ∀ pair ∈ race.handing, race.ledger.watched[pair.2]? = some pair.1
  kept : ∀ number state timer,
    race.ledger.look Transaction.slot number = some (state, some timer) →
      state = .pending ∧ (number, timer) ∈ armed
  armed : ∀ pair ∈ armed, race.ledger.watched[pair.2]? = some pair.1 ∧
    Custody aborted pair.2 (race.ledger.look Transaction.slot pair.1)

/-- No timer is started, handed over or given up, and no transaction that exists
is settled. -/
structure Calm (race next : Race) : Prop where
  starts : (next.tasks.filterMap Task.starts).Subperm (race.tasks.filterMap Task.starts)
  hands : next.handing ⊆ race.handing
  watched : next.ledger.watched = race.ledger.watched
  registered : next.registered = race.registered
  slots : ∀ number,
    next.ledger.look Transaction.slot number = race.ledger.look Transaction.slot number ∨
      race.ledger.look Transaction.slot number = none ∧
        next.ledger.look Transaction.slot number = some (.pending, none)

namespace Calm

variable {race next : Race}

/-- Tasks are dropped or change places. -/
theorem of_subperm {tasks : List Task} (fewer : tasks.Subperm race.tasks) :
    race.Calm { race with tasks } := by
  obtain ⟨middle, same, kept⟩ := fewer
  exact {
    starts := ⟨_, same.filterMap Task.starts, kept.filterMap Task.starts⟩
    hands := List.Subset.trans (same.filterMap Task.hands).symm.subset
      (kept.filterMap Task.hands).subset
    watched := rfl
    registered := rfl
    slots := fun _ => .inl rfl }

/-- Tasks are added that neither start nor hand over a timer. -/
theorem of_quiet (quiet : List Task) (tasks : next.tasks = quiet ++ race.tasks)
    (starts : quiet.filterMap Task.starts = []) (hands : quiet.filterMap Task.hands = [])
    (watched : next.ledger.watched = race.ledger.watched)
    (registered : next.registered = race.registered)
    (slots : ∀ number,
      next.ledger.look Transaction.slot number = race.ledger.look Transaction.slot number) :
    race.Calm next where
  starts := by rw [tasks, List.filterMap_append, starts, List.nil_append]
  hands := by
    rw [handing, tasks, List.filterMap_append, hands, List.nil_append]
    exact List.Subset.refl _
  watched := watched
  registered := registered
  slots number := .inl (slots number)

theorem hold {removal : Option Nat × Ledger} (removes : race.ledger.Removes removal)
    (outcome : Outcome) : race.Calm (race.hold removal outcome) := by
  cases removes with
  | @found key number waiting =>
      exact of_quiet [.resolve number outcome] rfl rfl rfl rfl rfl fun _ => rfl
  | gone => exact of_quiet [] rfl rfl rfl rfl rfl fun _ => rfl

theorem trans {middle : Race} (first : race.Calm middle) (second : middle.Calm next) :
    race.Calm next where
  starts := second.starts.trans first.starts
  hands := List.Subset.trans second.hands first.hands
  watched := second.watched.trans first.watched
  registered := second.registered.trans first.registered
  slots number := by
    rcases second.slots number with same | ⟨absent, fresh⟩
    · rw [same]
      exact first.slots number
    · rcases first.slots number with same | ⟨-, present⟩
      · exact .inr ⟨same.symm.trans absent, fresh⟩
      · cases present.symm.trans absent

/-- One transaction changes in something that does not concern its timer. -/
theorem of_set {number : Nat} {before after : Transaction}
    (known : race.ledger.transactions[number]? = some before)
    (ledger : next.ledger = { race.ledger with
      transactions := race.ledger.transactions.set number after })
    (same : after.slot = before.slot) (tasks : next.tasks = race.tasks)
    (registered : next.registered = race.registered) : race.Calm next := by
  have transactions : next.ledger.transactions = race.ledger.transactions.set number after := by
    rw [ledger]
  have timers : next.ledger.timers = race.ledger.timers := by
    rw [ledger]
  exact of_quiet [] tasks rfl rfl (Ledger.watched_of_timers timers) registered
    (Ledger.look_set_of_same known transactions same)

end Calm

theorem proceed_of_carriedOut {race : Race} {move : Move} {task : Task}
    (found : race.carriedOut move = some task) :
    ∃ index, move = .proceed index ∧ race.tasks[index]? = some task := by
  cases move with
  | proceed index => exact ⟨index, rfl, found⟩
  | begin | failWrite | answer | reject | cancelAll | wake | wait | collect | leave => cases found

theorem exists_of_aborts {race : Race} {move : Move} {timer : Nat}
    (inside : timer ∈ race.aborts move) :
    ∃ task, race.carriedOut move = some task ∧ race.ledger.stops task = some timer :=
  Option.bind_eq_some_iff.1 (Option.mem_toList.1 inside)

theorem not_asleep_of_aborts {race : Race} {move : Move} {timer : Nat}
    (inside : timer ∈ race.aborts move) :
    (race.step move).ledger.timerState timer ≠ some .asleep := by
  obtain ⟨task, carried, stops⟩ := exists_of_aborts inside
  obtain ⟨index, rfl, found⟩ := proceed_of_carriedOut carried
  have timers : (race.step (.proceed index)).ledger.timers = (race.ledger.abort timer).timers := by
    have other : task.starts = none := by
      cases task with
      | start => cases stops
      | register | arm | write | expire | refuse | resolve => rfl
    simp only [step, found]
    refine (timers_perform { race with tasks := race.tasks.eraseIdx index } other).trans ?_
    rw [stops, Ledger.stop]
  rw [Ledger.timerState, timers]
  exact race.ledger.timerState_abort timer

/-- Only tasks that are carried out concern timers that transactions keep. -/
theorem calm_step {race : Race} {move : Move} (idle : race.carriedOut move = none) :
    race.Calm (race.step move) := by
  cases move with
  | begin key limit =>
      refine ⟨.refl _, List.Subset.refl _, rfl, rfl, fun number => ?_⟩
      have created := race.ledger.look_create number Transaction.slot key limit
      by_cases latest : number = race.ledger.transactions.length
      · refine .inr ⟨by simp [Ledger.look, latest], ?_⟩
        exact created.trans (if_pos latest)
      · exact .inl (created.trans (if_neg latest))
  | proceed index =>
      have nothing : race.tasks[index]? = none := idle
      simp only [step, nothing]
      exact .of_subperm (.refl _)
  | failWrite index cause =>
      simp only [step]
      split
      · split
        · exact .of_subperm (.refl _)
        · exact (Calm.of_subperm (List.eraseIdx_sublist _ _).subperm).trans
            (.of_quiet [_] rfl rfl rfl rfl rfl fun _ => rfl)
      · exact .of_subperm (.refl _)
  | answer key payload => exact .hold (Ledger.removes_unregister _ _) _
  | reject key code => exact .hold (Ledger.removes_unregister _ _) _
  | cancelAll =>
      refine .of_quiet (race.ledger.table.map (.resolve · (.error .cancelled))) rfl ?_ ?_ rfl rfl
        fun _ => rfl
      · simp [List.filterMap_map, Function.comp_def, Task.starts]
      · simp [List.filterMap_map, Function.comp_def, Task.hands]
  | wake timer =>
      simp only [step]
      split
      · exact .of_subperm (.refl _)
      · rename_i entry known
        split
        · exact .of_subperm (.refl _)
        · split
          · exact .of_quiet [_] rfl rfl rfl (Ledger.watched_of_set known rfl) rfl fun _ => rfl
          · exact .of_subperm (.refl _)
  | wait milliseconds => exact .of_quiet [] rfl rfl rfl rfl rfl fun _ => rfl
  | collect number =>
      rcases race.ledger.takeReply_cases number with
        ⟨transaction, outcome, known, -, taken⟩ | nothing
      · simp only [step, taken]
        exact .of_set known rfl rfl rfl rfl
      · simp only [step, nothing]
        exact .of_subperm (.refl _)
  | leave number =>
      cases known : race.ledger.transactions[number]? with
      | none =>
          simp only [step, Ledger.dropReply_of_unknown _ _ known]
          exact .of_subperm (.refl _)
      | some transaction =>
          simp only [step, Ledger.dropReply_of_known _ _ known]
          exact .of_set known rfl rfl rfl rfl

namespace Tended

variable {race next : Race} {armed : List (Nat × Nat)} {aborted : List Nat}

theorem start : Tended {} [] [] where
  single := List.nodup_nil
  enrolled _ member := by cases member
  handing _ member := by cases member
  kept _ _ _ known := by simp [Ledger.look] at known
  armed _ member := by cases member

theorem calm (tended : race.Tended armed aborted) (calm : race.Calm next) :
    next.Tended armed aborted := by
  have timed : next.timed.Subperm race.timed := by
    rw [Race.timed, calm.watched]
    exact calm.starts.append (.refl _)
  constructor
  · obtain ⟨timed, same, fewer⟩ := timed
    exact same.nodup_iff.1 (tended.single.sublist fewer)
  · intro number member
    rw [calm.registered]
    exact tended.enrolled number (timed.subset member)
  · intro pair member
    rw [calm.watched]
    exact tended.handing pair (calm.hands member)
  · intro number state timer known
    rcases calm.slots number with same | ⟨-, fresh⟩
    · exact tended.kept number state timer (same ▸ known)
    · rw [fresh] at known
      cases known
  · intro pair member
    obtain ⟨watches, custody⟩ := tended.armed pair member
    rw [calm.watched]
    refine ⟨watches, ?_⟩
    rcases calm.slots pair.1 with same | ⟨absent, -⟩
    · rwa [same]
    · exact absurd absent custody.ne_none

/-- A settled transaction keeps no timer. -/
theorem unkept_of_settled (tended : race.Tended armed aborted) {number : Nat}
    {transaction : Transaction} (known : race.ledger.transactions[number]? = some transaction)
    (settled : transaction.state ≠ .pending) : transaction.timer = none := by
  have shown := Ledger.look_of_known known Transaction.slot
  cases timer : transaction.timer with
  | none => rfl
  | some handle =>
      rw [Transaction.slot, timer] at shown
      exact absurd (tended.kept number _ handle shown).1 settled

/-- A task is dropped. -/
theorem of_cons {task : Task}
    (tended : Tended { race with tasks := task :: race.tasks } armed aborted) :
    race.Tended armed aborted :=
  tended.calm (.of_subperm (List.sublist_cons_self _ _).subperm)

/-- A transaction has one timer. -/
theorem timer_eq (tended : race.Tended armed aborted) {number timer other : Nat}
    (first : race.ledger.watched[timer]? = some number)
    (second : race.ledger.watched[other]? = some number) : timer = other := by
  have distinct : race.ledger.watched.Nodup :=
    tended.single.sublist (List.sublist_append_right _ _)
  have inside := (List.getElem?_eq_some_iff.1 first).1
  exact (List.getElem?_inj inside distinct).1 (first.trans second.symm)

/-- A transaction that is registered has had no timer before. -/
theorem register {number : Nat} {ledger : Ledger}
    (tended : Tended { race with tasks := .register number :: race.tasks } armed aborted)
    (sound : Sound { race with tasks := .register number :: race.tasks })
    (registered : race.ledger.register number = .ok ledger) :
    Tended
      { race with
        ledger
        tasks := .start number :: race.tasks
        registered := number :: race.registered } armed aborted := by
  obtain ⟨waiting, rfl⟩ := race.ledger.register_changes number registered
  have rest := tended.of_cons
  have fresh : number ∉ race.registered := by
    intro member
    have unoffered := (sound.settledOffer number member).2
    simp [offered_cons, Task.offers] at unoffered
  have untimed : number ∉ race.timed := fun member => fresh (rest.enrolled number member)
  refine ⟨List.nodup_cons.2 ⟨untimed, rest.single⟩, ?_, rest.handing, rest.kept, rest.armed⟩
  intro other member
  rcases List.mem_cons.1 member with rfl | earlier
  · exact List.mem_cons_self
  · exact List.mem_cons_of_mem _ (rest.enrolled other earlier)

/-- A timer is started, and is about to be handed to its transaction. -/
theorem startTimer {number : Nat} {transaction : Transaction}
    (tended : Tended { race with tasks := .start number :: race.tasks } armed aborted) :
    Tended
      { race with
        ledger := (race.ledger.startTimer number transaction).2
        tasks := .arm number (race.ledger.startTimer number transaction).1 :: race.tasks }
      armed aborted := by
  have ticks : race.ledger.Ticks (race.ledger.startTimer number transaction).2 := .started _ rfl
  have watched : (race.ledger.startTimer number transaction).2.watched =
      race.ledger.watched ++ [number] := by
    simp [Ledger.watched, Ledger.startTimer]
  have moved : (race.tasks.filterMap Task.starts ++ (race.ledger.watched ++ [number])).Perm
      (number :: (race.tasks.filterMap Task.starts ++ race.ledger.watched)) := by
    rw [← List.append_assoc]
    exact List.perm_append_singleton _ _
  have timed : (timed { race with
        ledger := (race.ledger.startTimer number transaction).2
        tasks := .arm number (race.ledger.startTimer number transaction).1 :: race.tasks }).Perm
      (Race.timed { race with tasks := .start number :: race.tasks }) := by
    simp only [Race.timed, watched]
    exact moved
  constructor
  · exact timed.nodup_iff.2 tended.single
  · intro other member
    exact tended.enrolled other (timed.subset member)
  · intro pair member
    rcases List.mem_cons.1 member with rfl | earlier
    · rw [watched]
      simp [Ledger.startTimer, Ledger.watched]
    · exact ticks.watched (tended.handing pair earlier)
  · exact tended.kept
  · intro pair member
    obtain ⟨watches, custody⟩ := tended.armed pair member
    exact ⟨ticks.watched watches, custody⟩

/-- A started timer is handed to its transaction, which keeps it if it is still
pending and aborts it otherwise. -/
theorem keepTimer {number timer : Nat}
    (tended : Tended { race with tasks := .arm number timer :: race.tasks } armed aborted)
    (existing : race.ledger.stateOf number ≠ none) :
    Tended
      { race with
        ledger := race.ledger.keepTimer number timer
        tasks := .write number :: race.tasks }
      (armed ++ [(number, timer)]) (aborted ++ (race.ledger.declined number timer).toList) := by
  have watched : (race.ledger.keepTimer number timer).watched = race.ledger.watched := by
    rw [← race.ledger.watched_stop (race.ledger.declined number timer)]
    exact Ledger.watched_of_timers (race.ledger.timers_keepTimer number timer)
  have watches : race.ledger.watched[timer]? = some number :=
    tended.handing (number, timer) List.mem_cons_self
  have rest := tended.of_cons
  obtain ⟨state, seen⟩ := Option.ne_none_iff_exists'.1 existing
  obtain ⟨transaction, known, rfl⟩ := Ledger.exists_of_look seen
  have slots := Ledger.slot_keepTimer known timer
  have custody : Custody (aborted ++ (race.ledger.declined number timer).toList) timer
      ((race.ledger.keepTimer number timer).look Transaction.slot number) := by
    rw [slots]
    by_cases pending : transaction.state = .pending
    · rw [if_pos ⟨rfl, pending⟩]
      exact .kept
    · rw [if_neg fun both => pending both.2, Ledger.look_of_known known, Transaction.slot,
        rest.unkept_of_settled known pending]
      exact .stopped _ pending (by simp [Ledger.declined, known, pending])
  constructor
  · rw [timed, watched]
    exact rest.single
  · rw [timed, watched]
    exact rest.enrolled
  · rw [watched]
    exact rest.handing
  · intro other state handle shown
    rw [slots] at shown
    split at shown
    · rename_i here
      obtain ⟨rfl, same⟩ := Prod.mk.inj (Option.some.inj shown)
      obtain rfl := Option.some.inj same
      exact ⟨rfl, by simp [here.1]⟩
    · obtain ⟨pending, member⟩ := rest.kept other state handle shown
      exact ⟨pending, List.mem_append_left _ member⟩
  · intro pair member
    rw [watched]
    rcases List.mem_append.1 member with earlier | latest
    · obtain ⟨watchesToo, before⟩ := rest.armed pair earlier
      refine ⟨watchesToo, ?_⟩
      by_cases same : pair.1 = number
      · rw [same] at watchesToo ⊢
        rwa [← rest.timer_eq watches watchesToo]
      · rw [slots, if_neg fun both => same both.1]
        exact before.append _
    · obtain rfl := List.mem_singleton.1 latest
      exact ⟨watches, custody⟩

/-- A transaction gets its outcome, if it has none, and gives its timer up. -/
theorem settle (tended : race.Tended armed aborted) (number : Nat) (outcome : Outcome) :
    (race.settle number outcome).Tended armed
      (aborted ++ (race.ledger.released number outcome).toList) := by
  have watched : (race.settle number outcome).ledger.watched = race.ledger.watched := by
    rw [← race.ledger.watched_stop (race.ledger.released number outcome)]
    exact Ledger.watched_of_timers (race.ledger.timers_resolve_eq number outcome)
  constructor
  · rw [timed, watched]
    exact tended.single
  · rw [timed, watched]
    exact tended.enrolled
  · rw [watched]
    exact tended.handing
  · intro other state handle shown
    rcases race.ledger.slot_resolve number outcome other with same | ⟨_, -, settled, -⟩
    · exact tended.kept other state handle (same.symm.trans shown)
    · cases settled.symm.trans shown
  · intro pair member
    obtain ⟨watches, custody⟩ := tended.armed pair member
    rw [watched]
    refine ⟨watches, ?_⟩
    rcases race.ledger.slot_resolve number outcome pair.1 with
      same | ⟨handle, pending, settled, released⟩
    · rw [Race.settle, same]
      exact custody.append _
    · rw [Race.settle, settled]
      rw [pending] at custody
      exact custody.settle fun ended => by rw [released ended]; exact List.Subset.refl _

theorem perform {task : Task}
    (tended : Tended { race with tasks := task :: race.tasks } armed aborted)
    (sound : Sound { race with tasks := task :: race.tasks }) :
    (race.perform task).Tended (armed ++ task.hands.toList)
      (aborted ++ (race.ledger.stops task).toList) := by
  have rest := tended.of_cons
  cases task with
  | register number =>
      simp only [Task.hands, Ledger.stops, Option.toList_none, List.append_nil, Race.perform]
      split
      · exact rest.calm (.of_quiet [_] rfl rfl rfl rfl rfl fun _ => rfl)
      · rename_i ledger registered
        exact tended.register sound registered
  | start number =>
      simp only [Task.hands, Ledger.stops, Option.toList_none, List.append_nil, Race.perform]
      split
      · exact rest
      · exact tended.startTimer
  | arm number timer =>
      have watches : race.ledger.watched[timer]? = some number :=
        tended.handing (number, timer) List.mem_cons_self
      have timed : number ∈ race.timed :=
        List.mem_append_right _ (List.mem_of_getElem? watches)
      exact tended.keepTimer (sound.settledOffer number (rest.enrolled number timed)).1
  | write number =>
      simp only [Task.hands, Ledger.stops, Option.toList_none, List.append_nil]
      exact rest
  | expire key number error =>
      simp only [Task.hands, Ledger.stops, Option.toList_none, List.append_nil]
      exact rest.calm (.hold (Ledger.removes_expire _ _ _) _)
  | refuse number error =>
      simp only [Task.hands, Option.toList_none, List.append_nil]
      exact rest.settle number _
  | resolve number outcome =>
      simp only [Task.hands, Option.toList_none, List.append_nil]
      exact rest.settle number outcome

theorem step (tended : race.Tended armed aborted) (sound : race.Sound) (move : Move) :
    (race.step move).Tended (armed ++ race.arms move) (aborted ++ race.aborts move) := by
  cases carried : race.carriedOut move with
  | none =>
      simp only [arms, aborts, carried, Option.bind_none, Option.toList_none, List.append_nil]
      exact tended.calm (calm_step carried)
  | some task =>
      obtain ⟨index, rfl, found⟩ := proceed_of_carriedOut carried
      have same := perm_eraseIdx found
      have front : Tended { race with tasks := task :: race.tasks.eraseIdx index } armed aborted :=
        tended.calm (.of_subperm same.symm.subperm)
      have sound : Sound { race with tasks := task :: race.tasks.eraseIdx index } :=
        sound.perm same
      simp only [Race.step, arms, aborts, carried, found, Option.bind_some]
      exact perform front sound

theorem run (tended : race.Tended armed aborted) (sound : race.Sound) (moves : List Move) :
    (race.run moves).Tended (armed ++ race.along arms moves)
      (aborted ++ race.along aborts moves) := by
  induction moves generalizing race armed aborted with
  | nil =>
      simp only [along, List.append_nil]
      exact tended
  | cons move moves ih =>
      simp only [along, ← List.append_assoc]
      exact ih (tended.step sound move) (sound.step move)

/-- A timer that is aborted has been started for a transaction. -/
theorem exists_watched (tended : race.Tended armed aborted) {move : Move} {timer : Nat}
    (inside : timer ∈ race.aborts move) : ∃ number, race.ledger.watched[timer]? = some number := by
  obtain ⟨task, carried, stops⟩ := exists_of_aborts inside
  obtain ⟨index, rfl, found⟩ := proceed_of_carriedOut carried
  have kept {number : Nat} {outcome : Outcome}
      (released : race.ledger.released number outcome = some timer) :
      ∃ number, race.ledger.watched[timer]? = some number := by
    obtain ⟨transaction, known, handle⟩ := Ledger.exists_of_released released
    have shown := Ledger.look_of_known known Transaction.slot
    rw [Transaction.slot, handle] at shown
    exact ⟨number, (tended.armed _ (tended.kept number _ timer shown).2).1⟩
  cases task with
  | arm number other =>
      obtain rfl : other = timer := Ledger.eq_of_declined stops
      have member : (number, other) ∈ race.handing :=
        List.mem_filterMap.2 ⟨_, List.mem_of_getElem? found, rfl⟩
      exact ⟨number, tended.handing _ member⟩
  | refuse number error => exact kept stops
  | resolve number outcome => exact kept stops
  | register | start | write | expire => cases stops

/-- A timer that has been aborted is not asleep any more. -/
theorem awake_of_aborted (tended : race.Tended armed aborted) (sound : race.Sound)
    {moves : List Move} {timer : Nat} (inside : timer ∈ race.along aborts moves) :
    ∃ state, (race.run moves).ledger.timerState timer = some state ∧ state ≠ .asleep := by
  induction moves generalizing race armed aborted with
  | nil => cases inside
  | cons move moves ih =>
      rcases List.mem_append.1 inside with now | later
      · obtain ⟨number, watches⟩ := tended.exists_watched now
        obtain ⟨entry, known, -⟩ :=
          Ledger.watched_getElem?_iff.1 ((race.ticks_step move).watched watches)
        have state : (race.step move).ledger.timerState timer = some entry.state := by
          rw [Ledger.timerState, known, Option.map_some]
        have awake : entry.state ≠ .asleep := fun asleep =>
          not_asleep_of_aborts now (state.trans (congrArg some asleep))
        exact ⟨entry.state, timerState_run state awake moves, awake⟩
      · exact ih (tended.step sound move) (sound.step move) later

end Tended

/-- In every run, whatever happens between the start of a timer, the moment at
which its transaction is handed it, and the outcome of the transaction: a
transaction that has been handed a timer has no other, and keeps it while it is
pending.  Once it is settled it keeps none, and the timer has gone off and given
it its one outcome, the timeout, or the timer has been aborted and does not go
off any more. -/
theorem timers_end_with_transactions (moves : List Move) {number timer : Nat}
    (armed : (number, timer) ∈ along arms {} moves) :
    ∃ transaction entry,
      (run {} moves).ledger.transactions[number]? = some transaction ∧
      (run {} moves).ledger.timers[timer]? = some entry ∧
      (∀ other, (run {} moves).ledger.watched[other]? = some number ↔ other = timer) ∧
      transaction.timer = (if transaction.state = .pending then some timer else none) ∧
      (transaction.state ≠ .pending →
        (transaction.state = .timedOut ∧ entry.state = .fired ∧
          (run {} moves).winsOf number = [.error transaction.timeoutError]) ∨
        (timer ∈ along aborts {} moves ∧ entry.state ≠ .asleep)) := by
  have sound := sound_start.run moves
  have tended := Tended.start.run sound_start moves
  obtain ⟨watches, custody⟩ := tended.armed (number, timer) (List.mem_append_right _ armed)
  obtain ⟨entry, started, -⟩ := Ledger.watched_getElem?_iff.1 watches
  obtain ⟨slot, shown⟩ := Option.ne_none_iff_exists'.1 custody.ne_none
  obtain ⟨transaction, known, rfl⟩ := Ledger.exists_of_look shown
  have single (other : Nat) :
      (run {} moves).ledger.watched[other]? = some number ↔ other = timer := by
    constructor
    · intro watchesToo
      exact tended.timer_eq watchesToo watches
    · rintro rfl
      exact watches
  refine ⟨transaction, entry, known, started, single, ?_, fun settled => ?_⟩
  · rw [shown] at custody
    exact custody.timer_eq
  · rw [shown] at custody
    rcases custody.of_settled settled with timedOut | aborted
    · -- Its outcome is a timeout, and nobody but a timer of its own has given it that.
      obtain ⟨own, same, won⟩ := (Truthful.start.run moves).winsOf_of_timedOut sound
        ((Ledger.stateOf_of_known known).trans (congrArg some timedOut))
      obtain rfl : transaction = own := Option.some.inj (known.symm.trans same)
      have inside := mem_wins_iff.1 (won ▸ List.mem_cons_self)
      obtain ⟨other, watchesToo, fired⟩ :=
        backed_start.run moves number transaction.key transaction.limit (.inr inside)
      rw [(single other).1 watchesToo, Ledger.timerState, started, Option.map_some,
        Option.some.injEq] at fired
      exact .inl ⟨timedOut, fired, won⟩
    · obtain ⟨state, now, awake⟩ := Tended.start.awake_of_aborted sound_start aborted
      rw [Ledger.timerState, started, Option.map_some, Option.some.injEq] at now
      exact .inr ⟨aborted, now ▸ awake⟩

/-- A first timer goes off and ends its transaction before that is handed it.  A
second transaction under the key is answered before it is handed its timer, a
third one afterwards, when its timer has just gone off, and a fourth one waits. -/
theorem timers_end_with_transactions_of_every_order :
    let key : CommandKey := { subsystem := .system, command := 1 }
    let started : List Move := [.begin key 10, .proceed 0, .proceed 0]
    let moves : List Move :=
      started ++ [.wait 10, .wake 0, .proceed 0, .proceed 0, .proceed 0] ++
      started ++ [.answer key [7], .proceed 0, .proceed 0] ++
      started ++ [.proceed 0, .wait 10, .wake 2, .answer key [8], .proceed 0] ++
      started ++ [.proceed 0]
    along arms {} moves = [(0, 0), (1, 1), (2, 2), (3, 3)] ∧
      along aborts {} moves = [0, 1, 2] ∧
      (run {} moves).ledger.transactions.map Transaction.slot =
        [(.timedOut, none), (.resolved, none), (.resolved, none), (.pending, some 3)] ∧
      (run {} moves).ledger.timers.map Timer.state = [.fired, .aborted, .fired, .asleep] ∧
      (2, 2) ∈ along arms {} moves ∧
      ∃ transaction, (run {} moves).ledger.transactions[2]? = some transaction ∧
        transaction.timer = if transaction.state = .pending then some 2 else none := by
  intro key started moves
  have handed : along arms {} moves = [(0, 0), (1, 1), (2, 2), (3, 3)] := by decide +kernel
  have third : (2, 2) ∈ along arms {} moves := by simp [handed]
  refine ⟨handed, by decide +kernel, by decide +kernel, by decide +kernel, third, ?_⟩
  obtain ⟨transaction, -, known, -, -, kept, -⟩ := timers_end_with_transactions moves third
  exact ⟨transaction, known, kept⟩

end Race

end ZigbeeHost
