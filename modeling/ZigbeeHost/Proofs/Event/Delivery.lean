import ZigbeeHost.Event.Channel

/-!
# What reaches the application

Two tasks hand events and errors to a dispatcher while the application receives
from both of its channels, in any order.  On each of the channels the items that
were received and those that wait are, in order, the items that were handed over,
without those that came while the queue was full.  What happens on one channel
does not depend on the other, and handing something over never waits.

Everything is proved once for either channel: a side of the dispatcher says which
operations use its channel, and that the others leave it alone.
-/

namespace ZigbeeHost

namespace Channel

variable {α : Type}

/-- One use of a channel, by a sender or by the receiver. -/
inductive Use (α : Type) where
  | offer (item : α)
  | receive

/-- What the receiver gets, and the channel afterwards.  There is no result while
the use has to wait. -/
def use? (channel : Channel α) : Use α → Option (List α × Channel α)
  | .offer item => some ([], channel.offer item)
  | .receive =>
      match channel.receive with
      | (some item, rest) => some ([item], rest)
      | (none, _) => none

/-- A use that has to wait has no effect. -/
def use (channel : Channel α) (how : Use α) : List α × Channel α :=
  (channel.use? how).getD ([], channel)

/-- The uses one after the other. -/
def run (channel : Channel α) : List (Use α) → List α × Channel α
  | [] => ([], channel)
  | how :: later =>
      let now := channel.use how
      let rest := now.2.run later
      (now.1 ++ rest.1, rest.2)

/-- The receiver is there, and the queue keeps to the capacity. -/
structure Serves (channel : Channel α) (capacity : Nat) : Prop where
  isOpen : channel.isOpen = true
  capacity_eq : channel.capacity = capacity
  length_le : channel.queue.length ≤ capacity

theorem serves_ofCapacity (capacity : Nat) :
    (ofCapacity capacity : Channel α).Serves (max capacity 1) :=
  ⟨rfl, rfl, Nat.zero_le _⟩

section Uses

variable {channel : Channel α} {capacity : Nat}

theorem offer_of_full (full : channel.queue.length = channel.capacity) (item : α) :
    channel.offer item = channel := by
  simp [offer, isFull, full]

theorem offer_of_room (serves : channel.Serves capacity)
    (room : channel.queue.length ≠ capacity) (item : α) :
    channel.offer item = { channel with queue := channel.queue ++ [item] } := by
  have length := serves.length_le
  have below : ¬ channel.capacity ≤ channel.queue.length := by
    rw [serves.capacity_eq]
    omega
  simp [offer, isFull, serves.isOpen, below]

/-- Receiving takes the oldest item, if there is one. -/
theorem use_receive (channel : Channel α) :
    channel.use .receive =
      (channel.queue.head?.toList, { channel with queue := channel.queue.tail }) := by
  obtain ⟨capacity, queue, isOpen⟩ := channel
  cases queue <;> rfl

theorem append_queue_receive (channel : Channel α) :
    (channel.use .receive).1 ++ (channel.use .receive).2.queue = channel.queue := by
  rw [use_receive]
  cases channel.queue <;> rfl

theorem Serves.use (serves : channel.Serves capacity) (how : Use α) :
    (channel.use how).2.Serves capacity := by
  cases how with
  | offer item =>
      change (channel.offer item).Serves capacity
      by_cases full : channel.queue.length = capacity
      · rw [offer_of_full (full.trans serves.capacity_eq.symm)]
        exact serves
      · have length := serves.length_le
        rw [offer_of_room serves full]
        refine ⟨serves.isOpen, serves.capacity_eq, ?_⟩
        rw [List.length_append, List.length_singleton]
        omega
  | receive =>
      have length := serves.length_le
      rw [use_receive]
      refine ⟨serves.isOpen, serves.capacity_eq, ?_⟩
      rw [List.length_tail]
      omega

end Uses

end Channel

namespace Dispatcher

/-- What the tasks of the engine and the application do. -/
inductive Operation where
  | deliver (event : Event)
  | report (error : Error)
  | receiveEvent
  | receiveError

/-- What the application has received, in order. -/
structure Receipts where
  events : List Event := []
  errors : List Error := []

def Receipts.append (first later : Receipts) : Receipts :=
  { events := first.events ++ later.events, errors := first.errors ++ later.errors }

/-- What the application receives in an operation, and the channels afterwards.
There is no result while the operation has to wait. -/
def perform? (dispatcher : Dispatcher) : Operation → Option (Receipts × Dispatcher)
  | .deliver event => some ({}, dispatcher.deliver event)
  | .report error => some ({}, dispatcher.report error)
  | .receiveEvent =>
      (dispatcher.events.use? .receive).map fun (events, rest) =>
        ({ events }, { dispatcher with events := rest })
  | .receiveError =>
      (dispatcher.errors.use? .receive).map fun (errors, rest) =>
        ({ errors }, { dispatcher with errors := rest })

/-- An operation that has to wait has no effect. -/
def perform (dispatcher : Dispatcher) (operation : Operation) : Receipts × Dispatcher :=
  (dispatcher.perform? operation).getD ({}, dispatcher)

/-- The operations one after the other. -/
def run (dispatcher : Dispatcher) : List Operation → Receipts × Dispatcher
  | [] => ({}, dispatcher)
  | operation :: later =>
      let now := dispatcher.perform operation
      let rest := now.2.run later
      (now.1.append rest.1, rest.2)

/-- Only a receiver whose queue is empty has to wait. -/
theorem perform?_eq_none_iff {dispatcher : Dispatcher} {operation : Operation} :
    dispatcher.perform? operation = none ↔
      (operation = .receiveEvent ∧ dispatcher.events.queue = []) ∨
        (operation = .receiveError ∧ dispatcher.errors.queue = []) := by
  cases operation with
  | deliver event => simp [perform?]
  | report error => simp [perform?]
  | receiveEvent =>
      cases waiting : dispatcher.events.queue <;>
        simp [perform?, Channel.use?, Channel.receive, waiting]
  | receiveError =>
      cases waiting : dispatcher.errors.queue <;>
        simp [perform?, Channel.use?, Channel.receive, waiting]

/-- One of the two channels, and what the operations have to do with it. -/
structure Side (α : Type) where
  channel : Dispatcher → Channel α
  received : Receipts → List α
  use? : Operation → Option (Channel.Use α)
  received_empty : received {} = []
  received_append : ∀ first later,
    received (first.append later) = received first ++ received later
  perform_eq : ∀ dispatcher operation,
    (received (dispatcher.perform operation).1, channel (dispatcher.perform operation).2) =
      match use? operation with
      | some how => (channel dispatcher).use how
      | none => ([], channel dispatcher)

namespace Side

/-- The channel of events. -/
def events : Side Event where
  channel := Dispatcher.events
  received := Receipts.events
  use?
    | .deliver event => some (.offer event)
    | .receiveEvent => some .receive
    | .report _ | .receiveError => none
  received_empty := rfl
  received_append _ _ := rfl
  perform_eq dispatcher operation := by
    cases operation with
    | deliver event => rfl
    | report error => rfl
    | receiveEvent =>
        simp only [perform, perform?, Channel.use]
        cases dispatcher.events.use? .receive <;> rfl
    | receiveError =>
        simp only [perform, perform?]
        cases dispatcher.errors.use? .receive <;> rfl

/-- The channel of errors. -/
def errors : Side Error where
  channel := Dispatcher.errors
  received := Receipts.errors
  use?
    | .report error => some (.offer error)
    | .receiveError => some .receive
    | .deliver _ | .receiveEvent => none
  received_empty := rfl
  received_append _ _ := rfl
  perform_eq dispatcher operation := by
    cases operation with
    | deliver event => rfl
    | report error => rfl
    | receiveEvent =>
        simp only [perform, perform?]
        cases dispatcher.events.use? .receive <;> rfl
    | receiveError =>
        simp only [perform, perform?, Channel.use]
        cases dispatcher.errors.use? .receive <;> rfl

variable {α : Type}

/-- The item that an operation hands over, if it does, with the number of items
that the queue holds at that moment. -/
def handed (side : Side α) (dispatcher : Dispatcher) (operation : Operation) : List (α × Nat) :=
  match side.use? operation with
  | some (.offer item) => [(item, (side.channel dispatcher).queue.length)]
  | _ => []

/-- The items that the operations hand over, in order. -/
def handedOver (side : Side α) (dispatcher : Dispatcher) : List Operation → List (α × Nat)
  | [] => []
  | operation :: later =>
      side.handed dispatcher operation ++ side.handedOver (dispatcher.perform operation).2 later

/-- Those of the items that come while the queue holds fewer than its capacity. -/
def admitted (capacity : Nat) (items : List (α × Nat)) : List α :=
  (items.filter fun (_, held) => held ≠ capacity).map Prod.fst

section Runs

variable {side : Side α} {dispatcher : Dispatcher} {operation : Operation} {capacity : Nat}

/-- An operation that does not concern the channel leaves it alone. -/
theorem perform_of_other (dispatcher : Dispatcher) (other : side.use? operation = none) :
    side.received (dispatcher.perform operation).1 = [] ∧
      side.channel (dispatcher.perform operation).2 = side.channel dispatcher := by
  have same := side.perform_eq dispatcher operation
  rw [other] at same
  exact Prod.mk.inj same

theorem perform_of_use {how : Channel.Use α} (dispatcher : Dispatcher)
    (own : side.use? operation = some how) :
    side.received (dispatcher.perform operation).1 = ((side.channel dispatcher).use how).1 ∧
      side.channel (dispatcher.perform operation).2 = ((side.channel dispatcher).use how).2 := by
  have same := side.perform_eq dispatcher operation
  rw [own] at same
  exact Prod.mk.inj same

theorem serves_perform (serves : (side.channel dispatcher).Serves capacity)
    (operation : Operation) :
    (side.channel (dispatcher.perform operation).2).Serves capacity := by
  cases own : side.use? operation with
  | none =>
      rw [(perform_of_other dispatcher own).2]
      exact serves
  | some how =>
      rw [(perform_of_use dispatcher own).2]
      exact serves.use how

/-- In one operation nothing is lost but an item that is handed over to a full
queue, and the order is kept. -/
theorem accounts_perform (serves : (side.channel dispatcher).Serves capacity)
    (operation : Operation) :
    side.received (dispatcher.perform operation).1 ++
        (side.channel (dispatcher.perform operation).2).queue =
      (side.channel dispatcher).queue ++ admitted capacity (side.handed dispatcher operation) := by
  cases own : side.use? operation with
  | none =>
      obtain ⟨nothing, same⟩ := perform_of_other dispatcher own
      simp [nothing, same, admitted, handed, own]
  | some how =>
      obtain ⟨items, same⟩ := perform_of_use dispatcher own
      rw [items, same]
      cases how with
      | receive =>
          rw [Channel.append_queue_receive]
          simp [admitted, handed, own]
      | offer item =>
          change [] ++ ((side.channel dispatcher).offer item).queue = _
          by_cases full : (side.channel dispatcher).queue.length = capacity
          · rw [Channel.offer_of_full (full.trans serves.capacity_eq.symm)]
            simp [admitted, handed, own, full]
          · rw [Channel.offer_of_room serves full]
            simp [admitted, handed, own, full]

theorem serves_run (serves : (side.channel dispatcher).Serves capacity)
    (operations : List Operation) :
    (side.channel (dispatcher.run operations).2).Serves capacity := by
  induction operations generalizing dispatcher with
  | nil => exact serves
  | cons operation later ih => exact ih (serves_perform serves operation)

/-- In a run, too, nothing else is lost, and the order is kept. -/
theorem accounts_run (serves : (side.channel dispatcher).Serves capacity)
    (operations : List Operation) :
    side.received (dispatcher.run operations).1 ++
        (side.channel (dispatcher.run operations).2).queue =
      (side.channel dispatcher).queue ++
        admitted capacity (side.handedOver dispatcher operations) := by
  induction operations generalizing dispatcher with
  | nil => simp [run, side.received_empty, handedOver, admitted]
  | cons operation later ih =>
      have now := accounts_perform serves operation
      have rest := ih (serves_perform serves operation)
      simp only [run, handedOver, side.received_append, List.append_assoc, rest]
      rw [← List.append_assoc, now, List.append_assoc]
      simp only [admitted, List.filter_append, List.map_append]

/-- On one channel only its own uses matter. -/
theorem run_eq (side : Side α) (dispatcher : Dispatcher) (operations : List Operation) :
    (side.received (dispatcher.run operations).1, side.channel (dispatcher.run operations).2) =
      (side.channel dispatcher).run (operations.filterMap side.use?) := by
  induction operations generalizing dispatcher with
  | nil => exact congrArg (·, side.channel dispatcher) side.received_empty
  | cons operation later ih =>
      have rest := ih (dispatcher.perform operation).2
      simp only [run, side.received_append]
      obtain ⟨received, channel⟩ := Prod.mk.inj rest
      cases own : side.use? operation with
      | none =>
          obtain ⟨nothing, same⟩ := perform_of_other dispatcher own
          rw [List.filterMap_cons_none own, ← same, ← rest, nothing, List.nil_append]
      | some how =>
          obtain ⟨items, same⟩ := perform_of_use dispatcher own
          rw [List.filterMap_cons_some own, Channel.run, ← same, ← rest, items]

end Runs

/-- What holds of one side after a run that has begun with empty channels. -/
structure Lossless (side : Side α) (start : Dispatcher) (capacity : Nat)
    (operations : List Operation) : Prop where
  /-- What was received and what waits is what was handed over, without the items
  that came while the queue was full. -/
  in_order : side.received (start.run operations).1 ++
      (side.channel (start.run operations).2).queue =
    admitted capacity (side.handedOver start operations)
  bounded : (side.channel (start.run operations).2).queue.length ≤ capacity
  /-- The outcome is that of the uses of this channel alone. -/
  alone : (side.received (start.run operations).1, side.channel (start.run operations).2) =
    (Channel.ofCapacity capacity).run (operations.filterMap side.use?)

theorem lossless_of_empty {side : Side α} {start : Dispatcher} {capacity : Nat}
    (empty : side.channel start = Channel.ofCapacity capacity) (operations : List Operation) :
    side.Lossless start (max capacity 1) operations := by
  have serves : (side.channel start).Serves (max capacity 1) := by
    rw [empty]
    exact Channel.serves_ofCapacity capacity
  have same : (Channel.ofCapacity (max capacity 1) : Channel α) = .ofCapacity capacity := by
    simp [Channel.ofCapacity]
  refine ⟨?_, (serves_run serves operations).length_le, ?_⟩
  · rw [accounts_run serves operations, empty]
    rfl
  · rw [same, ← empty]
    exact side.run_eq start operations

end Side

/-- A dispatcher is used in any order by those who hand events and errors to it and
by those who receive them.  On either side the items received and those that wait
are, in order, the items handed over without those that came while the queue held
as many as its capacity, where a capacity of zero counts as one.  The outcome on
one side is that of its own operations, whatever is done on the other.  No
operation ever has to wait but a receiver whose queue is empty. -/
theorem lossless_below_capacity (eventCapacity errorCapacity : Nat)
    (operations : List Operation) :
    let start := ofCapacities eventCapacity errorCapacity
    Side.events.Lossless start (max eventCapacity 1) operations ∧
      Side.errors.Lossless start (max errorCapacity 1) operations ∧
      ∀ operation, (start.run operations).2.perform? operation = none ↔
        (operation = .receiveEvent ∧ (start.run operations).2.events.queue = []) ∨
          (operation = .receiveError ∧ (start.run operations).2.errors.queue = []) :=
  ⟨Side.lossless_of_empty rfl operations, Side.lossless_of_empty rfl operations,
    fun _ => perform?_eq_none_iff⟩

/-- A capacity of zero: the second event comes while the first one waits. -/
example (first second third : Event) (error : Error) :
    let outcome := (ofCapacities 0 2).run
      [.deliver first, .deliver second, .report error, .receiveEvent, .deliver third]
    outcome.1.events = [first] ∧ outcome.2.events.queue = [third] ∧
      outcome.2.errors.queue = [error] :=
  ⟨rfl, rfl, rfl⟩

end Dispatcher

end ZigbeeHost
