import ZigbeeHost.Error
import ZigbeeHost.Event.Basic

/-!
# Bounded channels

Events and errors wait for the application in two channels of limited
capacity. Offering never waits: when a channel is full the newest item is
dropped, and when its receiver is gone everything is.
-/

namespace ZigbeeHost

/-- A queue of limited capacity with one receiver. -/
structure Channel (α : Type) where
  capacity : Nat
  queue : List α := []
  isOpen : Bool := true

namespace Channel

variable {α : Type}

/-- An empty channel; there is always room for one item. -/
def ofCapacity (capacity : Nat) : Channel α := { capacity := max capacity 1 }

/-- Whether no more items fit. -/
def isFull (channel : Channel α) : Bool := channel.capacity ≤ channel.queue.length

/-- Adds an item at the end, unless the channel is full or has no receiver. -/
def offer (channel : Channel α) (item : α) : Channel α :=
  if channel.isOpen && !channel.isFull then { channel with queue := channel.queue ++ [item] }
  else channel

/-- Takes the oldest item, if there is one. -/
def receive (channel : Channel α) : Option α × Channel α :=
  match channel.queue with
  | [] => (none, channel)
  | item :: rest => (some item, { channel with queue := rest })

/-- Takes all items. -/
def drain (channel : Channel α) : List α × Channel α :=
  (channel.queue, { channel with queue := [] })

/-- Drops the receiver together with the items that wait. -/
def close (channel : Channel α) : Channel α :=
  { channel with queue := [], isOpen := false }

theorem queue_offer (channel : Channel α) (item : α) :
    (channel.offer item).queue =
      if channel.isOpen = true ∧ channel.queue.length < channel.capacity then
        channel.queue ++ [item]
      else channel.queue := by
  by_cases room : channel.queue.length < channel.capacity
  · cases opened : channel.isOpen <;> simp [offer, isFull, opened, room]
  · simp [offer, isFull, room, Nat.not_lt.1 room]

end Channel

/-- The two channels to the application. -/
structure Dispatcher where
  events : Channel Event
  errors : Channel Error

namespace Dispatcher

/-- Empty channels of the given capacities. -/
def ofCapacities (events errors : Nat) : Dispatcher :=
  { events := .ofCapacity events, errors := .ofCapacity errors }

/-- Hands an event to the application. -/
def deliver (dispatcher : Dispatcher) (event : Event) : Dispatcher :=
  { dispatcher with events := dispatcher.events.offer event }

/-- Hands an error that belongs to no request to the application. -/
def report (dispatcher : Dispatcher) (error : Error) : Dispatcher :=
  { dispatcher with errors := dispatcher.errors.offer error }

end Dispatcher

end ZigbeeHost
