import ZigbeeHost.Event.Basic

/-!
# Prototypes of events

The prototype table decides which indications become events: an indication is
decoded over a copy of the prototype that has its key. There is at most one
prototype for each key.
-/

namespace ZigbeeHost

/-- The events that indications are decoded over, with different keys. -/
structure PrototypeTable where
  prototypes : List Event := []

namespace PrototypeTable

/-- The prototype with the given key, if there is one. -/
def find? (table : PrototypeTable) (key : CommandKey) : Option Event :=
  table.prototypes.find? fun prototype => prototype.key = key

/-- Whether there is a prototype with the given key. -/
def contains (table : PrototypeTable) (key : CommandKey) : Bool := (table.find? key).isSome

/-- The number of prototypes. -/
def size (table : PrototypeTable) : Nat := table.prototypes.length

/-- The table with one more prototype in the place of the one with its key. -/
def put (table : PrototypeTable) (prototype : Event) : PrototypeTable :=
  { prototypes := prototype :: table.prototypes.filter fun other => other.key ≠ prototype.key }

/-- Adds a prototype whose record has a consistent layout; the first result is
the prototype that it replaces. -/
def insert (table : PrototypeTable) (prototype : Event) :
    Except ConfigurationError (Option Event × PrototypeTable) :=
  prototype.checkLayout.map fun _ => (table.find? prototype.key, table.put prototype)

/-- Adds prototypes one after the other. -/
def insertAll (table : PrototypeTable) : List Event → Except ConfigurationError PrototypeTable
  | [] => .ok table
  | prototype :: rest =>
      match table.insert prototype with
      | .error error => .error error
      | .ok (_, next) => next.insertAll rest

/-- The table with the default event of every kind. -/
def standard : Except ConfigurationError PrototypeTable :=
  insertAll {} (EventKind.all.map Event.ofKind)

/-- Decodes the payload of an indication over its prototype; there is no result
if no prototype has the key. -/
def instantiate (table : PrototypeTable) (key : CommandKey) (payload : Bytes) :
    Option (Except PayloadError Event) :=
  (table.find? key).map fun prototype => prototype.decode payload

/-- A new prototype is found under its key, and every other key finds what it
found before. -/
theorem find?_put (table : PrototypeTable) (prototype : Event) (key : CommandKey) :
    (table.put prototype).find? key =
      if prototype.key = key then some prototype else table.find? key := by
  unfold put find?
  by_cases same : prototype.key = key
  · simp [same]
  · simp only [List.find?_cons, same, decide_false, if_false]
    rw [List.find?_filter]
    congr 1
    funext other
    by_cases equal : other.key = key
    · simp [equal, Ne.symm same]
    · simp [equal]

end PrototypeTable

end ZigbeeHost
