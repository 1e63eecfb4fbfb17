import ZigbeeHost.Event.PrototypeTable
import Mathlib.Data.List.Nodup

/-!
# Events under their own keys

Prototypes are put into a table one after the other, and any field may hold any
value.  What the table stores is, for each key, the event that was inserted last
among those with this key, and an insertion returns the one that was last until
then.  An indication therefore becomes an event exactly if an event with its key
was inserted, and the event that it becomes has the key and the kind of the
prototype: kinds that share a record are told apart by nothing else.
-/

namespace ZigbeeHost

namespace Event

/-- The last one of some events with a key. -/
def last? (key : CommandKey) (events : List Event) : Option Event :=
  events.reverse.find? fun event => event.key = key

theorem last?_concat (key : CommandKey) (events : List Event) (event : Event) :
    last? key (events ++ [event]) = if event.key = key then some event else last? key events := by
  by_cases same : event.key = key <;> simp [last?, same]

theorem last?_eq_none_iff {key : CommandKey} {events : List Event} :
    last? key events = none ↔ ∀ event ∈ events, event.key ≠ key := by
  simp [last?]

theorem key_of_last? {key : CommandKey} {events : List Event} {event : Event}
    (last : last? key events = some event) : event.key = key := by
  simpa using List.find?_some last

/-- The records of all kinds belong to the catalog, so they have consistent
layouts. -/
theorem checkLayout_eq_ok (event : Event) : event.checkLayout = .ok () := by
  have listed : event.kind.record ∈ Catalog.all := by
    cases event.kind <;>
      simp [Catalog.all, Catalog.systemRecords, Catalog.applicationRecords,
        Catalog.deviceObjectRecords, Catalog.simpleApiRecords, Catalog.commissioningRecords]
  have accepted := Catalog.isOk_checkLayout_of_mem_all event.kind.record listed
  rw [checkLayout]
  cases checked : event.kind.record.checkLayout with
  | ok _ => rfl
  | error error =>
      rw [checked] at accepted
      cases accepted

/-- A payload that can be read replaces the values of the event and leaves its kind
alone. -/
theorem decode_eq_ok_iff {event decoded : Event} {payload : Bytes} :
    event.decode payload = .ok decoded ↔
      ∃ value rest, event.kind.record.ofPayload event.value payload = { value, rest } ∧
        decoded = { event with value } := by
  rcases reading : event.kind.record.ofPayload event.value payload with ⟨value, rest, _ | error⟩
  · simp [decode, reading, eq_comm]
  · simp [decode, reading]

end Event

namespace PrototypeTable

/-- Inserts events one after the other: the entry that each of them replaces, and
the table afterwards. -/
def insertEach (table : PrototypeTable) :
    List Event → Except ConfigurationError (List (Option Event) × PrototypeTable)
  | [] => .ok ([], table)
  | event :: later => do
      let (replaced, next) ← table.insert event
      let (others, last) ← next.insertEach later
      return (replaced :: others, last)

/-- The table holds the last of the inserted events with each key, and nothing
else. -/
structure Stores (table : PrototypeTable) (inserted : List Event) : Prop where
  keys_nodup : (table.prototypes.map Event.key).Nodup
  mem_iff : ∀ event, event ∈ table.prototypes ↔ Event.last? event.key inserted = some event

theorem insert_eq_ok (table : PrototypeTable) (event : Event) :
    table.insert event = .ok (table.find? event.key, table.put event) := by
  rw [insert, event.checkLayout_eq_ok]
  rfl

theorem stores_empty : Stores {} [] :=
  ⟨List.nodup_nil, by simp [Event.last?]⟩

section Insertions

variable {table : PrototypeTable} {inserted : List Event}

theorem Stores.find?_eq (stores : table.Stores inserted) (key : CommandKey) :
    table.find? key = Event.last? key inserted := by
  cases found : table.find? key with
  | some event =>
      have member := List.mem_of_find?_eq_some found
      have same : event.key = key := by simpa using List.find?_some found
      rw [← same]
      exact ((stores.mem_iff event).1 member).symm
  | none =>
      cases last : Event.last? key inserted with
      | none => rfl
      | some event =>
          have same := Event.key_of_last? last
          have member := (stores.mem_iff event).2 (same.symm ▸ last)
          exact absurd (decide_eq_true same) (List.find?_eq_none.1 found event member)

theorem Stores.put (stores : table.Stores inserted) (event : Event) :
    (table.put event).Stores (inserted ++ [event]) := by
  constructor
  · rw [PrototypeTable.put, List.map_cons, List.nodup_cons]
    refine ⟨?_, stores.keys_nodup.sublist (List.filter_sublist.map Event.key)⟩
    simp
  · intro other
    rw [PrototypeTable.put, List.mem_cons, List.mem_filter, stores.mem_iff, Event.last?_concat]
    by_cases same : event.key = other.key
    · simp [same, eq_comm]
    · have different : other ≠ event := by
        rintro rfl
        exact same rfl
      simp [same, different, Ne.symm same]

/-- Insertion succeeds, and each returns the event that was the last one with its
key. -/
theorem Stores.insertEach_eq (stores : table.Stores inserted) (events : List Event) :
    ∃ after, table.insertEach events =
        .ok (events.mapIdx fun position event =>
          Event.last? event.key (inserted ++ events.take position), after) ∧
      after.Stores (inserted ++ events) := by
  induction events generalizing table inserted with
  | nil => exact ⟨table, rfl, by simpa using stores⟩
  | cons event later ih =>
      obtain ⟨after, answers, stored⟩ := ih (stores.put event)
      rw [List.append_assoc] at stored
      refine ⟨after, ?_, stored⟩
      rw [insertEach, insert_eq_ok, stores.find?_eq]
      simp [answers, bind, Except.bind, pure, Except.pure, List.mapIdx_cons]

theorem insertAll_eq (table : PrototypeTable) (events : List Event) :
    table.insertAll events = (table.insertEach events).map Prod.snd := by
  induction events generalizing table with
  | nil => rfl
  | cons event later ih =>
      rw [insertAll, insertEach, insert_eq_ok]
      simp only [bind, Except.bind]
      rw [ih]
      cases (table.put event).insertEach later <;> rfl

/-- What becomes of an indication is decided by the last event with its key. -/
theorem Stores.instantiate_eq (stores : table.Stores inserted) (key : CommandKey)
    (payload : Bytes) :
    table.instantiate key payload =
      (Event.last? key inserted).map fun prototype => prototype.decode payload := by
  rw [instantiate, stores.find?_eq]

end Insertions

/-- The tables that further events are put into. -/
inductive Origin where
  | empty
  | standard

namespace Origin

def table : Origin → Except ConfigurationError PrototypeTable
  | .empty => .ok {}
  | .standard => PrototypeTable.standard

/-- The events that have been put into the table already. -/
def events : Origin → List Event
  | .empty => []
  | .standard => EventKind.all.map Event.ofKind

theorem exists_stores (origin : Origin) :
    ∃ start, origin.table = .ok start ∧ start.Stores origin.events := by
  cases origin with
  | empty => exact ⟨{}, rfl, stores_empty⟩
  | standard =>
      obtain ⟨start, answers, stored⟩ := stores_empty.insertEach_eq (Origin.events .standard)
      refine ⟨start, ?_, stored⟩
      change insertAll {} (Origin.events .standard) = .ok start
      rw [insertAll_eq, answers]
      rfl

end Origin

/-- Events with any values can be put into an empty or a standard table.  Each
insertion returns the event that was the last one with its key, and then the table
holds for each key the last event with it and nothing else.  An indication has no
outcome exactly if no event with its key was inserted.  It becomes an event exactly
if its payload can be read over the values of the last event with its key, and then
it has what was read, its own key, and the kind of that event. -/
theorem events_carry_their_key (origin : Origin) (events : List Event) :
    ∃ start after, origin.table = .ok start ∧
      start.insertEach events =
        .ok (events.mapIdx fun position event =>
          Event.last? event.key (origin.events ++ events.take position), after) ∧
      after.Stores (origin.events ++ events) ∧
      ∀ key, after.find? key = Event.last? key (origin.events ++ events) ∧
        (∀ prototype, after.find? key = some prototype → prototype.key = key) ∧
        ∀ payload,
          (after.instantiate key payload = none ↔
            ∀ event ∈ origin.events ++ events, event.key ≠ key) ∧
          (∀ event, after.instantiate key payload = some (.ok event) ↔
            ∃ prototype value rest, after.find? key = some prototype ∧
              prototype.kind.record.ofPayload prototype.value payload = { value, rest } ∧
                event = { prototype with value }) ∧
          ∀ event, after.instantiate key payload = some (.ok event) →
            event.key = key ∧
              ∃ prototype, after.find? key = some prototype ∧ event.kind = prototype.kind := by
  obtain ⟨start, begun, stores⟩ := origin.exists_stores
  obtain ⟨after, answers, stored⟩ := stores.insertEach_eq events
  refine ⟨start, after, begun, answers, stored, ?_⟩
  intro key
  have found := stored.find?_eq key
  have keyed (prototype : Event) (known : after.find? key = some prototype) :
      prototype.key = key :=
    Event.key_of_last? (found ▸ known)
  refine ⟨found, keyed, ?_⟩
  intro payload
  have becomes (event : Event) : after.instantiate key payload = some (.ok event) ↔
      ∃ prototype value rest, after.find? key = some prototype ∧
        prototype.kind.record.ofPayload prototype.value payload = { value, rest } ∧
          event = { prototype with value } := by
    simp only [instantiate, Option.map_eq_some_iff, Event.decode_eq_ok_iff, exists_and_left]
  refine ⟨?_, becomes, ?_⟩
  · rw [stored.instantiate_eq, Option.map_eq_none_iff, Event.last?_eq_none_iff]
  · intro event outcome
    obtain ⟨prototype, value, rest, known, -, rfl⟩ := (becomes event).1 outcome
    exact ⟨keyed prototype known, prototype, known, rfl⟩

/-- Three kinds that share a record, one of them inserted twice: its first event
is returned, and an indication is read over its second one. -/
theorem events_carry_their_key_of_shared_record :
    let first : Event := .ofKind .bind
    let second : Event := { kind := .bind, value := ("0x0001", 7, ()) }
    let others : List Event := [.ofKind .leaveOutcome, .ofKind .permitJoin]
    let events : List Event := first :: second :: others
    ∃ after, insertEach {} events = .ok ([none, some first, none, none], after) ∧
      after.find? EventKind.bind.key = some second ∧
      after.instantiate EventKind.bind.key [0x34, 0x12, 0x00] =
        some (.ok { kind := .bind, value := ("0x1234", 0, ()) }) := by
  intro first second others events
  obtain ⟨_, after, begun, answers, -, keyed⟩ := events_carry_their_key .empty events
  obtain rfl := Except.ok.inj begun
  obtain ⟨found, -, outcomes⟩ := keyed EventKind.bind.key
  have known : after.find? EventKind.bind.key = some second := found.trans rfl
  refine ⟨after, answers, known, ?_⟩
  exact ((outcomes _).2.1 _).2 ⟨second, ("0x1234", 0, ()), [], known, rfl, rfl⟩

end PrototypeTable

end ZigbeeHost
