import ZigbeeHost.Catalog.SimpleApi
import ZigbeeHost.Proofs.Payload.Fields

/-!
# Payloads that are cut short

If a type holds nothing optional and each of its texts and lists is delimited,
then the bytes that reading uses up determine what is read.  Whatever follows
them stays unread, and without all of them reading finds that the payload ends
too early.  Readers with this property can follow one another, and every reader
of such a type is made of ones that split a number of bytes off.
-/

namespace ZigbeeHost

/-- Reading needed more bytes than there were. -/
def Reading.EndsTooEarly {α : Type} (reading : Reading α) : Prop :=
  ∃ needed remaining, remaining < needed ∧
    reading.error = some (.decode (.unexpectedEnd needed remaining))

/-- What a reader reads depends on the bytes that it uses up, and it cannot do
without any of these. -/
def Determined {α : Type} (read : Bytes → Reading α) : Prop :=
  ∀ payload rest value, read payload = { value, rest } →
    ∃ taken, payload = taken ++ rest ∧
      (∀ other, read (taken ++ other) = { value, rest := other }) ∧
      ∀ part missing, part ++ missing = taken → missing ≠ [] → (read part).EndsTooEarly

mutual

/-- Every layout in the type is accepted, nothing is optional, every text is an
address or has a length prefix, and so has every list. -/
def WireType.Delimited : WireType → FieldTags → Prop
  | .uint _, _ => True
  | .text, tags => tags.hex.isSome ∨ tags.length.isSome
  | .unit, _ => True
  | .list element, tags => tags.length.isSome ∧ element.Delimited tags.element
  | .array element _, tags => element.Delimited tags
  | .optional _, _ => False
  | .record name fields limit, _ =>
      ∃ layout, fields.layout name = .ok layout ∧ fields.Delimited (layout.transferred limit)
  | .variant _ _ first others, tags => first.Delimited tags ∧ others.Delimited tags

def Fields.Delimited : Fields → List Field → Prop
  | .cons _ type _ rest, field :: more => type.Delimited field.tags ∧ rest.Delimited more
  | _, _ => True

def Alternatives.Delimited : Alternatives → FieldTags → Prop
  | .nil, _ => True
  | .cons _ type rest, tags => type.Delimited tags ∧ rest.Delimited tags

end

/-- A proper part of two stretches lacks bytes of the first one, or contains it
and lacks bytes of the second one. -/
theorem lacks_first_or_second {first second part missing : Bytes}
    (split : part ++ missing = first ++ second) :
    (∃ lacked, part ++ lacked = first ∧ lacked ≠ []) ∨
      ∃ later, part = first ++ later ∧ later ++ missing = second := by
  rcases List.append_eq_append_iff.1 split with ⟨lacked, firstEq, rest⟩ | ⟨later, partEq, rest⟩
  · by_cases empty : lacked = []
    · subst empty
      exact .inr ⟨[], by simpa using firstEq.symm, rest⟩
    · exact .inl ⟨lacked, firstEq.symm, empty⟩
  · exact .inr ⟨later, partEq, rest.symm⟩

namespace FieldTags

/-- What reading a text makes of its bytes. -/
def storeText (tags : FieldTags) (destination : String) (raw rest : Bytes) : Reading String :=
  match Utf8.decode? raw with
  | some text => { value := text, rest }
  | none => { value := destination, rest, error := some (.decode (.invalidText tags.field)) }

/-- How a text is read whose length is known. -/
def readBody (tags : FieldTags) (destination : String) (count : Nat) (payload : Bytes) :
    Reading String :=
  match takeBytes count payload with
  | .error error => { value := destination, rest := payload, error := some (.decode error) }
  | .ok (raw, rest) => tags.storeText destination raw rest

end FieldTags

namespace Determined

variable {α β : Type}

theorem congr {read other : Bytes → Reading α} (determined : Determined read)
    (same : ∀ payload, other payload = read payload) : Determined other := by
  rw [funext same]
  exact determined

/-- A reader that reads nothing. -/
theorem pure (value : α) : Determined fun payload => { value, rest := payload } := by
  intro payload rest other read
  obtain ⟨rfl, rfl⟩ : value = other ∧ payload = rest := by simpa using read
  refine ⟨[], rfl, fun _ => rfl, ?_⟩
  intro part missing empty lacking
  exact absurd (List.append_eq_nil_iff.1 empty).2 lacking

/-- A reader that never succeeds. -/
theorem of_error {read : Bytes → Reading α} {error : PayloadError}
    (fails : ∀ payload, (read payload).error = some error) : Determined read := by
  intro payload rest value succeeded
  have failed := fails payload
  rw [succeeded] at failed
  cases failed

/-- One reader goes on after another one.  How it does may depend on the bytes
that the first one has used up. -/
theorem followed {read : Bytes → Reading α} {composed : Bytes → Reading β}
    {next : Bytes → α → Bytes → Reading β} (determined : Determined read)
    (fails : ∀ payload error, (read payload).error = some error →
      (composed payload).error = some error)
    (goesOn : ∀ taken rest value, read (taken ++ rest) = { value, rest } →
      composed (taken ++ rest) = next taken value rest)
    (later : ∀ taken value, Determined (next taken value)) : Determined composed := by
  intro payload rest result succeeded
  cases failed : (read payload).error with
  | some error =>
      have unsuccessful := fails payload error failed
      rw [succeeded] at unsuccessful
      cases unsuccessful
  | none =>
      have head : read payload = { value := (read payload).value, rest := (read payload).rest } := by
        rw [← failed]
      obtain ⟨first, split, whatever, needed⟩ := determined _ _ _ head
      generalize (read payload).value = value, (read payload).rest = middle at head split whatever
      subst split
      rw [goesOn first middle value head] at succeeded
      obtain ⟨second, rfl, whateverNext, neededNext⟩ := later first value _ _ _ succeeded
      refine ⟨first ++ second, (List.append_assoc _ _ _).symm, ?_, ?_⟩
      · intro other
        rw [List.append_assoc, goesOn first _ value (whatever _), whateverNext]
      · intro part missing split lacking
        rcases lacks_first_or_second split with
          ⟨lacked, firstEq, lacking⟩ | ⟨remainder, rfl, secondEq⟩
        · obtain ⟨count, remaining, short, failed⟩ := needed part lacked firstEq lacking
          exact ⟨count, remaining, short, fails part _ failed⟩
        · rw [goesOn first remainder value (whatever _)]
          exact neededNext remainder missing secondEq lacking

theorem andThen {read : Bytes → Reading α} (determined : Determined read) (stopped : α → β)
    {next : α → Bytes → Reading β} (later : ∀ value, Determined (next value)) :
    Determined fun payload => (read payload).andThen stopped next := by
  refine determined.followed (fun payload error failed => ?_)
    (fun taken rest value head => ?_) fun _ => later
  · simp only [Reading.andThen, failed, Reading.map]
  · simp only [head, Reading.andThen]

theorem map {read : Bytes → Reading α} (determined : Determined read) (transform : α → β) :
    Determined fun payload => (read payload).map transform := by
  refine determined.followed (fun payload error failed => failed) ?_
    fun taken value => .pure (transform value)
  intro taken rest value head
  simp only [head, Reading.map]

theorem splitOff (count : Nat) : Determined fun payload =>
    Reading.ofTaken [] payload id (takeBytes count payload) := by
  intro payload rest raw read
  obtain ⟨raw, taken, rfl⟩ := Reading.ofTaken_eq_success read
  obtain ⟨rfl, rfl⟩ := takeBytes_eq_ok taken
  refine ⟨raw, rfl, fun other => ?_, ?_⟩
  · simp only [takeBytes_append, Reading.ofTaken]
  · rintro part missing split lacking
    have short : part.length < raw.length := by
      have positive := List.length_pos_iff.2 lacking
      have total := congrArg List.length split
      simp only [List.length_append] at total
      omega
    refine ⟨_, _, short, ?_⟩
    simp only [takeBytes, if_pos short, Reading.ofTaken]

/-- A reader that splits a number of bytes off and goes on with the rest. -/
theorem of_takeBytes {count : Nat} {composed : Bytes → Reading β}
    {next : Bytes → Bytes → Reading β}
    (fails : ∀ payload error, takeBytes count payload = .error error →
      (composed payload).error = some (.decode error))
    (goesOn : ∀ payload raw rest, takeBytes count payload = .ok (raw, rest) →
      composed payload = next raw rest)
    (later : ∀ raw, Determined (next raw)) : Determined composed := by
  refine (splitOff count).followed ?_ ?_ fun _ => later
  · intro payload error failed
    cases taken : takeBytes count payload with
    | error cause =>
        rw [taken] at failed
        obtain rfl := Option.some.inj failed
        exact fails payload cause taken
    | ok result =>
        rw [taken] at failed
        cases failed
  · intro front rest raw read
    obtain ⟨raw, taken, rfl⟩ := Reading.ofTaken_eq_success read
    exact goesOn _ raw rest taken

/-- A reader that reads an integer and goes on with the rest. -/
theorem of_take {order : ByteOrder} {count : Nat} {composed : Bytes → Reading β}
    {next : Nat → Bytes → Reading β}
    (fails : ∀ payload error, order.take count payload = .error error →
      (composed payload).error = some (.decode error))
    (goesOn : ∀ payload number rest, order.take count payload = .ok (number, rest) →
      composed payload = next number rest)
    (later : ∀ number, Determined (next number)) : Determined composed := by
  refine @of_takeBytes _ count composed (fun raw => next (order.read raw)) ?_ ?_ fun _ => later _
  · intro payload error failed
    exact fails payload error (by rw [ByteOrder.take, failed]; rfl)
  · intro payload raw rest taken
    exact goesOn payload _ rest (by rw [ByteOrder.take, taken]; rfl)

/-- A reader that stores an integer. -/
theorem ofTaken_take (order : ByteOrder) (count : Nat) (destination : α) (store : Nat → α) :
    Determined fun payload =>
      Reading.ofTaken destination payload store (order.take count payload) := by
  refine @of_take _ order count _ (fun number rest => { value := store number, rest }) ?_ ?_
    fun number => .pure (store number)
  · intro payload error failed
    simp only [failed, Reading.ofTaken]
  · intro payload number rest taken
    simp only [taken, Reading.ofTaken]

theorem elements {read : Bytes → Reading α} (determined : Determined read) (count : Nat) :
    Determined (readElements read false count) := by
  induction count with
  | zero => exact .pure []
  | succ count ih =>
      -- An element that takes no bytes is the last one.
      let next (taken : Bytes) (value : α) (rest : Bytes) : Reading (List α) :=
        if taken = [] then { value := [value], rest }
        else (readElements read false count rest).map (value :: ·)
      refine @followed _ _ read _ next determined ?_ ?_ ?_
      · intro payload error failed
        simp [readElements, Reading.andThen, failed, Reading.map]
      · intro taken rest value head
        have shorter : rest.length = (taken ++ rest).length ↔ taken = [] := by
          simp
        simp only [readElements, Bool.false_eq_true, false_and, if_false, head,
          Reading.andThen, shorter, next]
      · intro taken value
        by_cases nothing : taken = []
        · simp only [next, if_pos nothing]
          exact .pure [value]
        · simp only [next, if_neg nothing]
          exact ih.map _

theorem tuple {read : α → Bytes → Reading α} (determined : ∀ value, Determined (read value))
    (count : Nat) (destination : Tuple α count) :
    Determined (readTuple read count destination) := by
  induction count with
  | zero => exact .pure ()
  | succ count ih =>
      obtain ⟨first, others⟩ := destination
      exact (determined first).andThen _ fun value => (ih others).map _

variable {tags : FieldTags}

/-- A text is an address of a fixed width, or its length stands before it. -/
theorem text (delimited : tags.hex.isSome ∨ tags.length.isSome) (destination : String) :
    Determined (tags.readText destination) := by
  cases address : tags.hex with
  | some width =>
      refine (ofTaken_take tags.order width.bytes destination width.renderHex).congr ?_
      intro payload
      simp only [FieldTags.readText, address]
  | none =>
      obtain ⟨width, announced⟩ : ∃ width, tags.length = some width :=
        Option.isSome_iff_exists.1 (by simpa [address] using delimited)
      have stored (raw : Bytes) : Determined (tags.storeText destination raw) := by
        cases decoded : Utf8.decode? raw with
        | some text =>
            refine (Determined.pure text).congr fun payload => ?_
            simp only [FieldTags.storeText, decoded]
        | none =>
            refine @of_error _ _ (.decode (.invalidText tags.field)) fun payload => ?_
            simp only [FieldTags.storeText, decoded]
      refine @of_take _ tags.order width.bytes _ (tags.readBody destination) ?_ ?_ fun count => ?_
      · intro payload error failed
        simp only [FieldTags.readText, address, FieldTags.takeLength, announced, failed, Except.map]
      · intro payload count rest taken
        simp only [FieldTags.readText, address, FieldTags.takeLength, announced, taken, Except.map,
          Option.getD_some]
        rfl
      · refine @of_takeBytes _ count _ (tags.storeText destination) ?_ ?_ stored
        · intro payload error failed
          simp only [FieldTags.readBody, failed]
        · intro payload raw rest taken
          simp only [FieldTags.readBody, taken]

/-- The number of elements stands before a list. -/
theorem list {read : Bytes → Reading α} (determined : Determined read)
    (announced : tags.length.isSome) : Determined (tags.readList read) := by
  obtain ⟨width, announced⟩ := Option.isSome_iff_exists.1 announced
  refine @of_take _ tags.order width.bytes _ (readElements read false) ?_ ?_ determined.elements
  · intro payload error failed
    simp only [FieldTags.readList, FieldTags.takeLength, announced, failed, Except.map]
  · intro payload count rest taken
    simp only [FieldTags.readList, FieldTags.takeLength, announced, taken, Except.map]

end Determined

mutual

theorem WireType.determined : (type : WireType) → (tags : FieldTags) → type.Delimited tags →
    ∀ destination, Determined (type.decode tags destination)
  | .uint width, tags, _, destination =>
      .ofTaken_take tags.order (tags.bound.getD width.bytes) destination (BitVec.ofNat width.bits)
  | .text, _, delimited, destination => .text delimited destination
  | .unit, _, _, _ => .pure ()
  | .list element, tags, delimited, _ =>
      .list (WireType.determined element tags.element delimited.2 element.default) delimited.1
  | .array element count, tags, delimited, destination =>
      .tuple (WireType.determined element tags delimited) count destination
  | .optional _, _, delimited, _ => delimited.elim
  | .record name fields limit, _, delimited, destination => by
      obtain ⟨layout, parsed, delimited⟩ := delimited
      have walked :=
        Fields.determined fields (layout.transferred limit) delimited [] 0 destination
      simpa only [WireType.decode, parsed] using walked
  | .variant _ _ first _, tags, delimited, .inl destination =>
      (WireType.determined first tags delimited.1 destination).map Sum.inl
  | .variant _ _ _ others, tags, delimited, .inr choice =>
      (Alternatives.determined others tags delimited.2 choice).map Sum.inr

theorem Fields.determined : (fields : Fields) → (more : List Field) → fields.Delimited more →
    ∀ earlier container destination,
      Determined (fields.decode more earlier container destination)
  | .nil, _, _, _, _, _ => .pure ()
  | .cons _ _ _ _, [], _, _, _, destination => .pure destination
  | .cons name type pairs fields, field :: more, delimited, earlier, container,
      (value, values) => by
      obtain ⟨head, tail⟩ := delimited
      have goOn (word : Nat) (value : type.Value) : Determined fun payload =>
          (fields.decode more (earlier ++ [type.asUint value]) word values payload).map
            (value, ·) :=
        (Fields.determined fields more tail _ word values).map _
      cases present : field.isPresent earlier with
      | false =>
          exact (goOn container value).congr fun _ => Fields.decode_of_absent present
      | true =>
          cases masked : field.tags.bitMask with
          | none =>
              have read := WireType.determined type field.tags head value
              exact (read.andThen (·, values) (goOn container)).congr fun _ =>
                Fields.decode_of_plain present masked
          | some bits =>
              by_cases role : bits.role = .first
              · refine .of_take (fun payload error failed => ?_)
                  (fun payload word rest taken => Fields.decode_of_first present masked role taken)
                  fun word => goOn word _
                simp [Fields.decode, present, masked, role, failed]
              · exact (goOn container _).congr fun _ =>
                  Fields.decode_of_inside present masked role

theorem Alternatives.determined : (others : Alternatives) → (tags : FieldTags) →
    others.Delimited tags → ∀ choice, Determined (others.decode tags choice)
  | .cons _ type _, tags, delimited, .inl destination =>
      (WireType.determined type tags delimited.1 destination).map Sum.inl
  | .cons _ _ others, tags, delimited, .inr choice =>
      (Alternatives.determined others tags delimited.2 choice).map Sum.inr

end

/-- A successful reading of a delimited type depends on the bytes that it uses
up only: whatever follows these is left, and any fewer of them end too early. -/
theorem WireType.decode_of_prefix (type : WireType) (tags : FieldTags)
    (delimited : type.Delimited tags) (destination : type.Value) {payload rest : Bytes}
    {value : type.Value} (succeeded : type.decode tags destination payload = { value, rest }) :
    ∃ count ≤ payload.length, rest = payload.drop count ∧
      (∀ other, type.decode tags destination (payload.take count ++ other) =
        { value, rest := other }) ∧
      ∀ fewer < count, (type.decode tags destination (payload.take fewer)).EndsTooEarly := by
  obtain ⟨taken, rfl, whatever, needed⟩ :=
    type.determined tags delimited destination payload rest value succeeded
  refine ⟨taken.length, by simp, by simp, fun other => ?_, fun fewer short => ?_⟩
  · rw [List.take_left]
    exact whatever other
  · rw [List.take_append_of_le_length (Nat.le_of_lt short)]
    refine needed _ (taken.drop fewer) (List.take_append_drop fewer taken) ?_
    intro nothing
    have enough := List.drop_eq_nil_iff.1 nothing
    omega

/-- A record with an absent field, a run of two widths in big-endian order, a
list of records with a text each and the second alternative of a variant. -/
theorem WireType.decode_of_prefix_of_mixed_record :
    let name := Catalog.record "Name" [("text", .text, [("len", "uint8")])]
    let type : WireType := Catalog.record "Report"
      [Catalog.byte "mode", ("endpoint", .uint .one, [("cond", "mode==3")]),
        Catalog.firstBits "low" .one "0x00f0",
        ("high", .uint .two, [("bitmask", "end"), ("bits", "0x0f0f"), ("endianness", "be")]),
        ("names", .list name, [("len", "uint8")]),
        Catalog.nested "parameter" Catalog.deviceParameterValue]
    let destination : type.Value := (0, 7, 0, 0, [], .inr (.inl ("", ())), ())
    let value : type.Value :=
      (2, 7, 5, 0x0302, [("ok", ()), ("", ())], .inr (.inl ("0x00124b00019c2ee9", ())), ())
    let payload : Bytes :=
      [0x02, 0x03, 0x52, 0x02, 0x02, 0x6f, 0x6b, 0x00,
        0xe9, 0x2e, 0x9c, 0x01, 0x00, 0x4b, 0x12, 0x00]
    type.Delimited payloadTags ∧
      type.ofPayload destination (payload ++ [0xfe]) = { value, rest := [0xfe] } ∧
        (∀ other, type.ofPayload destination (payload ++ other) = { value, rest := other }) ∧
          ∀ fewer < 16, (type.ofPayload destination (payload.take fewer)).EndsTooEarly := by
  intro name type destination value payload
  have delimited : type.Delimited payloadTags := by
    refine ⟨_, rfl, trivial, trivial, trivial, trivial, ⟨rfl, _, rfl, .inr rfl, trivial⟩, ?_,
      trivial⟩
    exact ⟨⟨_, rfl, trivial, trivial, trivial⟩, ⟨_, rfl, .inl rfl, trivial⟩,
      ⟨_, rfl, .inl rfl, trivial, trivial⟩, ⟨_, rfl, trivial, trivial, trivial⟩,
      ⟨_, rfl, trivial, trivial, trivial⟩, trivial⟩
  have succeeded : type.ofPayload destination (payload ++ [0xfe]) = { value, rest := [0xfe] } := by
    rfl
  obtain ⟨count, _, left, whatever, early⟩ :=
    WireType.decode_of_prefix type payloadTags delimited destination succeeded
  obtain rfl : count = 16 := by
    have lengths := congrArg List.length left
    simp only [payload, List.length_drop, List.length_append, List.length_cons,
      List.length_nil] at lengths
    omega
  refine ⟨delimited, succeeded, whatever, fun fewer short => ?_⟩
  have failed := early fewer short
  rwa [List.take_append_of_le_length (Nat.le_of_lt short)] at failed

end ZigbeeHost
