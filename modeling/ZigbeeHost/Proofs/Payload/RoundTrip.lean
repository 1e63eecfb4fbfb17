import ZigbeeHost.Catalog.SimpleApi
import ZigbeeHost.Proofs.Payload.Fields
import ZigbeeHost.Proofs.Payload.Words

/-!
# Reading back what was written

A type is self-delimiting if its bytes tell where they end.  This file proves
that a canonical value of such a type is read back exactly from its own bytes,
whatever bytes follow, into a blank destination with the same alternatives.
The walk over the fields of a record has two forms: between bit runs, and
inside a run whose word the reader already knows while the writer still
collects it.
-/

namespace ZigbeeHost

/-- The tuple with a function applied at every place. -/
def Tuple.map {α β : Type} (transform : α → β) : (count : Nat) → Tuple α count → Tuple β count
  | 0, _ => ()
  | count + 1, (value, rest) => (transform value, Tuple.map transform count rest)

/-- A value of a bit-run member uses no bit beyond its mask. -/
def BitMask.Holds (bits : BitMask) (value : Nat) : Prop :=
  value &&& (bits.mask >>> bits.shift) = value

mutual

/-- The default destination in which the alternatives of a value are
selected. -/
def WireType.blank : (type : WireType) → type.Value → type.Value
  | .uint width, _ => BitVec.ofNat width.bits 0
  | .text, _ => ""
  | .unit, _ => ()
  | .list _, _ => []
  | .array element count, values => Tuple.map element.blank count values
  | .optional _, _ => none
  | .record _ fields _, values => fields.blank values
  | .variant _ _ first _, .inl value => .inl (first.blank value)
  | .variant _ _ _ others, .inr choice => .inr (others.blank choice)

def Fields.blank : (fields : Fields) → fields.Values → fields.Values
  | .nil, _ => ()
  | .cons _ type _ rest, (value, values) => (type.blank value, rest.blank values)

def Alternatives.blank : (others : Alternatives) → others.Choice → others.Choice
  | .cons _ type _, .inl value => .inl (type.blank value)
  | .cons _ _ rest, .inr choice => .inr (rest.blank choice)

end

/-- Every encoding of the type takes at least one byte. -/
def WireType.TakesBytes (type : WireType) (tags : FieldTags) : Prop :=
  ∀ value, type.encode tags value ≠ .ok []

mutual

/-- The bytes of the type tell where they end: there is nothing optional in it,
every text is an address or has a length prefix, and every list has a length
prefix and elements that take bytes. -/
def WireType.SelfDelimiting : WireType → FieldTags → Prop
  | .uint _, _ => True
  | .text, tags => tags.hex.isSome ∨ tags.length.isSome
  | .unit, _ => True
  | .list element, tags =>
      tags.length.isSome ∧ element.SelfDelimiting tags.element ∧
        element.TakesBytes tags.element
  | .array element _, tags => element.SelfDelimiting tags
  | .optional _, _ => False
  | .record name fields limit, _ =>
      limit = none ∧
        ∃ layout, fields.layout name = .ok layout ∧ fields.SelfDelimiting layout.fields
  | .variant _ _ first others, tags => first.SelfDelimiting tags ∧ others.SelfDelimiting tags

def Fields.SelfDelimiting : Fields → List Field → Prop
  | .cons _ type _ rest, field :: more =>
      type.SelfDelimiting field.tags ∧ rest.SelfDelimiting more
  | _, _ => True

def Alternatives.SelfDelimiting : Alternatives → FieldTags → Prop
  | .nil, _ => True
  | .cons _ type rest, tags => type.SelfDelimiting tags ∧ rest.SelfDelimiting tags

end

mutual

/-- The value is one that reading produces: members of bit runs keep to their
masks, addresses are in the form in which they are rendered, fields that are
not present hold what a blank destination holds, and what is read into a fresh
destination has the first alternatives. -/
def WireType.Canonical : (type : WireType) → FieldTags → type.Value → Prop
  | .uint _, _, _ => True
  | .text, tags, text =>
      ∀ width ∈ tags.hex, ∃ number ≤ width.maxValue, text = width.renderHex number
  | .unit, _, _ => True
  | .list element, tags, values =>
      ∀ value ∈ values,
        element.Canonical tags.element value ∧ element.blank value = element.default
  | .array element count, tags, values =>
      ∀ value ∈ values.toList count, element.Canonical tags value
  | .optional inner, tags, held =>
      ∀ value ∈ held, inner.Canonical tags value ∧ inner.blank value = inner.default
  | .record name fields _, _, values =>
      ∀ layout, fields.layout name = .ok layout → fields.Canonical layout.fields [] values
  | .variant _ _ first _, tags, .inl value => first.Canonical tags value
  | .variant _ _ _ others, tags, .inr choice => others.Canonical tags choice

def Fields.Canonical :
    (fields : Fields) → List Field → List (Option Nat) → fields.Values → Prop
  | .cons _ type _ rest, field :: more, earlier, (value, values) =>
      (if field.isPresent earlier then
        match field.tags.bitMask with
        | some bits => bits.Holds ((type.asUint value).getD 0)
        | none => type.Canonical field.tags value
      else type.blank value = value) ∧
        rest.Canonical more (earlier ++ [type.asUint value]) values
  | .nil, _, _, _ => True
  | .cons _ _ _ _, [], _, _ => True

def Alternatives.Canonical : (others : Alternatives) → FieldTags → others.Choice → Prop
  | .cons _ type _, tags, .inl value => type.Canonical tags value
  | .cons _ _ rest, tags, .inr choice => rest.Canonical tags choice

end

theorem ByteOrder.take_write (order : ByteOrder) {count value : Nat}
    (fits : value < 256 ^ count) (rest : Bytes) :
    order.take count (order.write count value ++ rest) = .ok (value, rest) := by
  have taken := takeBytes_append (order.write count value) rest
  rw [length_write] at taken
  rw [ByteOrder.take, taken]
  simp [Except.map, Nat.mod_eq_of_lt fits]

theorem lt_of_le_maxOfBytes {count value : Nat} (small : value ≤ maxOfBytes count) :
    value < 256 ^ count := by
  have positive := Nat.two_pow_pos (8 * min count 8)
  calc
    value < 2 ^ (8 * min count 8) := by
      simp only [maxOfBytes_eq] at small
      omega
    _ ≤ 2 ^ (8 * count) := Nat.pow_le_pow_right (by decide) (by omega)
    _ = 256 ^ count := by rw [Nat.pow_mul]

namespace FieldTags

variable {tags : FieldTags} {bytes : Bytes}

theorem takeUint_writeUint {declared : Width} {value : Nat}
    (written : tags.writeUint declared value = .ok bytes) (rest : Bytes) :
    tags.takeUint declared (bytes ++ rest) = .ok (value, rest) := by
  simp only [writeUint] at written
  split at written
  · rename_i small
    obtain rfl := Except.ok.inj written
    exact ByteOrder.take_write _ (lt_of_le_maxOfBytes small) rest
  · cases written

theorem takeLength_writeLength {length : Nat} (announced : tags.length.isSome)
    (written : tags.writeLength length = .ok bytes) (rest : Bytes) :
    tags.takeLength (bytes ++ rest) = .ok (some length, rest) := by
  obtain ⟨width, declared⟩ := Option.isSome_iff_exists.1 announced
  simp only [writeLength, declared] at written
  split at written
  · rename_i small
    obtain rfl := Except.ok.inj written
    simp only [takeLength, declared]
    rw [ByteOrder.take_write _ (lt_of_le_maxOfBytes small)]
    rfl
  · cases written

theorem readText_writeText {text : String}
    (delimited : tags.hex.isSome ∨ tags.length.isSome)
    (canonical : ∀ width ∈ tags.hex, ∃ number ≤ width.maxValue, text = width.renderHex number)
    (written : tags.writeText text = .ok bytes) (destination : String) (rest : Bytes) :
    tags.readText destination (bytes ++ rest) = { value := text, rest } := by
  cases address : tags.hex with
  | some width =>
      obtain ⟨number, small, rfl⟩ := canonical width address
      simp only [writeText, address, writeHex, Width.parseHex?_renderHex small,
        Except.ok.injEq] at written
      subst written
      simp only [readText, address]
      rw [ByteOrder.take_write _ (lt_of_le_maxOfBytes small)]
      rfl
  | none =>
      have announced : tags.length.isSome := by simpa [address] using delimited
      simp only [writeText, address] at written
      obtain ⟨header, length, rfl⟩ := map_eq_ok written
      simp only [readText, address, List.append_assoc, takeLength_writeLength announced length,
        Option.getD_some, takeBytes_append, Utf8.decode?_encode]

end FieldTags

namespace Fields

variable {name : String} {type : WireType} {pairs : List (String × String)} {rest : Fields}
variable {field : Field} {more : List Field} {earlier : List (Option Nat)}
variable {value : type.Value} {values : rest.Values}

theorem canonical_of_absent (absent : field.isPresent earlier = false)
    (canonical : (Fields.cons name type pairs rest).Canonical (field :: more) earlier
      (value, values)) :
    type.blank value = value ∧ rest.Canonical more (earlier ++ [type.asUint value]) values := by
  simpa [Fields.Canonical, absent] using canonical

theorem canonical_of_plain (present : field.isPresent earlier = true)
    (unmasked : field.tags.bitMask = none)
    (canonical : (Fields.cons name type pairs rest).Canonical (field :: more) earlier
      (value, values)) :
    type.Canonical field.tags value ∧
      rest.Canonical more (earlier ++ [type.asUint value]) values := by
  simpa [Fields.Canonical, present, unmasked] using canonical

theorem canonical_of_member {bits : BitMask} (present : field.isPresent earlier = true)
    (masked : field.tags.bitMask = some bits)
    (canonical : (Fields.cons name type pairs rest).Canonical (field :: more) earlier
      (value, values)) :
    bits.Holds ((type.asUint value).getD 0) ∧
      rest.Canonical more (earlier ++ [type.asUint value]) values := by
  simpa [Fields.Canonical, present, masked] using canonical

end Fields

/-- The values of a list that takes bytes for each element are read back. -/
theorem readElements_encodeEach {α : Type} {encode : α → Except PayloadError Bytes}
    {read : Bytes → Reading α} {values : List α}
    (undone : ∀ value ∈ values, ∀ bytes, encode value = .ok bytes →
      bytes ≠ [] ∧ ∀ rest, read (bytes ++ rest) = { value, rest })
    {bytes : Bytes} (encoded : encodeEach encode values = .ok bytes) (rest : Bytes) :
    readElements read false values.length (bytes ++ rest) = { value := values, rest } := by
  induction values generalizing bytes with
  | nil =>
      obtain rfl := Except.ok.inj encoded
      rfl
  | cons value values ih =>
      obtain ⟨first, later, head, tail, rfl⟩ := encodeEach_cons_eq_ok encoded
      obtain ⟨nonempty, readHead⟩ := undone value (by simp) first head
      have readTail := ih (fun other member => undone other (by simp [member])) tail
      have shorter : (later ++ rest).length ≠ (first ++ (later ++ rest)).length := by
        have positive := List.length_pos_iff.2 nonempty
        simp only [List.length_append]
        omega
      rw [List.append_assoc]
      simp only [List.length_cons, readElements, Bool.false_eq_true, false_and, if_false,
        readHead, Reading.andThen, if_neg shorter, readTail]
      rfl

theorem readTuple_encodeEach {α : Type} {encode : α → Except PayloadError Bytes}
    {read : α → Bytes → Reading α} {blank : α → α} {count : Nat} {values : Tuple α count}
    (undone : ∀ value ∈ Tuple.toList count values, ∀ bytes, encode value = .ok bytes →
      ∀ rest, read (blank value) (bytes ++ rest) = { value, rest })
    {bytes : Bytes} (encoded : encodeEach encode (Tuple.toList count values) = .ok bytes)
    (rest : Bytes) :
    readTuple read count (Tuple.map blank count values) (bytes ++ rest) =
      { value := values, rest } := by
  induction count generalizing bytes with
  | zero =>
      obtain rfl := Except.ok.inj encoded
      rfl
  | succ count ih =>
      obtain ⟨value, values⟩ := values
      obtain ⟨first, later, head, tail, rfl⟩ := encodeEach_cons_eq_ok encoded
      have readHead := undone value (by simp [Tuple.toList]) first head (later ++ rest)
      have readTail := ih (fun other member => undone other (by simp [Tuple.toList, member])) tail
      rw [List.append_assoc]
      simp only [Tuple.map, readTuple, readHead, Reading.andThen, readTail]
      rfl

/-- A member that keeps to its mask is restored from the finished word. -/
theorem setUint_of_member {type : WireType} {field : Field} {declaration : Declaration}
    {bits : BitMask} (member : Layout.IsMember field bits)
    (declared : Layout.Declares field declaration) (shape : declaration.shape = type.shape)
    (delimited : type.SelfDelimiting field.tags) {before value : type.Value} {word : Nat}
    (holds : bits.Holds ((type.asUint value).getD 0))
    (extracted : bits.extract word =
      (type.asUint value).getD 0 &&& (bits.mask >>> bits.shift)) :
    (type.setUint before (bits.extract word)).2 = value := by
  have integer := member.integer
  rw [declared.shape, shape] at integer
  rw [extracted, holds]
  cases type with
  | uint width => simp [WireType.setUint, WireType.asUint]
  | optional inner => simp [WireType.SelfDelimiting] at delimited
  | _ => simp [WireType.shape, Shape.uintWidth?, Shape.base] at integer

namespace WireType

variable {tags : FieldTags} {bytes : Bytes}

theorem decode_encode_uint {width : Width} {value : BitVec width.bits}
    (encoded : (WireType.uint width).encode tags value = .ok bytes)
    (destination : BitVec width.bits) (rest : Bytes) :
    (WireType.uint width).decode tags destination (bytes ++ rest) = { value, rest } := by
  simp only [WireType.encode] at encoded
  cases written : tags.writeUint width value.toNat with
  | error error => simp [written, Except.mapError] at encoded
  | ok first =>
      simp only [written, Except.mapError, Except.ok.injEq] at encoded
      subst encoded
      simp [WireType.decode, FieldTags.takeUint_writeUint written, Reading.ofTaken]

theorem decode_encode_text {value : String} (delimited : WireType.text.SelfDelimiting tags)
    (canonical : WireType.text.Canonical tags value)
    (encoded : WireType.text.encode tags value = .ok bytes) (destination : String)
    (rest : Bytes) :
    WireType.text.decode tags destination (bytes ++ rest) = { value, rest } := by
  simp only [WireType.encode] at encoded
  cases written : tags.writeText value with
  | error error => simp [written, Except.mapError] at encoded
  | ok first =>
      simp only [written, Except.mapError, Except.ok.injEq] at encoded
      subst encoded
      exact FieldTags.readText_writeText delimited canonical written destination rest

/-- A list with a length prefix is read back if each of its elements takes bytes
and is read back into a fresh destination. -/
theorem decode_encode_list {element : WireType} {values : List element.Value}
    (announced : tags.length.isSome)
    (undone : ∀ value ∈ values, ∀ bytes, element.encode tags.element value = .ok bytes →
      bytes ≠ [] ∧ ∀ rest,
        element.decode tags.element element.default (bytes ++ rest) = { value, rest })
    (encoded : (WireType.list element).encode tags values = .ok bytes)
    (destination : List element.Value) (rest : Bytes) :
    (WireType.list element).decode tags destination (bytes ++ rest) =
      { value := values, rest } := by
  simp only [WireType.encode] at encoded
  cases length : tags.writeLength values.length with
  | error error => simp [length] at encoded
  | ok header =>
      simp only [length] at encoded
      obtain ⟨written, body, rfl⟩ := map_eq_ok encoded
      simp only [WireType.decode, FieldTags.readList, List.append_assoc,
        FieldTags.takeLength_writeLength announced length]
      exact readElements_encodeEach undone body rest

end WireType

mutual

theorem WireType.decode_encode : (type : WireType) → (tags : FieldTags) →
    (value : type.Value) → type.SelfDelimiting tags → type.Canonical tags value →
    ∀ {bytes : Bytes}, type.encode tags value = .ok bytes → ∀ rest,
      type.decode tags (type.blank value) (bytes ++ rest) = { value, rest }
  | .uint width, tags, value, _, _, bytes, encoded, rest =>
      WireType.decode_encode_uint encoded _ rest
  | .text, tags, value, delimited, canonical, bytes, encoded, rest =>
      WireType.decode_encode_text delimited canonical encoded _ rest
  | .unit, tags, value, _, _, bytes, encoded, rest => by
      obtain rfl := Except.ok.inj encoded
      rfl
  | .list element, tags, values, delimited, canonical, bytes, encoded, rest => by
      obtain ⟨announced, elements, takesBytes⟩ := delimited
      refine WireType.decode_encode_list announced ?_ encoded _ rest
      intro value member bytes encodedValue
      obtain ⟨good, fresh⟩ := canonical value member
      refine ⟨?_, ?_⟩
      · rintro rfl
        exact takesBytes value encodedValue
      · intro rest
        rw [← fresh]
        exact WireType.decode_encode element tags.element value elements good encodedValue rest
  | .array element count, tags, values, delimited, canonical, bytes, encoded, rest => by
      simp only [WireType.decode, WireType.blank]
      have each : encodeEach (element.encode tags) (values.toList count) = .ok bytes := encoded
      refine readTuple_encodeEach ?_ each rest
      intro value member bytes encodedValue rest
      exact WireType.decode_encode element tags value delimited (canonical value member)
        encodedValue rest
  | .optional inner, tags, value, delimited, _, bytes, encoded, rest => delimited.elim
  | .record name fields limit, tags, values, delimited, canonical, bytes, encoded, rest => by
      obtain ⟨rfl, layout, parsed, delimited⟩ := delimited
      simp only [WireType.encode, parsed, Layout.transferred] at encoded
      simp only [WireType.decode, parsed, Layout.transferred]
      exact Fields.decode_encode fields layout.fields [] values
        (Layout.declares_of_parse parsed) delimited (canonical layout parsed)
        (Layout.runs_of_parse parsed) 0 encoded rest
  | .variant name label first others, tags, .inl value, delimited, canonical, bytes,
      encoded, rest => by
      simp only [WireType.decode, WireType.blank]
      rw [WireType.decode_encode first tags value delimited.1 canonical encoded rest]
      rfl
  | .variant name label first others, tags, .inr choice, delimited, canonical, bytes,
      encoded, rest => by
      simp only [WireType.decode, WireType.blank]
      rw [Alternatives.decode_encode others tags choice delimited.2 canonical encoded rest]
      rfl

/-- Between bit runs the words of writer and reader do not matter. -/
theorem Fields.decode_encode : (fields : Fields) → (more : List Field) →
    (earlier : List (Option Nat)) → (values : fields.Values) →
    List.Forall₂ Layout.Declares more fields.declarations → fields.SelfDelimiting more →
    fields.Canonical more earlier values → Layout.Runs none more →
    ∀ (word : Nat) {collected : Nat} {bytes : Bytes},
      fields.encode more earlier collected values = .ok bytes → ∀ rest,
        fields.decode more earlier word (fields.blank values) (bytes ++ rest) =
          { value := values, rest }
  | .nil, more, earlier, values, _, _, _, _, word, collected, bytes, encoded, rest => by
      obtain rfl := Except.ok.inj encoded
      rfl
  | .cons name type pairs fields, field :: more, earlier, (value, values), declares,
      delimited, canonical, runs, word, collected, bytes, encoded, rest => by
      obtain ⟨declared, declares⟩ := List.forall₂_cons.1 declares
      obtain ⟨headDelimited, delimited⟩ := delimited
      simp only [Fields.blank]
      cases runs with
      | plain unmasked tail =>
          cases present : field.isPresent earlier with
          | false =>
              obtain ⟨same, canonical⟩ := Fields.canonical_of_absent present canonical
              rw [Fields.encode_of_absent present] at encoded
              have later := Fields.decode_encode fields more _ values declares delimited
                canonical tail word encoded rest
              rw [same, Fields.decode_of_absent present, later]
              rfl
          | true =>
              obtain ⟨good, canonical⟩ := Fields.canonical_of_plain present unmasked canonical
              obtain ⟨first, later, head, remaining, rfl⟩ :=
                Fields.encode_plain_cases present unmasked encoded
              have headRead := WireType.decode_encode type field.tags value headDelimited good
                head (later ++ rest)
              have tailRead := Fields.decode_encode fields more _ values declares delimited
                canonical tail word remaining rest
              rw [List.append_assoc, Fields.decode_of_plain present unmasked, headRead]
              simp only [Reading.andThen, tailRead]
              rfl
      | @first _ _ bits width order member role runWidth runOrder tail =>
          have present := Field.isPresent_of_masked declared.suits member.mask earlier
          obtain ⟨holds, canonical⟩ := Fields.canonical_of_member present member.mask canonical
          rw [Fields.encode_of_first present member.mask role] at encoded
          have within : bits.insert 0 ((type.asUint value).getD 0) &&& (0 ||| bits.mask) =
              bits.insert 0 ((type.asUint value).getD 0) :=
            BitMask.insert_within (Nat.zero_and 0)
          rw [Nat.zero_or] at within
          obtain ⟨word, remaining, rfl, fits, finished, read⟩ :=
            Fields.decode_encode_inside fields more _ values declares delimited canonical
              _ tail within encoded
          have taken : field.runOrder.take field.containerBytes
              (order.write width.bytes word ++ (remaining ++ rest)) =
                .ok (word, remaining ++ rest) := by
            rw [Field.containerBytes_of_runWidth runWidth, runOrder]
            apply ByteOrder.take_write
            rwa [← Width.two_pow_bits]
          -- The reader knows the finished word when the writer has only its first member.
          rw [← Nat.zero_or bits.mask] at finished
          have extracted := BitMask.extract_of_insert (Nat.zero_and 0) (Nat.zero_and _) finished
          rw [List.append_assoc, Fields.decode_of_first present member.mask role taken,
            setUint_of_member member declared rfl headDelimited holds extracted, read rest]
          rfl

theorem Fields.decode_encode_inside : (fields : Fields) → (more : List Field) →
    (earlier : List (Option Nat)) → (values : fields.Values) →
    List.Forall₂ Layout.Declares more fields.declarations → fields.SelfDelimiting more →
    fields.Canonical more earlier values → (container : Layout.Container) →
    Layout.Runs (some container) more →
    ∀ {collected : Nat} {bytes : Bytes}, collected &&& container.used = collected →
      fields.encode more earlier collected values = .ok bytes →
        ∃ word tail, bytes = container.order.write container.width.bytes word ++ tail ∧
          word < 2 ^ container.width.bits ∧ word &&& container.used = collected ∧
            ∀ rest, fields.decode more earlier word (fields.blank values) (tail ++ rest) =
              { value := values, rest }
  | .nil, more, earlier, values, declares, _, _, container, runs, collected, bytes, within,
      encoded => by
      cases declares
      cases runs
  | .cons name type pairs fields, field :: more, earlier, (value, values), declares,
      delimited, canonical, container, runs, collected, bytes, within, encoded => by
      obtain ⟨declared, declares⟩ := List.forall₂_cons.1 declares
      obtain ⟨headDelimited, delimited⟩ := delimited
      simp only [Fields.blank]
      cases runs with
      | @middle _ _ bits _ member role disjoint tail =>
          have present := Field.isPresent_of_masked declared.suits member.mask earlier
          obtain ⟨holds, canonical⟩ := Fields.canonical_of_member present member.mask canonical
          rw [Fields.encode_of_middle present member.mask role] at encoded
          obtain ⟨word, remaining, bytesEq, fits, finished, read⟩ :=
            Fields.decode_encode_inside fields more _ values declares delimited canonical
              _ tail (BitMask.insert_within within) encoded
          have extracted := BitMask.extract_of_insert within disjoint finished
          refine ⟨word, remaining, bytesEq, fits,
            BitMask.and_used_of_insert within disjoint finished, ?_⟩
          intro rest
          rw [Fields.decode_of_inside present member.mask (by simp [role]),
            setUint_of_member member declared rfl headDelimited holds extracted, read rest]
          rfl
      | @last _ _ bits _ member role disjoint _ _ runWidth runOrder fits tail =>
          have present := Field.isPresent_of_masked declared.suits member.mask earlier
          obtain ⟨holds, canonical⟩ := Fields.canonical_of_member present member.mask canonical
          rw [Fields.encode_of_last present member.mask role,
            Field.containerBytes_of_runWidth runWidth, runOrder] at encoded
          obtain ⟨later, remaining, rfl⟩ := map_eq_ok encoded
          have finished : bits.insert collected ((type.asUint value).getD 0) &&&
              (container.used ||| bits.mask) =
                bits.insert collected ((type.asUint value).getD 0) :=
            BitMask.insert_within within
          have extracted := BitMask.extract_of_insert within disjoint finished
          -- Layouts are accepted only if the masks of a run fit its container.
          have small : bits.insert collected ((type.asUint value).getD 0) ≤
              container.used ||| bits.mask := by
            rw [← finished]
            exact Nat.and_le_right
          refine ⟨_, later, rfl, Width.le_maxValue_iff.1 (small.trans fits),
            BitMask.and_used_of_insert within disjoint finished, ?_⟩
          intro rest
          have tailRead := Fields.decode_encode fields more _ values declares delimited
            canonical tail (bits.insert collected ((type.asUint value).getD 0)) remaining rest
          rw [Fields.decode_of_inside present member.mask (by simp [role]),
            setUint_of_member member declared rfl headDelimited holds extracted, tailRead]
          rfl

theorem Alternatives.decode_encode : (others : Alternatives) → (tags : FieldTags) →
    (choice : others.Choice) → others.SelfDelimiting tags → others.Canonical tags choice →
    ∀ {bytes : Bytes}, others.encode tags choice = .ok bytes → ∀ rest,
      others.decode tags (others.blank choice) (bytes ++ rest) = { value := choice, rest }
  | .cons label type others, tags, .inl value, delimited, canonical, bytes, encoded, rest => by
      simp only [Alternatives.decode, Alternatives.blank]
      rw [WireType.decode_encode type tags value delimited.1 canonical encoded rest]
      rfl
  | .cons label type others, tags, .inr choice, delimited, canonical, bytes, encoded, rest => by
      simp only [Alternatives.decode, Alternatives.blank]
      rw [Alternatives.decode_encode others tags choice delimited.2 canonical encoded rest]
      rfl

end

/-- A canonical value of a self-delimiting type is read back exactly from its
payload, whatever follows, and what follows is left unread. -/
theorem WireType.ofPayload_toPayload_append (type : WireType)
    (delimited : type.SelfDelimiting payloadTags) (value : type.Value)
    (canonical : type.Canonical payloadTags value) {payload : Bytes}
    (encoded : type.toPayload value = .ok payload) (rest : Bytes) :
    type.ofPayload (type.blank value) (payload ++ rest) = { value, rest } :=
  WireType.decode_encode type payloadTags value delimited canonical encoded rest

theorem WireType.takesBytes_uint (width : Width) {tags : FieldTags}
    (unbounded : tags.bound = none) : (WireType.uint width).TakesBytes tags := by
  intro value encoded
  simp only [WireType.encode, FieldTags.writeUint, FieldTags.uintBytes, unbounded,
    Option.getD_none] at encoded
  split at encoded
  · have length := congrArg List.length (Except.ok.inj encoded)
    have positive := width.bytes_pos
    simp only [ByteOrder.length_write, List.length_nil] at length
    omega
  · cases encoded

/-- A record with an absent field, a run of two widths in big-endian order, a
list and the second alternative of a variant. -/
theorem WireType.ofPayload_toPayload_of_mixed_record :
    let type : WireType := Catalog.record "Report"
      [Catalog.byte "mode", ("endpoint", .uint .one, [("cond", "mode==3")]),
        Catalog.firstBits "low" .one "0x00f0",
        ("high", .uint .two, [("bitmask", "end"), ("bits", "0x0f0f"), ("endianness", "be")]),
        Catalog.words "clusters", Catalog.nested "parameter" Catalog.deviceParameterValue]
    let value : type.Value :=
      (2, 0, 5, 0x0302, [0x0006, 0xfe00], .inr (.inl ("0x00124b00019c2ee9", ())), ())
    let payload : Bytes :=
      [0x02, 0x03, 0x52, 0x02, 0x06, 0x00, 0x00, 0xfe,
        0xe9, 0x2e, 0x9c, 0x01, 0x00, 0x4b, 0x12, 0x00]
    type.SelfDelimiting payloadTags ∧ type.Canonical payloadTags value ∧
      type.toPayload value = .ok payload ∧
        type.ofPayload (type.blank value) (payload ++ [0xfe]) = { value, rest := [0xfe] } := by
  intro type value payload
  have delimited : type.SelfDelimiting payloadTags := by
    refine ⟨rfl, _, rfl, trivial, trivial, trivial, trivial, ⟨rfl, trivial, ?_⟩, ?_, trivial⟩
    · exact WireType.takesBytes_uint .two rfl
    · exact ⟨⟨rfl, _, rfl, trivial, trivial, trivial⟩, ⟨rfl, _, rfl, .inl rfl, trivial⟩,
        ⟨rfl, _, rfl, .inl rfl, trivial, trivial⟩, ⟨rfl, _, rfl, trivial, trivial, trivial⟩,
        ⟨rfl, _, rfl, trivial, trivial, trivial⟩, trivial⟩
  have canonical : type.Canonical payloadTags value := by
    intro layout parsed
    obtain rfl := Except.ok.inj parsed
    refine ⟨trivial, rfl, rfl, rfl, ?_, ?_, trivial⟩
    · intro cluster _
      exact ⟨trivial, rfl⟩
    · intro address addressParsed
      obtain rfl := Except.ok.inj addressParsed
      refine ⟨?_, trivial⟩
      rintro _ ⟨⟩
      exact ⟨0x00124b00019c2ee9, by decide, by decide +kernel⟩
  have encoded : type.toPayload value = .ok payload := by
    decide +kernel
  exact ⟨delimited, canonical, encoded,
    WireType.ofPayload_toPayload_append type delimited value canonical encoded [0xfe]⟩

end ZigbeeHost
