import ZigbeeHost.Catalog.Basic
import ZigbeeHost.Proofs.Payload.Fields
import ZigbeeHost.Proofs.Payload.Addresses

/-!
# What can be represented

Three things in a value may have no encoding: a text that should be an address, a
length that its prefix cannot express, and an integer beyond its bound.  A walk
through the value in wire order lists the places where one of these stands.  It
leaves out the fields whose condition does not hold and the members of bit runs.
Encoding fails exactly if some place does not fit, and then with the fault of the
first one.
-/

namespace ZigbeeHost

/-- A part of a value that may have no encoding, with the name of its field. -/
inductive Place where
  /-- A text that is written as an address. -/
  | address (field : String) (width : Width) (text : String)
  /-- The length of a text in bytes, or of a list in elements, before either of them. -/
  | length (field : String) (width : Width) (count : Nat)
  /-- An integer that is written in no more than a number of bytes. -/
  | bounded (field : String) (bytes : Nat) (value : Nat)
deriving DecidableEq, Repr

namespace Place

/-- What stands at the place can be represented. -/
def Fits : Place → Prop
  | .address _ width text => ∃ value, Hexadecimal.Spells text value ∧ value < 2 ^ width.bits
  | .length _ width count => count < 2 ^ width.bits
  | .bounded _ bytes value => value < 2 ^ (8 * bytes)

/-- The error if it cannot. -/
def fault : Place → EncodeError
  | .address field width text => .invalidHex field text width.bytes
  | .length field width count => .lengthOverflow field count width.bytes
  | .bounded field bytes value => .valueOverflow field value bytes

/-- The place of a length prefix, if there is one. -/
def prefixes (name : String) (tags : FieldTags) (count : Nat) : List Place :=
  (tags.length.map (Place.length name · count)).toList

end Place

mutual

/-- Every record in the type has an accepted layout. -/
def WireType.Accepted : WireType → Prop
  | .uint _ => True
  | .text => True
  | .unit => True
  | .list element => element.Accepted
  | .array element _ => element.Accepted
  | .optional inner => inner.Accepted
  | .record name fields _ => (∃ layout, fields.layout name = .ok layout) ∧ fields.Accepted
  | .variant _ _ first others => first.Accepted ∧ others.Accepted

def Fields.Accepted : Fields → Prop
  | .nil => True
  | .cons _ type _ rest => type.Accepted ∧ rest.Accepted

def Alternatives.Accepted : Alternatives → Prop
  | .nil => True
  | .cons _ type rest => type.Accepted ∧ rest.Accepted

end

mutual

/-- The places of a value in the field of the given name and tags, in wire order. -/
def WireType.places : (type : WireType) → (name : String) → FieldTags → type.Value → List Place
  | .uint _, name, tags, value => (tags.bound.map (Place.bounded name · value.toNat)).toList
  | .text, name, tags, text =>
      match tags.hex with
      | some width => [.address name width text]
      | none => Place.prefixes name tags (Utf8.encode text).length
  | .unit, _, _, _ => []
  | .list element, name, tags, values =>
      Place.prefixes name tags values.length ++ values.flatMap (element.places name tags.element)
  | .array element count, name, tags, values =>
      (values.toList count).flatMap (element.places name tags)
  | .optional _, _, _, none => []
  | .optional inner, name, tags, some value => inner.places name tags value
  | .record record fields limit, _, _, values =>
      match fields.layout record with
      | .error _ => []
      | .ok layout => fields.places (layout.transferred limit) [] values
  | .variant _ _ first _, name, tags, .inl value => first.places name tags value
  | .variant _ _ _ others, name, tags, .inr choice => others.places name tags choice

/-- The places of the remaining fields of a record, given their checked forms and the
integers held by the fields before them. -/
def Fields.places :
    (fields : Fields) → List Field → (earlier : List (Option Nat)) → fields.Values → List Place
  | .nil, _, _, _ => []
  | .cons _ _ _ _, [], _, _ => []
  | .cons name type _ rest, field :: more, earlier, (value, values) =>
      (if field.isPresent earlier ∧ field.tags.bitMask = none then
        type.places name field.tags value else []) ++
        rest.places more (earlier ++ [type.asUint value]) values

def Alternatives.places :
    (others : Alternatives) → (name : String) → FieldTags → others.Choice → List Place
  | .cons _ type _, name, tags, .inl value => type.places name tags value
  | .cons _ _ rest, name, tags, .inr choice => rest.places name tags choice

end

/-- The places of a value that is a whole payload. -/
def WireType.payloadPlaces (type : WireType) (value : type.Value) : List Place :=
  type.places payloadTags.field payloadTags value

theorem WireType.encode_list_eq_bind (element : WireType) (tags : FieldTags)
    (values : List element.Value) :
    (WireType.list element).encode tags values =
      ((tags.writeLength values.length).mapError .encode).bind fun header =>
        (encodeEach (element.encode tags.element) values).map (header ++ ·) := by
  simp only [WireType.encode]
  cases tags.writeLength values.length <;> rfl

theorem WireType.encode_text_eq_map {tags : FieldTags} (plain : tags.hex = none)
    (text : String) :
    WireType.text.encode tags text =
      ((tags.writeLength (Utf8.encode text).length).mapError .encode).map
        (· ++ Utf8.encode text) := by
  simp only [WireType.encode, FieldTags.writeText, plain]
  cases tags.writeLength (Utf8.encode text).length <;> rfl

/-- Writing went past all these places, or failed at the first that does not fit. -/
inductive Judged : List Place → Except PayloadError Bytes → Prop where
  | passed {places : List Place} {bytes : Bytes} (fit : ∀ place ∈ places, place.Fits) :
      Judged places (.ok bytes)
  | stopped {before after : List Place} {place : Place} (fit : ∀ place ∈ before, place.Fits)
      (unfit : ¬ place.Fits) :
      Judged (before ++ place :: after) (.error (.encode place.fault))

namespace Judged

theorem nil (bytes : Bytes) : Judged [] (.ok bytes) :=
  .passed (by simp)

theorem map {places : List Place} {written : Except PayloadError Bytes}
    (judged : Judged places written) (transform : Bytes → Bytes) :
    Judged places (written.map transform) := by
  cases judged with
  | passed fit => exact .passed fit
  | stopped fit unfit => exact .stopped fit unfit

/-- What stands behind a stretch is judged only if that stretch could be written. -/
theorem append {first second : List Place} {written next : Except PayloadError Bytes}
    (head : Judged first written) (tail : Judged second next) :
    Judged (first ++ second) (written.bind fun bytes => next.map (bytes ++ ·)) := by
  cases head with
  | stopped fit unfit =>
      rw [List.append_assoc, List.cons_append]
      exact .stopped fit unfit
  | passed fit =>
      cases tail with
      | passed others => exact .passed (List.forall_mem_append.2 ⟨fit, others⟩)
      | stopped others unfit =>
          rw [← List.append_assoc]
          exact .stopped (List.forall_mem_append.2 ⟨fit, others⟩) unfit

theorem each {α : Type} {encode : α → Except PayloadError Bytes} {places : α → List Place}
    (each : ∀ value, Judged (places value) (encode value)) (values : List α) :
    Judged (values.flatMap places) (encodeEach encode values) := by
  induction values with
  | nil => exact .nil []
  | cons value values ih =>
      rw [encodeEach_cons_eq_bind]
      exact (each value).append ih

/-- A single place decides whether there is an error. -/
theorem of_place {place : Place} {written : Except EncodeError Bytes}
    (passes : place.Fits → ∃ bytes, written = .ok bytes)
    (fails : ¬ place.Fits → written = .error place.fault) :
    Judged [place] (written.mapError .encode) := by
  by_cases fits : place.Fits
  · obtain ⟨bytes, rfl⟩ := passes fits
    exact .passed (List.forall_mem_singleton.2 fits)
  · rw [fails fits]
    exact @stopped [] [] place (by simp) fits

end Judged

namespace FieldTags

variable {name : String} {tags : FieldTags}

/-- Without a bound an integer always fits. -/
theorem judged_writeUint (named : tags.field = name) (width : Width) (value : BitVec width.bits) :
    Judged ((WireType.uint width).places name tags value)
      ((tags.writeUint width value.toNat).mapError .encode) := by
  subst named
  have small := Nat.lt_of_lt_of_le value.isLt (Nat.pow_le_pow_right (by decide) width.bits_le)
  cases tagged : tags.bound with
  | none =>
      have fits : value.toNat ≤ maxOfBytes width.bytes := Width.le_maxValue_iff.2 value.isLt
      simp only [WireType.places, tagged, Option.map_none, Option.toList_none, writeUint, uintBytes,
        Option.getD_none, if_pos fits]
      exact .nil _
  | some bound =>
      have known : value.toNat ≤ maxOfBytes bound ↔
          (Place.bounded tags.field bound value.toNat).Fits :=
        le_maxOfBytes_iff small
      simp only [WireType.places, tagged, Option.map_some, Option.toList_some]
      refine .of_place (fun fits => ?_) fun unfit => ?_
      · simp only [writeUint, uintBytes, tagged, Option.getD_some, if_pos (known.2 fits)]
        exact ⟨_, rfl⟩
      · simp only [writeUint, uintBytes, tagged, Option.getD_some, if_neg (mt known.1 unfit)]
        rfl

theorem judged_writeLength (named : tags.field = name) (count : Nat) :
    Judged (Place.prefixes name tags count) ((tags.writeLength count).mapError .encode) := by
  subst named
  cases tagged : tags.length with
  | none =>
      simp only [Place.prefixes, tagged, Option.map_none, Option.toList_none, writeLength]
      exact .nil _
  | some width =>
      have known : count ≤ width.maxValue ↔ (Place.length tags.field width count).Fits :=
        Width.le_maxValue_iff
      simp only [Place.prefixes, tagged, Option.map_some, Option.toList_some]
      refine .of_place (fun fits => ?_) fun unfit => ?_
      · simp only [writeLength, tagged, if_pos (known.2 fits)]
        exact ⟨_, rfl⟩
      · simp only [writeLength, tagged, if_neg (mt known.1 unfit)]
        rfl

theorem judged_writeHex (named : tags.field = name) (width : Width) (text : String) :
    Judged [.address name width text] ((tags.writeHex width text).mapError .encode) := by
  subst named
  refine .of_place (fun fits => ?_) fun unfit => ?_
  · obtain ⟨value, spelt⟩ := fits
    simp only [writeHex, Width.parseHex?_eq_some_iff.2 spelt]
    exact ⟨_, rfl⟩
  · simp only [writeHex, Width.parseHex?_eq_none_iff.2 unfit]
    rfl

theorem judged_text (named : tags.field = name) (text : String) :
    Judged (WireType.text.places name tags text) (WireType.text.encode tags text) := by
  cases tagged : tags.hex with
  | some width =>
      simp only [WireType.places, WireType.encode, writeText, tagged]
      exact judged_writeHex named width text
  | none =>
      rw [WireType.encode_text_eq_map tagged]
      simp only [WireType.places, tagged]
      exact (judged_writeLength named (Utf8.encode text).length).map _

end FieldTags

/-- Errors at the fields of a record give the names that were declared. -/
def Fields.Named : Fields → List Field → Prop
  | .cons name _ _ rest, field :: more => field.tags.field = name ∧ rest.Named more
  | _, _ => True

theorem Fields.named_of_prefix : (fields : Fields) → {more all : List Field} → more <+: all →
    List.Forall₂ (fun field declaration => field.tags.field = declaration.name) all
      fields.declarations → fields.Named more
  | .nil, _, _, _, _ => trivial
  | .cons _ _ _ _, [], _, _, _ => trivial
  | .cons name type pairs rest, field :: more, all, front, named => by
      obtain ⟨beyond, rfl⟩ := front
      obtain ⟨here, later⟩ := List.forall₂_cons.1 named
      exact ⟨here, rest.named_of_prefix (List.prefix_append more beyond) later⟩

theorem Fields.named_of_transferred {fields : Fields} {record : String} {layout : Layout}
    (parsed : fields.layout record = .ok layout) (limit : Option Nat) :
    fields.Named (layout.transferred limit) := by
  have front : layout.transferred limit <+: layout.fields := by
    cases limit with
    | none => exact List.prefix_rfl
    | some count => exact List.take_prefix count layout.fields
  exact fields.named_of_prefix front (Layout.named_of_parse parsed)

mutual

theorem WireType.judged : (type : WireType) → type.Accepted → {name : String} →
    {tags : FieldTags} → tags.field = name → ∀ value : type.Value,
      Judged (type.places name tags value) (type.encode tags value)
  | .uint width, _, _, _, named => FieldTags.judged_writeUint named width
  | .text, _, _, _, named => FieldTags.judged_text named
  | .unit, _, _, _, _ => fun _ => .nil []
  | .list element, accepted, name, tags, named => by
      intro values
      have header := FieldTags.judged_writeLength named values.length
      have named : tags.element.field = name := named
      have elements := Judged.each (WireType.judged element accepted named) values
      rw [WireType.encode_list_eq_bind]
      exact header.append elements
  | .array element count, accepted, _, _, named => fun values =>
      Judged.each (WireType.judged element accepted named) (values.toList count)
  | .optional inner, accepted, _, _, named => fun
      | none => .nil []
      | some value => WireType.judged inner accepted named value
  | .record record fields limit, accepted, _, _, _ => by
      obtain ⟨⟨layout, parsed⟩, accepted⟩ := accepted
      intro values
      simp only [WireType.places, WireType.encode, parsed]
      exact Fields.judged fields accepted (Fields.named_of_transferred parsed limit) [] 0 values
  | .variant _ _ first others, accepted, _, _, named => fun
      | .inl value => WireType.judged first accepted.1 named value
      | .inr choice => Alternatives.judged others accepted.2 named choice

theorem Fields.judged : (fields : Fields) → fields.Accepted → {more : List Field} →
    fields.Named more → ∀ (earlier : List (Option Nat)) (container : Nat)
      (values : fields.Values),
      Judged (fields.places more earlier values) (fields.encode more earlier container values)
  | .nil, _, _, _ => by
      intro earlier container values
      simp only [Fields.places, Fields.encode]
      exact .nil []
  | .cons _ _ _ _, _, [], _ => fun _ _ _ => .nil []
  | .cons name type pairs rest, accepted, field :: more, named => by
      rintro earlier container ⟨value, values⟩
      have goOn := Fields.judged rest accepted.2 named.2 (earlier ++ [type.asUint value])
      cases present : field.isPresent earlier with
      | false =>
          simp only [Fields.places, Fields.encode_of_absent present, present]
          exact goOn container values
      | true =>
          cases masked : field.tags.bitMask with
          | none =>
              rw [Fields.encode_plain_eq_bind present masked]
              simp only [Fields.places, present, masked, and_self, if_true]
              exact (WireType.judged type accepted.1 named.1 value).append (goOn container values)
          | some bits =>
              -- A member has no place of its own; at most it puts the word in front.
              simp only [Fields.places, Fields.encode, present, masked]
              exact (goOn _ values).map _

theorem Alternatives.judged : (others : Alternatives) → others.Accepted → {name : String} →
    {tags : FieldTags} → tags.field = name → ∀ choice : others.Choice,
      Judged (others.places name tags choice) (others.encode tags choice)
  | .nil, _, _, _, _ => fun choice => choice.elim
  | .cons _ type rest, accepted, _, _, named => fun
      | .inl value => WireType.judged type accepted.1 named value
      | .inr choice => Alternatives.judged rest accepted.2 named choice

end

/-- Encoding fails if and only if some place does not fit, and its error is the fault of
the first place of this kind. -/
theorem WireType.toPayload_fails_at_first_misfit (type : WireType) (accepted : type.Accepted)
    (value : type.Value) :
    ((∃ error, type.toPayload value = .error error) ↔
        ∃ place ∈ type.payloadPlaces value, ¬ place.Fits) ∧
      ∀ error, type.toPayload value = .error error →
        ∃ before place after, type.payloadPlaces value = before ++ place :: after ∧
          (∀ earlier ∈ before, earlier.Fits) ∧ ¬ place.Fits ∧ error = .encode place.fault := by
  have judged : Judged (type.payloadPlaces value) (type.toPayload value) :=
    type.judged accepted rfl value
  generalize type.payloadPlaces value = places, type.toPayload value = written at judged
  cases judged with
  | passed fit => simpa using fit
  | @stopped before after place fit unfit =>
      refine ⟨⟨fun _ => ⟨place, by simp, unfit⟩, fun _ => ⟨_, rfl⟩⟩, ?_⟩
      rintro error same
      exact ⟨before, place, after, rfl, fit, unfit, (Except.error.inj same).symm⟩

/-- The text that is left out and the members of the run do not count, and neither does
the integer behind the first misfit. -/
theorem WireType.toPayload_fails_at_first_misfit_of_second_entry :
    let entry := Catalog.record "Entry"
      [Catalog.shortAddress "address", ("count", .uint .four, [("bound", "3")])]
    let type : WireType := Catalog.record "Report"
      [Catalog.byte "mode", ("skipped", .text, [("hex", "uint16"), ("cond", "mode==1")]),
        Catalog.firstBits "low" .one "0x0f", Catalog.lastBits "high" .one "0xf0",
        ("entries", .list entry, [("len", "uint8")])]
    let value : type.Value :=
      (0, "none", 0xff, 0xff, [("0X00ff", 0xffffff, ()), ("0x10000", 0x1000000, ())], ())
    type.Accepted ∧
      type.toPayload value = .error (.encode (.invalidHex "address" "0x10000" 2)) ∧
        ∃ before after,
          type.payloadPlaces value = before ++ .address "address" .two "0x10000" :: after ∧
            (∀ earlier ∈ before, earlier.Fits) ∧
              ¬ (Place.address "address" .two "0x10000").Fits := by
  intro entry type value
  have inner : entry.Accepted := ⟨⟨_, rfl⟩, trivial, trivial, trivial⟩
  have accepted : type.Accepted :=
    ⟨⟨_, rfl⟩, trivial, trivial, trivial, trivial, inner, trivial⟩
  have failed : type.toPayload value = .error (.encode (.invalidHex "address" "0x10000" 2)) := by
    decide +kernel
  obtain ⟨before, place, after, walked, fit, unfit, same⟩ :=
    (WireType.toPayload_fails_at_first_misfit type accepted value).2 _ failed
  obtain rfl : place = .address "address" .two "0x10000" := by
    cases place with
    | address field width text =>
        cases width <;> simp_all [Place.fault, Width.bytes]
    | length field width count => simp [Place.fault] at same
    | bounded field bytes value => simp [Place.fault] at same
  exact ⟨accepted, failed, before, after, walked, fit, unfit⟩

-- One byte expresses 255 elements and no more, even if the elements themselves take no bytes.
example :
    let type : WireType := Catalog.record "Marks" [("marks", .list .unit, [("len", "uint8")])]
    type.toPayload (List.replicate 255 (), ()) = .ok [0xff] ∧
      type.toPayload (List.replicate 256 (), ()) =
        .error (.encode (.lengthOverflow "marks" 256 1)) := by
  decide +kernel

end ZigbeeHost
