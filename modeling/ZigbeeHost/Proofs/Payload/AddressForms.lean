import ZigbeeHost.Proofs.Payload.Addresses
import ZigbeeHost.Proofs.Payload.RoundTrip

/-!
# The full form of an address

Many texts spell one value: digits in either case, with any number of zeros in
front.  Among them is exactly one in full form, which is `0x` and two lowercase
digits for each byte, and this is how values are rendered.  The spellings of a
value have the same bytes on the wire, in either byte order, and reading these
gives the full form.
-/

namespace ZigbeeHost

namespace Hexadecimal

/-- A character stands for one digit at most. -/
theorem rightUnique_isDigit : Relator.RightUnique IsDigit := by
  intro character first second isFirst isSecond
  rw [← digitValue?_eq_some_iff] at isFirst isSecond
  exact Option.some.inj (isFirst.symm.trans isSecond)

/-- Lowercase digits stand for nothing but themselves. -/
theorem forall₂_isDigit_map_iff {digits others : List Nat} (small : ∀ digit ∈ digits, digit < 16) :
    List.Forall₂ IsDigit (digits.map Nat.digitChar) others ↔ others = digits := by
  have own : List.Forall₂ IsDigit (digits.map Nat.digitChar) digits := by
    rw [List.forall₂_map_left_iff, List.forall₂_same]
    exact fun digit member => ⟨small digit member, .inl rfl⟩
  constructor
  · intro areDigits
    exact rightUnique_isDigit.forall₂ areDigits own
  · rintro rfl
    exact own

end Hexadecimal

namespace Width

/-- The text is `0x` and exactly two lowercase digits for each byte. -/
def IsFullForm (width : Width) (text : String) : Prop :=
  ∃ digits : List Nat, text.toList = '0' :: 'x' :: digits.map Nat.digitChar ∧
    digits.length = 2 * width.bytes ∧ ∀ digit ∈ digits, digit < 16

theorem exists_lowDigits (value count : Nat) :
    ∃ digits : List Nat, lowDigits value count = digits.map Nat.digitChar ∧
      digits.length = count ∧ ∀ digit ∈ digits, digit < 16 := by
  induction count generalizing value with
  | zero => exact ⟨[], rfl, rfl, by simp⟩
  | succ count ih =>
      obtain ⟨digits, characters, length, small⟩ := ih (value / 16)
      refine ⟨digits ++ [value % 16], ?_, ?_, ?_⟩
      · rw [lowDigits, characters, List.map_append, List.map_singleton]
      · rw [List.length_append, length, List.length_singleton]
      · intro digit member
        rcases List.mem_append.1 member with member | member
        · exact small digit member
        · rw [List.mem_singleton.1 member]
          exact Nat.mod_lt value (by decide)

theorem isFullForm_renderHex (width : Width) (value : Nat) :
    width.IsFullForm (width.renderHex value) := by
  obtain ⟨digits, characters, length, small⟩ := exists_lowDigits value (2 * width.bytes)
  exact ⟨digits, by rw [renderHex, String.toList_ofList, characters], length, small⟩

/-- Texts in full form that spell one value are the same. -/
theorem IsFullForm.eq_of_spells {width : Width} {first second : String} {value : Nat}
    (firstFull : width.IsFullForm first) (secondFull : width.IsFullForm second)
    (firstSpells : Hexadecimal.Spells first value)
    (secondSpells : Hexadecimal.Spells second value) : first = second := by
  -- The digits of a full form are the only ones that its characters stand for.
  have known {text : String} (full : width.IsFullForm text)
      (spells : Hexadecimal.Spells text value) :
      ∃ digits : List Nat, text.toList = '0' :: 'x' :: digits.map Nat.digitChar ∧
        digits.reverse.length = 2 * width.bytes ∧ (∀ digit ∈ digits.reverse, digit < 16) ∧
          Nat.ofDigits 16 digits.reverse = value := by
    obtain ⟨digits, characters, length, small⟩ := full
    obtain ⟨marker, others, spelt, same, -, -, areDigits, rfl⟩ := spells
    rw [characters] at same
    obtain ⟨-, rfl⟩ := List.cons.inj (List.cons.inj same).2
    obtain rfl := (Hexadecimal.forall₂_isDigit_map_iff small).1 areDigits
    exact ⟨spelt, characters, by rw [List.length_reverse, length],
      fun digit member => small digit (List.mem_reverse.1 member), rfl⟩
  obtain ⟨firstDigits, firstCharacters, firstLength, firstSmall, firstValue⟩ :=
    known firstFull firstSpells
  obtain ⟨secondDigits, secondCharacters, secondLength, secondSmall, secondValue⟩ :=
    known secondFull secondSpells
  have reversed : firstDigits.reverse = secondDigits.reverse :=
    Nat.ofDigits_inj_of_len_eq (by decide) (firstLength.trans secondLength.symm) firstSmall
      secondSmall (firstValue.trans secondValue.symm)
  apply String.toList_inj.1
  rw [firstCharacters, secondCharacters, List.reverse_inj.1 reversed]

/-- A value that fits is rendered as the one text in full form that is read as the
value. -/
theorem eq_renderHex_iff {width : Width} {text : String} {value : Nat}
    (fits : value ≤ width.maxValue) :
    text = width.renderHex value ↔
      width.IsFullForm text ∧ width.parseHex? text = some value := by
  have rendered := parseHex?_renderHex fits
  constructor
  · rintro rfl
    exact ⟨width.isFullForm_renderHex value, rendered⟩
  · rintro ⟨full, read⟩
    exact full.eq_of_spells (width.isFullForm_renderHex value)
      (parseHex?_eq_some_iff.1 read).1 (parseHex?_eq_some_iff.1 rendered).1

end Width

namespace FieldTags

variable {tags : FieldTags} {width : Width} {text : String} {value : Nat}

theorem writeText_of_address (address : tags.hex = some width)
    (read : width.parseHex? text = some value) :
    tags.writeText text = .ok (tags.order.write width.bytes value) := by
  simp only [writeText, address, writeHex, read]

/-- The bytes of a value are read as its full form. -/
theorem readText_of_address (address : tags.hex = some width) (fits : value ≤ width.maxValue)
    (destination : String) (rest : Bytes) :
    tags.readText destination (tags.order.write width.bytes value ++ rest) =
      { value := width.renderHex value, rest } := by
  have canonical : ∀ declared ∈ tags.hex, ∃ number ≤ declared.maxValue,
      width.renderHex value = declared.renderHex number := by
    intro declared same
    rw [address, Option.mem_some_iff] at same
    exact same ▸ ⟨value, fits, rfl⟩
  exact readText_writeText (.inl (by rw [address]; rfl)) canonical
    (writeText_of_address address (Width.parseHex?_renderHex fits)) destination rest

end FieldTags

/-- A text is read as an address of a width exactly if it spells a value of the
width, in digits of either case and with any number of them.  Every value is
rendered as the one text that is `0x` and exactly two lowercase digits for each
byte and is read as the value.  In a field of either byte order all texts that are
read as one value are written as the same bytes, and from these bytes, whatever
follows, the rendered text is read. -/
theorem Width.address_texts (width : Width) :
    (∀ text value, width.parseHex? text = some value ↔
      Hexadecimal.Spells text value ∧ value ≤ width.maxValue) ∧
    (∀ value ≤ width.maxValue, ∀ text, text = width.renderHex value ↔
      width.IsFullForm text ∧ width.parseHex? text = some value) ∧
    ∀ tags : FieldTags, tags.hex = some width → ∀ first second value,
      width.parseHex? first = some value → width.parseHex? second = some value →
        ∃ bytes, bytes = tags.order.write width.bytes value ∧
          WireType.text.encode tags first = .ok bytes ∧
          WireType.text.encode tags second = .ok bytes ∧
          ∀ destination rest, WireType.text.decode tags destination (bytes ++ rest) =
            { value := width.renderHex value, rest } := by
  refine ⟨?_, fun value fits text => eq_renderHex_iff fits, ?_⟩
  · intro text value
    rw [parseHex?_eq_some_iff, le_maxValue_iff]
  · intro tags address first second value readFirst readSecond
    have fits : value ≤ width.maxValue :=
      le_maxValue_iff.2 (parseHex?_eq_some_iff.1 readFirst).2
    refine ⟨tags.order.write width.bytes value, rfl, ?_, ?_, ?_⟩
    · rw [WireType.encode, FieldTags.writeText_of_address address readFirst]
      rfl
    · rw [WireType.encode, FieldTags.writeText_of_address address readSecond]
      rfl
    · intro destination rest
      exact FieldTags.readText_of_address address fits destination rest

/-- Two spellings of one address, the one with a short run of digits in both
cases and the other with more zeros than the width has digits. -/
theorem Width.address_texts_of_two_spellings :
    let tags : FieldTags := { field := "address", hex := some .two, order := .big }
    Width.two.parseHex? "0XaBc" = some 0xabc ∧ Width.two.parseHex? "0x000000Abc" = some 0xabc ∧
      ∃ bytes, WireType.text.encode tags "0XaBc" = .ok bytes ∧
        WireType.text.encode tags "0x000000Abc" = .ok bytes ∧ bytes = [0x0a, 0xbc] ∧
        ∀ destination rest, WireType.text.decode tags destination (bytes ++ rest) =
          { value := "0x0abc", rest } := by
  intro tags
  have first : Width.two.parseHex? "0XaBc" = some 0xabc := by decide
  have second : Width.two.parseHex? "0x000000Abc" = some 0xabc := by decide
  obtain ⟨bytes, written, encodeFirst, encodeSecond, decodes⟩ :=
    (Width.address_texts .two).2.2 tags rfl "0XaBc" "0x000000Abc" 0xabc first second
  exact ⟨first, second, bytes, encodeFirst, encodeSecond, written.trans (by decide), decodes⟩

end ZigbeeHost
