import ZigbeeHost.Proofs.Layout.Tags
import ZigbeeHost.Proofs.Payload.Addresses

/-!
# Numbers in tags

Four tags hold numbers.  A mask is written in decimal, or in hexadecimal or binary
behind a marker; a size is a count of bytes, or a count of bits behind `uint`.  Both
are said here without the readers, in terms of what the digits spell.  Between marker
and digits one plus sign may stand, and nothing else; every other text is refused.
-/

namespace ZigbeeHost

namespace Numeral

/-- What may stand in front of the digits of a number. -/
def signs : List (List Char) := [[], ['+']]

/-- The text is a marker for the radix, a sign, and the digits of a mask. -/
def SpellsMask (sign : List Char) (text : List Char) (mask : Nat) : Prop :=
  ∃ marker radix digits, (marker, radix) ∈ [([], 10), (['0', 'x'], 16), (['0', 'b'], 2)] ∧
    text = marker ++ (sign ++ digits) ∧ Spells radix digits mask

/-- The text is a sign and the digits of a count of bytes, or of bits behind `uint`. -/
def SpellsByteCount (sign : List Char) (text : List Char) (count : Nat) : Prop :=
  ∃ marker size digits, (marker, size) ∈ [([], 1), (['u', 'i', 'n', 't'], 8)] ∧
    text = marker ++ (sign ++ digits) ∧ Spells 10 digits (size * count)

theorem exists_digit_of_mem {radix value : Nat} {characters : List Char}
    (spells : Spells radix characters value) {character : Char} (member : character ∈ characters) :
    ∃ digit, digit? radix character = some digit := by
  obtain ⟨-, digits, areDigits, -⟩ := spells
  induction areDigits with
  | nil => cases member
  | cons isDigit areDigits ih =>
      rcases List.mem_cons.1 member with rfl | member
      · exact ⟨_, digit?_eq_some_iff.2 isDigit⟩
      · exact ih member

/-- Digits do not start with a sign. -/
theorem withoutPlus_of_spells {radix value : Nat} {digits : List Char}
    (spells : Spells radix digits value) : withoutPlus digits = digits := by
  unfold withoutPlus
  split
  · obtain ⟨digit, known⟩ := exists_digit_of_mem spells List.mem_cons_self
    cases known
  · rfl

theorem read?_eq_some_iff {radix value : Nat} {characters : List Char} :
    read? radix characters = some value ↔
      (∃ sign ∈ signs, ∃ digits, characters = sign ++ digits ∧ Spells radix digits value) ∧
        value < 2 ^ 64 := by
  have limited : value < limit ↔ value < 2 ^ 64 := Iff.rfl
  rw [read?, Option.filter_eq_some_iff, decide_eq_true_eq, digits?_eq_some_iff, limited]
  refine and_congr_left fun _ => ?_
  constructor
  · intro spells
    unfold withoutPlus at spells
    split at spells
    · exact ⟨['+'], by decide, _, rfl, spells⟩
    · exact ⟨[], by decide, _, rfl, spells⟩
  · rintro ⟨sign, member, digits, rfl, spells⟩
    obtain rfl | rfl : sign = [] ∨ sign = ['+'] := by simpa [signs] using member
    · rwa [List.nil_append, withoutPlus_of_spells spells]
    · exact spells

/-- What stands behind a sign in decimal has no letter. -/
theorem notMem_of_spells {sign digits : List Char} (member : sign ∈ signs) {value : Nat}
    (spells : Spells 10 digits value) {letter : Char} (other : digit? 10 letter = none)
    (unsigned : letter ≠ '+') : letter ∉ sign ++ digits := by
  intro inside
  rcases List.mem_append.1 inside with inside | inside
  · obtain rfl | rfl : sign = [] ∨ sign = ['+'] := by simpa [signs] using member
    · cases inside
    · exact unsigned (List.mem_singleton.1 inside)
  · obtain ⟨digit, known⟩ := exists_digit_of_mem spells inside
    rw [other] at known
    cases known

theorem readMarked?_eq_some_iff {text : List Char} {mask : Nat} :
    readMarked? text = some mask ↔
      (∃ sign ∈ signs, SpellsMask sign text mask) ∧ mask < 2 ^ 64 := by
  constructor
  · intro known
    unfold readMarked? at known
    split at known
    · obtain ⟨⟨sign, member, digits, rfl, spells⟩, small⟩ := read?_eq_some_iff.1 known
      exact ⟨⟨sign, member, ['0', 'x'], 16, digits, by decide, rfl, spells⟩, small⟩
    · obtain ⟨⟨sign, member, digits, rfl, spells⟩, small⟩ := read?_eq_some_iff.1 known
      exact ⟨⟨sign, member, ['0', 'b'], 2, digits, by decide, rfl, spells⟩, small⟩
    · obtain ⟨⟨sign, member, digits, rfl, spells⟩, small⟩ := read?_eq_some_iff.1 known
      exact ⟨⟨sign, member, [], 10, digits, by decide, rfl, spells⟩, small⟩
  · rintro ⟨⟨sign, member, marker, radix, digits, listed, rfl, spells⟩, small⟩
    have read : read? radix (sign ++ digits) = some mask :=
      read?_eq_some_iff.2 ⟨⟨sign, member, digits, rfl, spells⟩, small⟩
    simp only [List.mem_cons, List.not_mem_nil, or_false, Prod.mk.injEq] at listed
    obtain ⟨rfl, rfl⟩ | ⟨rfl, rfl⟩ | ⟨rfl, rfl⟩ := listed
    · -- A marker would put a letter among the decimal digits.
      rw [List.nil_append]
      unfold readMarked?
      split
      · rename_i rest same
        have letter : 'x' ∈ sign ++ digits := by simp [same]
        exact absurd letter (notMem_of_spells member spells rfl (by decide))
      · rename_i rest same
        have letter : 'b' ∈ sign ++ digits := by simp [same]
        exact absurd letter (notMem_of_spells member spells rfl (by decide))
      · exact read
    · exact read
    · exact read

end Numeral

namespace Width

open Numeral

/-- The limit on what digits may spell is far above any size. -/
theorem readByteCount?_eq_some_iff {text : String} {count : Nat} (small : count ≤ 8) :
    readByteCount? text = some count ↔ ∃ sign ∈ signs, SpellsByteCount sign text.toList count := by
  constructor
  · intro known
    unfold readByteCount? at known
    split at known
    · rename_i digits same
      obtain ⟨bits, read, whole⟩ := Option.bind_eq_some_iff.1 known
      obtain ⟨⟨sign, member, digits, rfl, spells⟩, -⟩ := read?_eq_some_iff.1 read
      obtain ⟨divisible, quotient⟩ := Option.ite_none_right_eq_some.1 whole
      obtain rfl := Option.some.inj quotient
      refine ⟨sign, member, ['u', 'i', 'n', 't'], 8, digits, by decide, same, ?_⟩
      rwa [Nat.mul_div_cancel' (Nat.dvd_of_mod_eq_zero divisible)]
    · obtain ⟨⟨sign, member, digits, same, spells⟩, -⟩ := read?_eq_some_iff.1 known
      exact ⟨sign, member, [], 1, digits, by decide, same, by rwa [Nat.one_mul]⟩
  · rintro ⟨sign, member, marker, size, digits, listed, same, spells⟩
    simp only [List.mem_cons, List.not_mem_nil, or_false, Prod.mk.injEq] at listed
    have bounded : size * count < 2 ^ 64 := by
      rcases listed with ⟨-, rfl⟩ | ⟨-, rfl⟩ <;> omega
    have read : Numeral.read? 10 (sign ++ digits) = some (size * count) :=
      read?_eq_some_iff.2 ⟨⟨sign, member, digits, rfl, spells⟩, bounded⟩
    unfold readByteCount?
    rw [same]
    obtain ⟨rfl, rfl⟩ | ⟨rfl, rfl⟩ := listed
    · rw [List.nil_append]
      split
      · rename_i rest split
        have letter : 'u' ∈ sign ++ digits := by simp [split]
        exact absurd letter (notMem_of_spells member spells rfl (by decide))
      · rwa [Nat.one_mul] at read
    · simp [read]

theorem read?_eq_some_iff {text : String} {width : Width} :
    Width.read? text = some width ↔
      ∃ sign ∈ signs, SpellsByteCount sign text.toList width.bytes := by
  have small : width.bytes ≤ 8 := width.bytes_le
  rw [← readByteCount?_eq_some_iff small, Width.read?, Option.bind_eq_some_iff]
  simp only [ofBytes?_eq_some_iff]
  constructor
  · rintro ⟨count, known, rfl⟩
    exact known
  · exact fun known => ⟨_, known, rfl⟩

end Width

namespace Tag

open Numeral

variable {text : String} {tag : Tag}

theorem read_name_eq_ok_iff {kind : TagKind} :
    Tag.read (kind.name, text) = .ok tag ↔ readValue? kind text = some tag := by
  rw [read_eq_ok_iff]
  constructor
  · rintro ⟨other, named, known⟩
    rwa [TagKind.name_inj.1 named]
  · exact fun known => ⟨kind, rfl, known⟩

theorem read_bits_iff : Tag.read ("bits", text) = .ok tag ↔
    ∃ mask, tag = .bits mask ∧ (∃ sign ∈ signs, SpellsMask sign text.toList mask) ∧
      1 ≤ mask ∧ mask < 2 ^ 64 := by
  rw [show ("bits", text) = (TagKind.bits.name, text) from rfl, read_name_eq_ok_iff]
  simp only [readValue?, Option.map_eq_some_iff, Option.filter_eq_some_iff,
    readMarked?_eq_some_iff, decide_eq_true_eq, Nat.one_le_iff_ne_zero]
  constructor
  · rintro ⟨mask, ⟨⟨spelt, small⟩, positive⟩, rfl⟩
    exact ⟨mask, rfl, spelt, positive, small⟩
  · rintro ⟨mask, rfl, spelt, positive, small⟩
    exact ⟨mask, ⟨⟨spelt, small⟩, positive⟩, rfl⟩

theorem read_bound_iff : Tag.read ("bound", text) = .ok tag ↔
    ∃ count, tag = .bound count ∧ (∃ sign ∈ signs, SpellsByteCount sign text.toList count) ∧
      1 ≤ count ∧ count ≤ 8 := by
  rw [show ("bound", text) = (TagKind.bound.name, text) from rfl, read_name_eq_ok_iff]
  simp only [readValue?, Option.map_eq_some_iff, Option.filter_eq_some_iff, decide_eq_true_eq]
  constructor
  · rintro ⟨count, ⟨read, least, most⟩, rfl⟩
    exact ⟨count, rfl, (Width.readByteCount?_eq_some_iff most).1 read, least, most⟩
  · rintro ⟨count, rfl, spelt, least, most⟩
    exact ⟨count, ⟨(Width.readByteCount?_eq_some_iff most).2 spelt, least, most⟩, rfl⟩

theorem read_hex_iff : Tag.read ("hex", text) = .ok tag ↔
    ∃ width : Width, tag = .hex width ∧
      ∃ sign ∈ signs, SpellsByteCount sign text.toList width.bytes := by
  rw [show ("hex", text) = (TagKind.hex.name, text) from rfl, read_name_eq_ok_iff]
  simp only [readValue?, Option.map_eq_some_iff, Width.read?_eq_some_iff]
  constructor
  · rintro ⟨width, spelt, rfl⟩
    exact ⟨width, rfl, spelt⟩
  · rintro ⟨width, rfl, spelt⟩
    exact ⟨width, spelt, rfl⟩

theorem read_length_iff : Tag.read ("len", text) = .ok tag ↔
    ∃ width : Width, tag = .length width ∧ width ≠ .eight ∧
      ∃ sign ∈ signs, SpellsByteCount sign text.toList width.bytes := by
  rw [show ("len", text) = (TagKind.length.name, text) from rfl, read_name_eq_ok_iff]
  simp only [readValue?, Option.map_eq_some_iff, Option.filter_eq_some_iff,
    Width.read?_eq_some_iff, decide_eq_true_eq]
  constructor
  · rintro ⟨width, ⟨spelt, short⟩, rfl⟩
    exact ⟨width, rfl, short, spelt⟩
  · rintro ⟨width, rfl, short, spelt⟩
    exact ⟨width, ⟨spelt, short⟩, rfl⟩

/-- A value that a tag cannot take is the error of its field, once all pairs before it
can be read. -/
theorem parse_eq_error_of_unread {kind : TagKind}
    (unread : ∀ tag, Tag.read (kind.name, text) ≠ .ok tag) {before : List (String × String)}
    (readable : ∀ pair ∈ before, IsReadable pair) (record field : String)
    (after : List (String × String)) :
    FieldTags.parse record field (before ++ (kind.name, text) :: after) =
      .error { record, field, fault := valueFault kind text } := by
  have fault : Tag.read (kind.name, text) = .error (valueFault kind text) := by
    simp only [Tag.read, TagKind.ofName?_eq_some_iff.2 rfl]
    cases known : readValue? kind text with
    | none => rfl
    | some tag => exact absurd (read_name_eq_ok_iff.2 known) (unread tag)
  exact FieldTags.parse_eq_error_iff.2 ⟨rfl, rfl,
    FieldTags.read_eq_error_iff.2 (.inl ⟨before, _, after, rfl, readable, fault⟩)⟩

/-- The numbers that tags take, for every text.  A mask is decimal, or hexadecimal or
binary behind its marker, and from one to the largest 64-bit integer; a bound, and the
widths of an address and of a length, are a count of bytes, or of bits behind `uint`.  One
plus sign may stand in front of the digits.  Any other text is the error of its field. -/
theorem numbers_in_tags (text : String) :
    (∀ tag, Tag.read ("bits", text) = .ok tag ↔
      ∃ mask, tag = .bits mask ∧ (∃ sign ∈ signs, SpellsMask sign text.toList mask) ∧
        1 ≤ mask ∧ mask < 2 ^ 64) ∧
    (∀ tag, Tag.read ("bound", text) = .ok tag ↔
      ∃ count, tag = .bound count ∧ (∃ sign ∈ signs, SpellsByteCount sign text.toList count) ∧
        1 ≤ count ∧ count ≤ 8) ∧
    (∀ tag, Tag.read ("hex", text) = .ok tag ↔
      ∃ width : Width, tag = .hex width ∧
        ∃ sign ∈ signs, SpellsByteCount sign text.toList width.bytes) ∧
    (∀ tag, Tag.read ("len", text) = .ok tag ↔
      ∃ width : Width, tag = .length width ∧ width ≠ .eight ∧
        ∃ sign ∈ signs, SpellsByteCount sign text.toList width.bytes) ∧
    ∀ kind ∈ [TagKind.bits, .bound, .hex, .length],
      (∀ tag, Tag.read (kind.name, text) ≠ .ok tag) →
        ∀ before, (∀ pair ∈ before, IsReadable pair) → ∀ record field after,
          FieldTags.parse record field (before ++ (kind.name, text) :: after) =
            .error { record, field, fault := valueFault kind text } := by
  refine ⟨fun _ => read_bits_iff, fun _ => read_bound_iff, fun _ => read_hex_iff,
    fun _ => read_length_iff, ?_⟩
  intro kind _ unread before readable record field after
  exact parse_eq_error_of_unread unread readable record field after

/-- Three bytes are a bound, but neither the width of an address nor a mask. -/
theorem numbers_in_tags_of_three_bytes :
    Tag.read ("bound", "uint24") = .ok (.bound 3) ∧
      FieldTags.parse "Link" "key" [("len", "1"), ("hex", "uint24"), ("endianness", "be")] =
        .error { record := "Link", field := "key", fault := .unsupportedWidth .hex "uint24" } ∧
      FieldTags.parse "Link" "key" [("bits", "uint24")] =
        .error { record := "Link", field := "key", fault := .invalidTagValue .bits "uint24" } := by
  have spells : Spells 10 ['2', '4'] (8 * 3) := digits?_eq_some_iff.1 rfl
  have bound := ((numbers_in_tags "uint24").2.1 (.bound 3)).2
    ⟨3, rfl, ⟨[], by decide, ['u', 'i', 'n', 't'], 8, ['2', '4'], by decide, rfl, spells⟩,
      by decide, by decide⟩
  have refused := (numbers_in_tags "uint24").2.2.2.2
  have width := refused .hex (by decide) (fun tag read => nomatch read) [("len", "1")] (by decide)
    "Link" "key" [("endianness", "be")]
  have mask := refused .bits (by decide) (fun tag read => nomatch read) [] (by decide)
    "Link" "key" []
  exact ⟨bound, width, mask⟩

/-- Without a sign, `+5` spells no mask, and yet it is read as one. -/
theorem not_forall_read_bits_iff_unsigned :
    ¬ ∀ text mask, Tag.read ("bits", text) = .ok (.bits mask) ↔
      SpellsMask [] text.toList mask ∧ 1 ≤ mask ∧ mask < 2 ^ 64 := by
  intro unsigned
  have read : Tag.read ("bits", "+5") = .ok (.bits 5) := rfl
  obtain ⟨⟨marker, radix, digits, listed, same, spells⟩, -⟩ := (unsigned "+5" 5).1 read
  simp only [List.mem_cons, List.not_mem_nil, or_false, Prod.mk.injEq] at listed
  obtain ⟨rfl, rfl⟩ | ⟨rfl, rfl⟩ | ⟨rfl, rfl⟩ := listed
  · obtain rfl : ['+', '5'] = digits := same
    obtain ⟨digit, known⟩ := exists_digit_of_mem spells List.mem_cons_self
    cases known
  · cases same
  · cases same

end Tag

end ZigbeeHost
