import ZigbeeHost.Proofs.Payload.Integers
import Mathlib.Data.List.Forall2
import Mathlib.Data.Nat.Digits.Lemmas

/-!
# Which texts are addresses

A text is an address if it is `0x` or `0X` and at least one digit, and if what the
digits spell fits in the width.  Here this is said without the reader, in terms of
the digits that the characters stand for, and the reader accepts exactly these texts.
-/

namespace ZigbeeHost

namespace Hexadecimal

/-- The character stands for a digit, in either case. -/
def IsDigit (character : Char) (digit : Nat) : Prop :=
  digit < 16 ∧ (character = Nat.digitChar digit ∨ character = (Nat.digitChar digit).toUpper)

/-- The text is `0x` or `0X` and one or more digits, the most significant first, that
spell the value. -/
def Spells (text : String) (value : Nat) : Prop :=
  ∃ marker characters digits, text.toList = '0' :: marker :: characters ∧
    (marker = 'x' ∨ marker = 'X') ∧ characters ≠ [] ∧
      List.Forall₂ IsDigit characters digits ∧ value = Nat.ofDigits 16 digits.reverse

theorem toNat_le_of_digitValue? {character : Char} {digit : Nat}
    (found : digitValue? character = some digit) : character.toNat ≤ 'f'.toNat := by
  simp only [digitValue?, Char.le_def, UInt32.le_iff_toNat_le] at found
  change character.val.toNat ≤ 102
  split at found
  · rename_i range
    exact Nat.le_trans range.2 (by decide)
  · split at found
    · rename_i range
      exact range.2
    · split at found
      · rename_i range
        exact Nat.le_trans range.2 (by decide)
      · cases found

theorem digitValue?_eq_some_iff {character : Char} {digit : Nat} :
    digitValue? character = some digit ↔ IsDigit character digit := by
  constructor
  · intro found
    have all : ∀ code : Fin 103, ∀ digit ∈ digitValue? (Char.ofNat code.val),
        digit < 16 ∧ (Char.ofNat code.val = Nat.digitChar digit ∨
          Char.ofNat code.val = (Nat.digitChar digit).toUpper) := by
      decide +kernel
    have small : character.toNat < 103 := Nat.lt_succ_of_le (toNat_le_of_digitValue? found)
    have known := all ⟨character.toNat, small⟩ digit
    simp only [Char.ofNat_toNat] at known
    exact known found
  · rintro ⟨small, same⟩
    have all : ∀ digit : Fin 16, digitValue? (Nat.digitChar digit.val) = some digit.val ∧
        digitValue? (Nat.digitChar digit.val).toUpper = some digit.val := by
      decide +kernel
    rcases same with rfl | rfl
    · exact (all ⟨digit, small⟩).1
    · exact (all ⟨digit, small⟩).2

end Hexadecimal

namespace Numeral

/-- The character stands for a digit of the radix, in either case. -/
def IsDigit (radix : Nat) (character : Char) (digit : Nat) : Prop :=
  Hexadecimal.IsDigit character digit ∧ digit < radix

/-- The characters are one or more digits of the radix, the most significant first, that
spell the value. -/
def Spells (radix : Nat) (characters : List Char) (value : Nat) : Prop :=
  characters ≠ [] ∧ ∃ digits, List.Forall₂ (IsDigit radix) characters digits ∧
    value = Nat.ofDigits radix digits.reverse

theorem digit?_eq_some_iff {radix : Nat} {character : Char} {digit : Nat} :
    digit? radix character = some digit ↔ IsDigit radix character digit := by
  simp only [digit?, Option.filter_eq_some_iff, Hexadecimal.digitValue?_eq_some_iff,
    decide_eq_true_eq, IsDigit]

theorem digitsFrom?_eq_some_iff {radix accumulated value : Nat} {characters : List Char} :
    digitsFrom? radix accumulated characters = some value ↔
      ∃ digits, List.Forall₂ (IsDigit radix) characters digits ∧
        value = accumulated * radix ^ digits.length + Nat.ofDigits radix digits.reverse := by
  induction characters generalizing accumulated with
  | nil =>
      simp [digitsFrom?, eq_comm]
  | cons character characters ih =>
      have next (digit : Nat) (digits : List Nat) :
          (accumulated * radix + digit) * radix ^ digits.length +
              Nat.ofDigits radix digits.reverse =
            accumulated * radix ^ (digit :: digits).length +
              Nat.ofDigits radix (digit :: digits).reverse := by
        rw [List.reverse_cons, Nat.ofDigits_append, Nat.ofDigits_singleton, List.length_reverse,
          List.length_cons]
        ring
      simp only [digitsFrom?, bind, Option.bind_eq_some_iff, digit?_eq_some_iff, ih]
      constructor
      · rintro ⟨digit, isDigit, digits, areDigits, rfl⟩
        exact ⟨digit :: digits, .cons isDigit areDigits, next digit digits⟩
      · rintro ⟨_, areDigits, rfl⟩
        cases areDigits with
        | @cons _ digit _ digits isDigit areDigits =>
            exact ⟨digit, isDigit, digits, areDigits, (next digit digits).symm⟩

/-- Characters are read exactly if they spell a value. -/
theorem digits?_eq_some_iff {radix value : Nat} {characters : List Char} :
    digits? radix characters = some value ↔ Spells radix characters value := by
  cases characters with
  | nil => simp [digits?, Spells]
  | cons character characters => simp [digits?, digitsFrom?_eq_some_iff, Spells]

theorem spells_sixteen_iff {value : Nat} {characters : List Char} :
    Spells 16 characters value ↔
      characters ≠ [] ∧ ∃ digits, List.Forall₂ Hexadecimal.IsDigit characters digits ∧
        value = Nat.ofDigits 16 digits.reverse := by
  have every : IsDigit 16 = Hexadecimal.IsDigit := by
    funext character digit
    exact propext ⟨fun isDigit => isDigit.1, fun isDigit => ⟨isDigit, isDigit.1⟩⟩
  rw [Spells, every]

end Numeral

namespace Width

theorem markedDigits?_eq_some_iff {characters digits : List Char} :
    markedDigits? characters = some digits ↔
      ∃ marker, characters = '0' :: marker :: digits ∧ (marker = 'x' ∨ marker = 'X') := by
  constructor
  · intro found
    unfold markedDigits? at found
    split at found
    · obtain rfl := Option.some.inj found
      exact ⟨'x', rfl, .inl rfl⟩
    · obtain rfl := Option.some.inj found
      exact ⟨'X', rfl, .inr rfl⟩
    · cases found
  · rintro ⟨marker, rfl, rfl | rfl⟩ <;> rfl

/-- A text is read as an address exactly if it spells a value of the width. -/
theorem parseHex?_eq_some_iff {width : Width} {text : String} {value : Nat} :
    width.parseHex? text = some value ↔
      Hexadecimal.Spells text value ∧ value < 2 ^ width.bits := by
  simp only [parseHex?, bind, Option.bind_eq_some_iff, markedDigits?_eq_some_iff,
    Numeral.digits?_eq_some_iff, Numeral.spells_sixteen_iff, le_maxValue_iff,
    Option.ite_none_right_eq_some, Option.some.injEq]
  constructor
  · rintro ⟨characters, ⟨marker, marked, known⟩, read, ⟨nonempty, digits, areDigits, spelt⟩,
      fits, rfl⟩
    exact ⟨⟨marker, characters, digits, marked, known, nonempty, areDigits, spelt⟩, fits⟩
  · rintro ⟨⟨marker, characters, digits, marked, known, nonempty, areDigits, spelt⟩, fits⟩
    exact ⟨characters, ⟨marker, marked, known⟩, value, ⟨nonempty, digits, areDigits, spelt⟩,
      fits, rfl⟩

/-- No value is read exactly if the text spells none of the width. -/
theorem parseHex?_eq_none_iff {width : Width} {text : String} :
    width.parseHex? text = none ↔
      ¬ ∃ value, Hexadecimal.Spells text value ∧ value < 2 ^ width.bits := by
  simp only [Option.eq_none_iff_forall_ne_some, ne_eq, parseHex?_eq_some_iff, not_exists]

end Width

end ZigbeeHost
