/-!
# Hexadecimal text

Bytes are shown as two lowercase digits each. Reading accepts either case, so
reading what was written gives the byte back.
-/

namespace ZigbeeHost

/-- A sequence of octets, in the order in which they travel. -/
abbrev Bytes := List UInt8

namespace Hexadecimal

/-- The two lowercase digits of a byte, the high half first. -/
def digits (byte : UInt8) : List Char :=
  [Nat.digitChar (byte.toNat / 16), Nat.digitChar (byte.toNat % 16)]

/-- The digits of all bytes in order, with nothing between them. -/
def render (bytes : Bytes) : String :=
  String.ofList (bytes.flatMap digits)

/-- A byte as it appears inside a message: `0x` and two digits. -/
def renderByte (byte : UInt8) : String :=
  "0x" ++ String.ofList (digits byte)

/-- The value of a digit character in either case, if it is one. -/
def digitValue? (character : Char) : Option Nat :=
  if '0' ≤ character ∧ character ≤ '9' then some (character.toNat - '0'.toNat)
  else if 'a' ≤ character ∧ character ≤ 'f' then some (character.toNat - 'a'.toNat + 10)
  else if 'A' ≤ character ∧ character ≤ 'F' then some (character.toNat - 'A'.toNat + 10)
  else none

/-- Reads pairs of digits; an odd count or any other character is refused. -/
def readDigits? : List Char → Option Bytes
  | [] => some []
  | [_] => none
  | high :: low :: rest => do
      let upper ← digitValue? high
      let lower ← digitValue? low
      let bytes ← readDigits? rest
      return UInt8.ofNat (16 * upper + lower) :: bytes

/-- Reads a text made of pairs of digits and nothing else. -/
def read? (text : String) : Option Bytes :=
  readDigits? text.toList

theorem readDigits?_digits (byte : UInt8) (rest : List Char) :
    readDigits? (digits byte ++ rest) = (readDigits? rest).map (byte :: ·) := by
  have pair : ∀ value : Fin 256,
      digitValue? (Nat.digitChar (value.val / 16)) = some (value.val / 16) ∧
        digitValue? (Nat.digitChar (value.val % 16)) = some (value.val % 16) := by
    decide +kernel
  obtain ⟨upper, lower⟩ := pair ⟨byte.toNat, byte.toNat_lt⟩
  have whole : UInt8.ofNat (16 * (byte.toNat / 16) + byte.toNat % 16) = byte := by
    rw [Nat.div_add_mod]
    exact UInt8.ofNat_toNat
  simp only [digits, List.cons_append, List.nil_append, readDigits?]
  cases readDigits? rest <;> simp only [upper, lower, bind, Option.bind, pure, Option.map, whole]

/-- Every byte sequence is read back from its own text. -/
@[simp] theorem read?_render (bytes : Bytes) : read? (render bytes) = some bytes := by
  simp only [read?, render, String.toList_ofList]
  induction bytes with
  | nil => rfl
  | cons byte rest ih => simp [List.flatMap_cons, readDigits?_digits, ih]

end Hexadecimal

end ZigbeeHost
