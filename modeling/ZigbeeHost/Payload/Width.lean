import ZigbeeHost.Text.Numeral

/-!
# Widths and byte orders

The integers of a payload take one, two, four or eight bytes, in either byte
order. Widths are named by a bit count, as in `uint16`, or by a byte count.
-/

namespace ZigbeeHost

/-- The number of bytes of an integer. -/
inductive Width where
  | one
  | two
  | four
  | eight
deriving DecidableEq, Repr, Inhabited

/-- The order in which the bytes of an integer travel. -/
inductive ByteOrder where
  /-- Least significant byte first. -/
  | little
  /-- Most significant byte first. -/
  | big
deriving DecidableEq, Repr, Inhabited

/-- The largest integer that fits in a count of bytes; from eight bytes on it
is the largest 64-bit integer. -/
def maxOfBytes (count : Nat) : Nat :=
  (1 <<< (8 * min count 8)) - 1

namespace Width

/-- The number of bytes. -/
def bytes : Width → Nat
  | .one => 1
  | .two => 2
  | .four => 4
  | .eight => 8

/-- The number of bits. -/
abbrev bits (width : Width) : Nat := 8 * width.bytes

/-- The largest integer of this width. -/
def maxValue (width : Width) : Nat := maxOfBytes width.bytes

/-- The width with the given number of bytes, if there is one. -/
def ofBytes? : Nat → Option Width
  | 1 => some .one
  | 2 => some .two
  | 4 => some .four
  | 8 => some .eight
  | _ => none

/-- Reads a number of bytes: `uint` followed by a number of bits divisible by
eight, or the number of bytes itself. -/
def readByteCount? (text : String) : Option Nat :=
  match text.toList with
  | 'u' :: 'i' :: 'n' :: 't' :: digits => do
      let bits ← Numeral.read? 10 digits
      if bits % 8 = 0 then some (bits / 8) else none
  | digits => Numeral.read? 10 digits

/-- Reads the name of a width, such as `uint16` or `2`. -/
def read? (text : String) : Option Width :=
  (readByteCount? text).bind ofBytes?

@[simp] theorem ofBytes?_bytes (width : Width) : ofBytes? width.bytes = some width := by
  cases width <;> rfl

theorem ofBytes?_eq_some_iff {count : Nat} {width : Width} :
    ofBytes? count = some width ↔ width.bytes = count := by
  constructor
  · intro found
    unfold ofBytes? at found
    split at found <;> first | (obtain rfl := Option.some.inj found; rfl) | simp at found
  · rintro rfl
    exact ofBytes?_bytes width

theorem bytes_pos (width : Width) : 0 < width.bytes := by
  cases width <;> decide

theorem bits_le (width : Width) : width.bits ≤ 64 := by
  cases width <;> decide

end Width

end ZigbeeHost
