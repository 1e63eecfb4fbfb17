import ZigbeeHost.Payload.Width

/-!
# Addresses as text

A network address is an integer of known width that callers see as text: `0x`
and two lowercase digits for each byte. Reading is more liberal than writing.
It takes any number of digits in either case, as long as the value fits.
-/

namespace ZigbeeHost.Width

/-- The lowest `count` hexadecimal digits of a value, most significant first. -/
def lowDigits (value : Nat) : Nat → List Char
  | 0 => []
  | count + 1 => lowDigits (value / 16) count ++ [Nat.digitChar (value % 16)]

/-- The address text of a value: `0x` and two digits for each byte. -/
def renderHex (width : Width) (value : Nat) : String :=
  String.ofList ('0' :: 'x' :: lowDigits value (2 * width.bytes))

/-- The digits behind `0x` or `0X`. -/
def markedDigits? : List Char → Option (List Char)
  | '0' :: 'x' :: digits => some digits
  | '0' :: 'X' :: digits => some digits
  | _ => none

/-- Reads an address text whose value fits in the width. -/
def parseHex? (width : Width) (text : String) : Option Nat := do
  let digits ← markedDigits? text.toList
  let value ← Numeral.digits? 16 digits
  if value ≤ width.maxValue then some value else none

@[simp] theorem length_lowDigits (value count : Nat) : (lowDigits value count).length = count := by
  induction count generalizing value with
  | zero => rfl
  | succ count ih => simp [lowDigits, ih]

theorem digit?_digitChar {value : Nat} (small : value < 16) :
    Numeral.digit? 16 (Nat.digitChar value) = some value := by
  have all : ∀ digit : Fin 16, Numeral.digit? 16 (Nat.digitChar digit.val) = some digit.val := by
    decide +kernel
  exact all ⟨value, small⟩

end ZigbeeHost.Width
