import ZigbeeHost.Text.Hexadecimal

/-!
# Unsigned numerals

A numeral is a non-empty run of digits in some radix, optionally after one
plus sign, whose value fits in 64 bits. Leading zeros are allowed; blanks,
separators and a minus sign are not.
-/

namespace ZigbeeHost.Numeral

/-- Every numeral denotes a number below this limit. -/
def limit : Nat := UInt64.size

/-- The value of a digit in the given radix, which is at most sixteen. -/
def digit? (radix : Nat) (character : Char) : Option Nat :=
  (Hexadecimal.digitValue? character).filter (· < radix)

/-- Continues the number `accumulated` with more digits. -/
def digitsFrom? (radix accumulated : Nat) : List Char → Option Nat
  | [] => some accumulated
  | character :: rest => do
      digitsFrom? radix (accumulated * radix + (← digit? radix character)) rest

/-- The value of a non-empty run of digits. -/
def digits? (radix : Nat) (characters : List Char) : Option Nat :=
  if characters.isEmpty then none else digitsFrom? radix 0 characters

/-- The characters after one leading plus sign, if there is one. -/
def withoutPlus : List Char → List Char
  | '+' :: rest => rest
  | characters => characters

/-- Reads a numeral: at most one plus sign, then digits, below `limit`. -/
def read? (radix : Nat) (characters : List Char) : Option Nat :=
  (digits? radix (withoutPlus characters)).filter (· < limit)

/-- Reads a number in hexadecimal after `0x`, in binary after `0b`, and in
decimal otherwise. -/
def readMarked? : List Char → Option Nat
  | '0' :: 'x' :: digits => read? 16 digits
  | '0' :: 'b' :: digits => read? 2 digits
  | digits => read? 10 digits

/-- A run of digits in two parts is read part by part. -/
theorem digitsFrom?_append (radix accumulated : Nat) (first second : List Char) :
    digitsFrom? radix accumulated (first ++ second) =
      (digitsFrom? radix accumulated first).bind (digitsFrom? radix · second) := by
  induction first generalizing accumulated with
  | nil => rfl
  | cons character rest ih =>
      simp only [List.cons_append, digitsFrom?]
      cases digit? radix character with
      | none => rfl
      | some value => exact ih _

/-- What is read is below the limit. -/
theorem lt_limit_of_read? {radix value : Nat} {characters : List Char}
    (accepted : read? radix characters = some value) : value < limit := by
  simp only [read?, Option.filter_eq_some_iff, decide_eq_true_eq] at accepted
  exact accepted.2

end ZigbeeHost.Numeral
