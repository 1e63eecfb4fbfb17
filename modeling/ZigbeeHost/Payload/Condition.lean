import ZigbeeHost.Text.Blank
import ZigbeeHost.Text.Numeral

/-!
# Presence conditions

A field may be present only if an earlier integer field of the same record
equals, or differs from, a given number. A condition is declared as
`target==number` or `target!=number`, optionally after `uint:`.
-/

namespace ZigbeeHost

/-- How a condition compares the earlier field with its number. -/
inductive Comparison where
  | equal
  | different
deriving DecidableEq, Repr

/-- The presence condition of a field. -/
structure Condition where
  /-- The name of the earlier field. -/
  target : String
  comparison : Comparison
  /-- The number that the earlier field is compared with. -/
  value : Nat
  /-- The position of the earlier field; zero until a layout resolves it. -/
  index : Nat
deriving DecidableEq, Repr

namespace Condition

/-- Whether the condition holds when the earlier field has the value `actual`. -/
def holds (condition : Condition) (actual : Nat) : Bool :=
  match condition.comparison with
  | .equal => actual == condition.value
  | .different => actual != condition.value

/-- The characters behind `uint:`, if they start with it. -/
def withoutKind : List Char → List Char
  | 'u' :: 'i' :: 'n' :: 't' :: ':' :: rest => rest
  | characters => characters

/-- Cuts a condition at its first `==`, or else at its first `!=`. -/
def split? (characters : List Char) : Option (List Char × Comparison × List Char) :=
  match Blank.splitAtPair? '=' '=' characters with
  | some (target, value) => some (target, .equal, value)
  | none =>
      match Blank.splitAtPair? '!' '=' characters with
      | some (target, value) => some (target, .different, value)
      | none => none

/-- Reads a condition: the target must not be blank, and blanks around the
target and around the number are ignored. -/
def read? (text : String) : Option Condition := do
  let (target, comparison, value) ← split? (withoutKind text.toList)
  let name := Blank.trim target
  if name.isEmpty then none
  else
    let number ← Numeral.readMarked? (Blank.trim value)
    return { target := String.ofList name, comparison, value := number, index := 0 }

end Condition

end ZigbeeHost
