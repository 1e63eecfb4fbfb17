/-!
# Fields packed into a shared word

Consecutive integer fields may share one container word: a bit run. Each
member owns the bits of its mask and keeps them right-justified, so that the
lowest bit of the mask is bit zero of the member's value.
-/

namespace ZigbeeHost

/-- The place of a field in its bit run. -/
inductive RunRole where
  /-- Opens the run; the container is read here. -/
  | first
  /-- Shares the container that an earlier field opened. -/
  | middle
  /-- Closes the run; the container is written here. -/
  | last
deriving DecidableEq, Repr

/-- Reads the name of a role. -/
def RunRole.read? : String → Option RunRole
  | "start" => some .first
  | "middle" => some .middle
  | "end" => some .last
  | _ => none

/-- The bits that one field owns in its container, and its place in the run. -/
structure BitMask where
  mask : Nat
  role : RunRole
deriving DecidableEq, Repr

namespace BitMask

/-- The position of the lowest bit of the mask. -/
def shift (bits : BitMask) : Nat :=
  ((List.range 64).find? bits.mask.testBit).getD 64

/-- Places the bits of a value that fit into the mask; the container's own
bits stay. -/
def insert (bits : BitMask) (container value : Nat) : Nat :=
  container ||| ((value <<< bits.shift) &&& bits.mask)

/-- The right-justified value that the container holds for this field. -/
def extract (bits : BitMask) (container : Nat) : Nat :=
  (container &&& bits.mask) >>> bits.shift

/-- Extraction after insertion into an empty container keeps the bits of the
value that lie in the shifted mask. -/
theorem extract_insert_zero (bits : BitMask) (value : Nat) :
    bits.extract (bits.insert 0 value) = value &&& (bits.mask >>> bits.shift) := by
  apply Nat.eq_of_testBit_eq
  intro position
  simp [extract, insert, Nat.testBit_shiftRight, Nat.testBit_and, Nat.testBit_shiftLeft]

/-- Insertion changes no bit outside the mask. -/
theorem testBit_insert_of_not_mask {bits : BitMask} {container value position : Nat}
    (outside : bits.mask.testBit position = false) :
    (bits.insert container value).testBit position = container.testBit position := by
  simp [insert, outside]

end BitMask

end ZigbeeHost
