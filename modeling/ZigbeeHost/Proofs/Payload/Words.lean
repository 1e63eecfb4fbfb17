import ZigbeeHost.Payload.BitMask
import ZigbeeHost.Proofs.Payload.Integers
import Mathlib.Data.Nat.Bitwise

/-!
# Words shared by the members of a bit run

The members of a bit run are inserted one after the other into one word.  Since
their masks are disjoint, the finished word still shows what each of them has
contributed.  A member read from any word gives back the bits of its mask that
its integer can hold.  Bits are compared position by position.
-/

namespace ZigbeeHost

namespace BitMask

/-- Insertion stays within the bits claimed so far and those of the mask. -/
theorem insert_within {bits : BitMask} {container used value : Nat}
    (within : container &&& used = container) :
    bits.insert container value &&& (used ||| bits.mask) = bits.insert container value := by
  apply Nat.eq_of_testBit_eq
  intro position
  have inside := congrArg (Nat.testBit · position) within
  simp only [insert, Nat.testBit_and, Nat.testBit_or] at inside ⊢
  grind

section Member

variable {bits : BitMask} {container used value word : Nat}

/-- The finished word of a run holds what the earlier members had inserted. -/
theorem and_used_of_insert (within : container &&& used = container)
    (disjoint : used &&& bits.mask = 0)
    (finished : word &&& (used ||| bits.mask) = bits.insert container value) :
    word &&& used = container := by
  apply Nat.eq_of_testBit_eq
  intro position
  have inside := congrArg (Nat.testBit · position) within
  have apart := congrArg (Nat.testBit · position) disjoint
  have bit := congrArg (Nat.testBit · position) finished
  simp only [insert, Nat.testBit_and, Nat.testBit_or, Nat.zero_testBit] at inside apart bit ⊢
  grind

theorem and_mask_of_insert (within : container &&& used = container)
    (disjoint : used &&& bits.mask = 0)
    (finished : word &&& (used ||| bits.mask) = bits.insert container value) :
    word &&& bits.mask = (value <<< bits.shift) &&& bits.mask := by
  apply Nat.eq_of_testBit_eq
  intro position
  have inside := congrArg (Nat.testBit · position) within
  have apart := congrArg (Nat.testBit · position) disjoint
  have bit := congrArg (Nat.testBit · position) finished
  simp only [insert, Nat.testBit_and, Nat.testBit_or, Nat.zero_testBit] at inside apart bit ⊢
  grind

/-- The finished word of a run gives each member the bits of its value that the
shifted mask can hold. -/
theorem extract_of_insert (within : container &&& used = container)
    (disjoint : used &&& bits.mask = 0)
    (finished : word &&& (used ||| bits.mask) = bits.insert container value) :
    bits.extract word = value &&& (bits.mask >>> bits.shift) := by
  have own := and_mask_of_insert within disjoint finished
  rw [← extract_insert_zero, extract, own, extract, insert, Nat.zero_or, Nat.and_assoc,
    Nat.and_self]

end Member

/-- The bits that a member with an integer of the given width keeps: those of
its mask that the integer can hold after the shift. -/
def kept (bits : BitMask) (width : Width) : Nat :=
  bits.mask &&& (width.maxValue <<< bits.shift)

/-- Inserting what an integer holds of an extracted value restores the kept
bits of the word. -/
theorem insert_extract (bits : BitMask) (container word : Nat) (width : Width) :
    bits.insert container (bits.extract word % 2 ^ width.bits) =
      container ||| (word &&& bits.kept width) := by
  apply Nat.eq_of_testBit_eq
  intro position
  simp only [insert, extract, kept, Width.maxValue_eq, Nat.testBit_or, Nat.testBit_and,
    Nat.testBit_shiftLeft, Nat.testBit_mod_two_pow, Nat.testBit_shiftRight,
    Nat.testBit_two_pow_sub_one]
  grind

theorem shift_le_of_testBit {bits : BitMask} {position : Nat}
    (claimed : bits.mask.testBit position = true) : bits.shift ≤ position := by
  by_contra below
  rw [Nat.not_le] at below
  cases found : (List.range 64).find? bits.mask.testBit with
  | none =>
      have shift : bits.shift = 64 := by simp [BitMask.shift, found]
      have unclaimed := List.find?_eq_none.1 found position (by simp; omega)
      exact unclaimed claimed
  | some lowest =>
      have shift : bits.shift = lowest := by simp [BitMask.shift, found]
      have unclaimed := (List.find?_range_eq_some.1 found).2.2 position (by omega)
      simp [claimed] at unclaimed

theorem kept_eq_mask {bits : BitMask} {width : Width}
    (fits : bits.mask >>> bits.shift ≤ width.maxValue) : bits.kept width = bits.mask := by
  rw [Width.le_maxValue_iff] at fits
  apply Nat.eq_of_testBit_eq
  intro position
  simp only [kept, Width.maxValue_eq, Nat.testBit_and, Nat.testBit_shiftLeft,
    Nat.testBit_two_pow_sub_one]
  cases claimed : bits.mask.testBit position with
  | false => rfl
  | true =>
      have above := shift_le_of_testBit claimed
      have shifted : (bits.mask >>> bits.shift).testBit (position - bits.shift) = true := by
        rw [Nat.testBit_shiftRight, Nat.add_sub_cancel' above, claimed]
      have held : position - bits.shift < width.bits := by
        by_contra beyond
        have large := Nat.pow_le_pow_right (n := 2) (by decide) (Nat.not_lt.1 beyond)
        rw [Nat.testBit_lt_two_pow (fits.trans_le large)] at shifted
        cases shifted
      simp [above, held]

end BitMask

end ZigbeeHost
