import ZigbeeHost.Payload.Address
import ZigbeeHost.Payload.Integer
import Mathlib.Algebra.Ring.Nat

/-!
# The range of integers

A width holds the integers below a power of two, and so do the bytes that are
written for it.  Reading what was written keeps the bits that fit, and an
address text gives its value back.
-/

namespace ZigbeeHost

theorem maxOfBytes_eq (count : Nat) : maxOfBytes count = 2 ^ (8 * min count 8) - 1 := by
  rw [maxOfBytes, Nat.one_shiftLeft]

/-- Integers of at most 64 bits fit in a count of bytes if they have no more bits. -/
theorem le_maxOfBytes_iff {count value : Nat} (small : value < 2 ^ 64) :
    value ≤ maxOfBytes count ↔ value < 2 ^ (8 * count) := by
  rw [maxOfBytes_eq, Nat.le_sub_one_iff_lt (Nat.two_pow_pos _)]
  rcases Nat.le_total count 8 with few | many
  · rw [Nat.min_eq_left few]
  · rw [Nat.min_eq_right many]
    exact iff_of_true small (Nat.lt_of_lt_of_le small (Nat.pow_le_pow_right (by decide) (by omega)))

namespace Width

/-- A width holds exactly the integers of its bits. -/
theorem le_maxValue_iff {width : Width} {value : Nat} :
    value ≤ width.maxValue ↔ value < 2 ^ width.bits := by
  have same : min width.bytes 8 = width.bytes := by cases width <;> rfl
  have positive := Nat.two_pow_pos width.bits
  simp only [maxValue, maxOfBytes_eq, same, bits] at positive ⊢
  omega

theorem maxValue_eq (width : Width) : width.maxValue = 2 ^ width.bits - 1 := by
  cases width <;> rfl

theorem two_pow_bits (width : Width) : 2 ^ width.bits = 256 ^ width.bytes := by
  rw [bits, Nat.pow_mul]

theorem bytes_le (width : Width) : width.bytes ≤ 8 := by
  cases width <;> decide

theorem digitsFrom?_lowDigits (value count accumulated : Nat) :
    Numeral.digitsFrom? 16 accumulated (lowDigits value count) =
      some (accumulated * 16 ^ count + value % 16 ^ count) := by
  induction count generalizing value accumulated with
  | zero => simp [lowDigits, Numeral.digitsFrom?, Nat.mod_one]
  | succ count ih =>
      have last := digit?_digitChar (Nat.mod_lt value (by decide : 0 < 16))
      have split : value % 16 ^ (count + 1) = 16 * (value / 16 % 16 ^ count) + value % 16 := by
        rw [Nat.pow_succ, Nat.mul_comm (16 ^ count) 16, Nat.mod_mul, Nat.add_comm]
      simp only [lowDigits, Numeral.digitsFrom?_append, ih, Option.bind_some, Numeral.digitsFrom?,
        last, bind, split, Option.some.injEq]
      rw [Nat.pow_succ, Nat.add_mul, Nat.mul_assoc]
      omega

/-- Every value that fits is read back from its address text. -/
theorem parseHex?_renderHex {width : Width} {value : Nat} (fits : value ≤ width.maxValue) :
    width.parseHex? (width.renderHex value) = some value := by
  have bound : 16 ^ (2 * width.bytes) = 2 ^ width.bits := by
    rw [show (16 : Nat) = 2 ^ 4 from rfl, ← Nat.pow_mul]
    congr 1
    simp only [bits]
    omega
  have unchanged : value % 16 ^ (2 * width.bytes) = value := by
    rw [bound]
    exact Nat.mod_eq_of_lt (le_maxValue_iff.1 fits)
  have nonempty : lowDigits value (2 * width.bytes) ≠ [] := by
    intro empty
    have := congrArg List.length empty
    have := width.bytes_pos
    simp at *
    omega
  simp [parseHex?, renderHex, markedDigits?, Numeral.digits?, nonempty, digitsFrom?_lowDigits,
    unchanged, fits]

end Width

namespace ByteOrder

theorem valueOfLow_lowBytes (count value : Nat) :
    valueOfLow (lowBytes count value) = value % 256 ^ count := by
  induction count generalizing value with
  | zero => simp [lowBytes, valueOfLow, Nat.mod_one]
  | succ count ih =>
      simp only [lowBytes, valueOfLow, ih, UInt8.toNat_ofNat']
      change value % 256 + 256 * (value / 256 % 256 ^ count) = value % 256 ^ (count + 1)
      rw [Nat.pow_succ, Nat.mul_comm (256 ^ count) 256, Nat.mod_mul]

theorem valueOfLow_lt (bytes : Bytes) : valueOfLow bytes < 256 ^ bytes.length := by
  induction bytes with
  | nil => simp [valueOfLow]
  | cons byte rest ih =>
      have small := byte.toNat_lt
      simp only [valueOfLow, List.length_cons, Nat.pow_succ]
      omega

/-- Reading what was written keeps the bits that fit. -/
@[simp] theorem read_write (order : ByteOrder) (count value : Nat) :
    order.read (order.write count value) = value % 256 ^ count := by
  cases order <;> simp [read, write, valueOfLow_lowBytes]

/-- What `count` bytes spell fits in `count` bytes. -/
theorem read_lt (order : ByteOrder) (bytes : Bytes) : order.read bytes < 256 ^ bytes.length := by
  cases order with
  | little => exact valueOfLow_lt bytes
  | big => simpa [read] using valueOfLow_lt bytes.reverse

end ByteOrder

end ZigbeeHost
