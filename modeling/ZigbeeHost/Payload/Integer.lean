import ZigbeeHost.Payload.Width

/-!
# Integers as bytes

An integer is written in a fixed count of bytes, which keeps its low bits, and
read back from all bytes of a sequence. Writing what was read gives the bytes
again.
-/

namespace ZigbeeHost.ByteOrder

/-- The low `count` bytes of a value, least significant first. -/
def lowBytes : (count : Nat) → Nat → Bytes
  | 0, _ => []
  | count + 1, value => UInt8.ofNat value :: lowBytes count (value / 256)

/-- The value of bytes that come least significant first. -/
def valueOfLow : Bytes → Nat
  | [] => 0
  | byte :: rest => byte.toNat + 256 * valueOfLow rest

/-- Writes the low `count` bytes of a value. -/
def write (order : ByteOrder) (count value : Nat) : Bytes :=
  match order with
  | .little => lowBytes count value
  | .big => (lowBytes count value).reverse

/-- The value that the bytes spell in this order. -/
def read (order : ByteOrder) (bytes : Bytes) : Nat :=
  match order with
  | .little => valueOfLow bytes
  | .big => valueOfLow bytes.reverse

@[simp] theorem length_lowBytes (count value : Nat) : (lowBytes count value).length = count := by
  induction count generalizing value with
  | zero => rfl
  | succ count ih => simp [lowBytes, ih]

@[simp] theorem length_write (order : ByteOrder) (count value : Nat) :
    (order.write count value).length = count := by
  cases order <;> simp [write]

theorem lowBytes_valueOfLow (bytes : Bytes) : lowBytes bytes.length (valueOfLow bytes) = bytes := by
  induction bytes with
  | nil => rfl
  | cons byte rest ih =>
      have small := byte.toNat_lt
      have high : (byte.toNat + 256 * valueOfLow rest) / 256 = valueOfLow rest := by omega
      have low : UInt8.ofNat (byte.toNat + 256 * valueOfLow rest) = byte := by
        apply UInt8.toNat.inj
        rw [UInt8.toNat_ofNat']
        omega
      simp only [List.length_cons, valueOfLow, lowBytes, high, low, ih]

/-- Writing what was read gives the same bytes. -/
@[simp] theorem write_read (order : ByteOrder) (bytes : Bytes) :
    order.write bytes.length (order.read bytes) = bytes := by
  cases order with
  | little => exact lowBytes_valueOfLow bytes
  | big =>
      have reversed := lowBytes_valueOfLow bytes.reverse
      rw [List.length_reverse] at reversed
      simp [read, write, reversed]

end ZigbeeHost.ByteOrder
