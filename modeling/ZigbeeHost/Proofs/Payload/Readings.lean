import ZigbeeHost.Payload.Decoding
import ZigbeeHost.Payload.Encoding
import ZigbeeHost.Proofs.Payload.Integers

/-!
# What a successful reading has read

A reader that succeeds has used up a stretch of the payload.  For the readers
of integers, length prefixes and texts, the writers give that stretch back.
-/

namespace ZigbeeHost

theorem map_eq_ok {failure before after : Type} {outcome : Except failure before}
    {transform : before → after} {result : after}
    (mapped : outcome.map transform = .ok result) :
    ∃ value, outcome = .ok value ∧ transform value = result := by
  cases outcome with
  | error error => cases mapped
  | ok value => exact ⟨value, rfl, Except.ok.inj mapped⟩

section Sequences

variable {α : Type} {encode : α → Except PayloadError Bytes} {value : α} {bytes : Bytes}

/-- The other elements follow the first one, if it can be written. -/
theorem encodeEach_cons_eq_bind (encode : α → Except PayloadError Bytes) (value : α)
    (values : List α) :
    encodeEach encode (value :: values) =
      (encode value).bind fun first => (encodeEach encode values).map (first ++ ·) := by
  simp only [encodeEach]
  cases encode value <;> rfl

theorem encodeEach_cons (written : encode value = .ok bytes) (values : List α) :
    encodeEach encode (value :: values) = (encodeEach encode values).map (bytes ++ ·) := by
  rw [encodeEach_cons_eq_bind, written]
  rfl

theorem encodeEach_cons_eq_ok {values : List α}
    (encoded : encodeEach encode (value :: values) = .ok bytes) :
    ∃ first later, encode value = .ok first ∧ encodeEach encode values = .ok later ∧
      bytes = first ++ later := by
  cases head : encode value with
  | error error => simp [encodeEach, head] at encoded
  | ok first =>
      rw [encodeEach_cons head] at encoded
      obtain ⟨later, tail, same⟩ := map_eq_ok encoded
      exact ⟨first, later, rfl, tail, same.symm⟩

end Sequences

namespace Reading

variable {α β : Type} {rest : Bytes}

theorem map_eq_success {reading : Reading α} {transform : α → β} {value : β}
    (mapped : reading.map transform = { value, rest }) :
    ∃ inner, reading = { value := inner, rest } ∧ transform inner = value := by
  obtain ⟨inner, left, error⟩ := reading
  simp only [map, mk.injEq] at mapped
  obtain ⟨same, rfl, rfl⟩ := mapped
  exact ⟨inner, rfl, same⟩

theorem andThen_eq_success {reading : Reading α} {stopped : α → β}
    {next : α → Bytes → Reading β} {value : β}
    (succeeded : reading.andThen stopped next = { value, rest }) :
    ∃ inner left, reading = { value := inner, rest := left } ∧
      next inner left = { value, rest } := by
  obtain ⟨inner, left, error⟩ := reading
  cases error with
  | none => exact ⟨inner, left, rfl, succeeded⟩
  | some error => simp [andThen, map] at succeeded

theorem ofTaken_eq_success {destination : α} {payload : Bytes} {store : β → α}
    {outcome : Except DecodeError (β × Bytes)} {value : α}
    (succeeded : ofTaken destination payload store outcome = { value, rest }) :
    ∃ taken, outcome = .ok (taken, rest) ∧ store taken = value := by
  cases outcome with
  | error error => simp [ofTaken] at succeeded
  | ok result =>
      obtain ⟨taken, left⟩ := result
      simp only [ofTaken, mk.injEq, and_true] at succeeded
      obtain ⟨same, rfl⟩ := succeeded
      exact ⟨taken, rfl, same⟩

end Reading

theorem takeBytes_append (taken rest : Bytes) :
    takeBytes taken.length (taken ++ rest) = .ok (taken, rest) := by
  simp [takeBytes]

theorem takeBytes_eq_ok {count : Nat} {payload raw rest : Bytes}
    (taken : takeBytes count payload = .ok (raw, rest)) :
    raw.length = count ∧ payload = raw ++ rest := by
  simp only [takeBytes] at taken
  split at taken
  · cases taken
  · rename_i enough
    simp only [List.splitAt_eq, Except.ok.injEq, Prod.mk.injEq] at taken
    obtain ⟨rfl, rfl⟩ := taken
    simp only [List.length_take, List.take_append_drop, and_true]
    omega

theorem ByteOrder.take_eq_ok {order : ByteOrder} {count number : Nat} {payload rest : Bytes}
    (taken : order.take count payload = .ok (number, rest)) :
    ∃ raw, raw.length = count ∧ order.read raw = number ∧ payload = raw ++ rest := by
  obtain ⟨⟨raw, left⟩, split, same⟩ := map_eq_ok taken
  simp only [Prod.mk.injEq] at same
  obtain ⟨rfl, rfl⟩ := same
  obtain ⟨length, partition⟩ := takeBytes_eq_ok split
  exact ⟨raw, length, rfl, partition⟩

/-- An integer of at most eight bytes that was read can be written. -/
theorem ByteOrder.read_le_maxOfBytes (order : ByteOrder) {raw : Bytes}
    (short : raw.length ≤ 8) : order.read raw ≤ maxOfBytes raw.length := by
  have small := order.read_lt raw
  rw [maxOfBytes_eq, Nat.min_eq_left short, Nat.pow_mul]
  exact Nat.le_sub_one_of_lt small

theorem ByteOrder.read_le_maxValue (order : ByteOrder) {raw : Bytes} {width : Width}
    (length : raw.length = width.bytes) : order.read raw ≤ width.maxValue := by
  have short : raw.length ≤ 8 := length ▸ width.bytes_le
  rw [Width.maxValue, ← length]
  exact order.read_le_maxOfBytes short

namespace FieldTags

variable {tags : FieldTags} {payload rest : Bytes}

/-- The bound of an integer leaves it no wider than the integer of the shape. -/
def BoundFits (tags : FieldTags) (shape : Shape) : Prop :=
  ∀ bound, tags.bound = some bound →
    ∃ declared, shape.uintWidth? = some declared ∧ bound ≤ declared.bytes

theorem BoundFits.unbounded {shape : Shape} (fits : tags.BoundFits shape)
    (other : shape.uintWidth? = none) : tags.bound = none := by
  cases bounded : tags.bound with
  | none => rfl
  | some bound =>
      obtain ⟨declared, integer, -⟩ := fits bound bounded
      simp [other] at integer

theorem BoundFits.of_unbounded (unbounded : tags.bound = none) (shape : Shape) :
    tags.BoundFits shape := by
  intro bound bounded
  simp [unbounded] at bounded

theorem writeUint_of_takeUint {declared : Width} (fits : tags.BoundFits (.uint declared))
    {number : Nat} (taken : tags.takeUint declared payload = .ok (number, rest)) :
    ∃ raw, payload = raw ++ rest ∧ number < 2 ^ declared.bits ∧
      tags.writeUint declared number = .ok raw := by
  obtain ⟨raw, length, rfl, partition⟩ := ByteOrder.take_eq_ok taken
  have narrow : raw.length ≤ declared.bytes := by
    rw [length]
    cases bounded : tags.bound with
    | none => exact Nat.le_refl _
    | some bound =>
        obtain ⟨_, same, narrow⟩ := fits bound bounded
        obtain rfl := Option.some.inj same
        exact narrow
  have writable := tags.order.read_le_maxOfBytes (Nat.le_trans narrow declared.bytes_le)
  refine ⟨raw, partition, ?_, ?_⟩
  · rw [Width.two_pow_bits]
    exact Nat.lt_of_lt_of_le (tags.order.read_lt raw) (Nat.pow_le_pow_right (by decide) narrow)
  · simp only [writeUint, uintBytes, ← length, writable, if_true, ByteOrder.write_read]

/-- The prefix that was read is written again for the announced length. -/
theorem writeLength_of_takeLength {announced : Option Nat}
    (taken : tags.takeLength payload = .ok (announced, rest)) :
    ∃ header, payload = header ++ rest ∧ (announced = none → header = []) ∧
      ∀ length, (∀ count ∈ announced, count = length) → tags.writeLength length = .ok header := by
  cases prefixed : tags.length with
  | none =>
      simp only [takeLength, prefixed, Except.ok.injEq, Prod.mk.injEq] at taken
      obtain ⟨-, rfl⟩ := taken
      exact ⟨[], rfl, fun _ => rfl, fun length _ => by simp [writeLength, prefixed]⟩
  | some width =>
      simp only [takeLength, prefixed] at taken
      obtain ⟨⟨count, left⟩, number, same⟩ := map_eq_ok taken
      simp only [Prod.mk.injEq] at same
      obtain ⟨rfl, rfl⟩ := same
      obtain ⟨header, length, rfl, partition⟩ := ByteOrder.take_eq_ok number
      refine ⟨header, partition, fun missing => (nomatch missing), fun held same => ?_⟩
      obtain rfl := same _ rfl
      simp only [writeLength, prefixed, tags.order.read_le_maxValue length, if_true, ← length,
        ByteOrder.write_read]

theorem writeText_of_readText {destination text : String}
    (read : tags.readText destination payload = { value := text, rest }) :
    ∃ raw, payload = raw ++ rest ∧ tags.writeText text = .ok raw := by
  cases address : tags.hex with
  | some width =>
      simp only [readText, address] at read
      obtain ⟨number, taken, rfl⟩ := Reading.ofTaken_eq_success read
      obtain ⟨raw, length, rfl, partition⟩ := ByteOrder.take_eq_ok taken
      have small := tags.order.read_le_maxValue length
      exact ⟨raw, partition, by
        simp only [writeText, address, writeHex, Width.parseHex?_renderHex small, ← length,
          ByteOrder.write_read]⟩
  | none =>
      simp only [readText, address] at read
      cases prefixed : tags.takeLength payload with
      | error error => simp [prefixed] at read
      | ok result =>
          obtain ⟨announced, body⟩ := result
          simp only [prefixed] at read
          cases split : takeBytes (announced.getD body.length) body with
          | error error => simp [split] at read
          | ok result =>
              obtain ⟨raw, left⟩ := result
              simp only [split] at read
              cases decoded : Utf8.decode? raw with
              | none => simp [decoded] at read
              | some found =>
                  simp only [decoded, Reading.mk.injEq, and_true] at read
                  obtain ⟨rfl, rfl⟩ := read
                  obtain ⟨header, rfl, -, written⟩ := writeLength_of_takeLength prefixed
                  obtain ⟨length, rfl⟩ := takeBytes_eq_ok split
                  have same := Utf8.decode?_eq_some_iff.1 decoded
                  have headerWritten := written raw.length (by
                    rintro count rfl
                    exact length.symm)
                  exact ⟨header ++ raw, by simp, by
                    simp [writeText, address, same, headerWritten, Except.map]⟩

end FieldTags

end ZigbeeHost
