import ZigbeeHost.Proofs.Frame.Accounting
import ZigbeeHost.Proofs.Frame.Resynchronisation
import Mathlib.Algebra.Ring.Parity

/-!
# Frames that are damaged on the way

The check byte of a frame makes the exclusive or of all its bytes a constant.
Damage behind the length byte leaves the candidate where it was and as long as it
was, and changes that constant by the exclusive or of the differences.  So it is
noticed unless the differences cancel each other, and they never do when a single
byte or an odd number of bits has changed.
-/

namespace ZigbeeHost

namespace Frame

theorem checksum_cons (byte : UInt8) (bytes : Bytes) :
    checksum (byte :: bytes) = byte ^^^ checksum bytes := by
  have first : (0 : UInt8) ^^^ byte = byte ^^^ 0 := by rw [UInt8.zero_xor, UInt8.xor_zero]
  rw [checksum, List.foldl_cons, first, List.foldl_assoc]
  rfl

theorem checksum_append (first second : Bytes) :
    checksum (first ++ second) = checksum first ^^^ checksum second := by
  induction first with
  | nil => exact UInt8.zero_xor.symm
  | cons byte first ih =>
      rw [List.cons_append, checksum_cons, ih, checksum_cons, UInt8.xor_assoc]

theorem checksum_concat (bytes : Bytes) (last : UInt8) :
    checksum (bytes ++ [last]) = checksum bytes ^^^ last := by
  rw [checksum_append, checksum_cons]
  exact congrArg _ UInt8.xor_zero

/-- The exclusive or of a whole image is its start byte. -/
theorem checksum_image (length header command : UInt8) (payload : Bytes) :
    checksum (image length header command payload) = startByte := by
  rw [image, checksum_cons, checksum_concat, UInt8.xor_self, UInt8.xor_zero]

end Frame

/-- For each byte, the bits in which the byte received differs from the one sent. -/
def differences (sent received : Bytes) : Bytes :=
  List.zipWith (· ^^^ ·) sent received

/-- The number of bits of a byte that are set. -/
def bitCount (byte : UInt8) : Nat :=
  (List.range 8).countP byte.toNat.testBit

/-- The number of bits that have changed. -/
def flippedBits (sent received : Bytes) : Nat :=
  ((differences sent received).map bitCount).sum

/-- What has been received is what was sent, except for bytes behind the first
two. -/
structure Altered (sent received : Bytes) : Prop where
  length : received.length = sent.length
  front : received.take 2 = sent.take 2

theorem checksum_differences {sent received : Bytes} (same : received.length = sent.length) :
    Frame.checksum (differences sent received) =
      Frame.checksum sent ^^^ Frame.checksum received := by
  induction sent generalizing received with
  | nil =>
      obtain rfl := List.length_eq_zero_iff.1 same
      rfl
  | cons byte sent ih =>
      cases received with
      | nil => cases same
      | cons other received =>
          have tails := ih (Nat.succ.inj same)
          rw [differences, List.zipWith_cons_cons, Frame.checksum_cons, Frame.checksum_cons,
            Frame.checksum_cons, ← differences, tails]
          ac_rfl

/-- A change of one byte is a difference that nothing else cancels. -/
theorem checksum_differences_set (sent : Bytes) {position : Nat} {byte : UInt8}
    (inside : position < sent.length) :
    Frame.checksum (differences sent (sent.set position byte)) = sent[position] ^^^ byte := by
  induction sent generalizing position with
  | nil => cases inside
  | cons first sent ih =>
      rw [checksum_differences (List.length_set ..)]
      cases position with
      | zero =>
          rw [List.set_cons_zero, Frame.checksum_cons, Frame.checksum_cons, List.getElem_cons_zero]
          calc first ^^^ Frame.checksum sent ^^^ (byte ^^^ Frame.checksum sent)
            _ = first ^^^ byte ^^^ (Frame.checksum sent ^^^ Frame.checksum sent) := by ac_rfl
            _ = first ^^^ byte := by rw [UInt8.xor_self, UInt8.xor_zero]
      | succ position =>
          have later := ih (Nat.lt_of_succ_lt_succ inside)
          rw [checksum_differences (List.length_set ..)] at later
          rw [List.set_cons_succ, Frame.checksum_cons, Frame.checksum_cons, List.getElem_cons_succ,
            ← later]
          calc first ^^^ Frame.checksum sent ^^^ (first ^^^ Frame.checksum (sent.set position byte))
            _ = first ^^^ first ^^^
                (Frame.checksum sent ^^^ Frame.checksum (sent.set position byte)) := by ac_rfl
            _ = _ := by rw [UInt8.xor_self, UInt8.zero_xor]

theorem countP_xor_mod_two (first second : Nat → Bool) (positions : List Nat) :
    positions.countP (fun position => first position ^^ second position) % 2 =
      (positions.countP first + positions.countP second) % 2 := by
  induction positions with
  | nil => rfl
  | cons position positions ih =>
      simp only [List.countP_cons]
      cases first position <;> cases second position <;>
        simp only [Bool.xor_false, Bool.xor_true, Bool.not_false, Bool.not_true, Bool.false_eq_true,
          if_true, if_false] <;> omega

theorem bitCount_xor_mod_two (first second : UInt8) :
    bitCount (first ^^^ second) % 2 = (bitCount first + bitCount second) % 2 := by
  have bits : (first ^^^ second).toNat.testBit =
      fun position => first.toNat.testBit position ^^ second.toNat.testBit position := by
    funext position
    rw [UInt8.toNat_xor, Nat.testBit_xor]
  rw [bitCount, bits, countP_xor_mod_two]
  rfl

/-- Cancelling keeps the parity of the number of bits. -/
theorem bitCount_checksum_mod_two (bytes : Bytes) :
    bitCount (Frame.checksum bytes) % 2 = (bytes.map bitCount).sum % 2 := by
  induction bytes with
  | nil => rfl
  | cons byte bytes ih =>
      rw [Frame.checksum_cons, bitCount_xor_mod_two, List.map_cons, List.sum_cons]
      omega

theorem checksum_differences_ne_zero_of_odd {sent received : Bytes}
    (odd : Odd (flippedBits sent received)) :
    Frame.checksum (differences sent received) ≠ 0 := by
  intro cancelled
  have parity := bitCount_checksum_mod_two (differences sent received)
  rw [cancelled] at parity
  have even : flippedBits sent received % 2 = 0 := parity.symm
  rw [Nat.odd_iff] at odd
  omega

namespace FrameBuffer

theorem checkBytes?_of_complete {length got : UInt8} {body : Bytes} (rest : Bytes)
    (whole : body.length = length.toNat + 2) :
    checkBytes? (Frame.startByte :: length :: (body ++ got :: rest)) 0 =
      some (Frame.checksum (length :: body), got) := by
  have last : (Frame.startByte :: length :: (body ++ got :: rest))[0 + length.toNat + 4]? =
      some got := by
    rw [show 0 + length.toNat + 4 = body.length + 2 by omega, List.getElem?_cons_succ,
      List.getElem?_cons_succ, List.getElem?_append_right (Nat.le_refl _), Nat.sub_self]
    rfl
  have inside : ((Frame.startByte :: length :: (body ++ got :: rest)).drop (0 + 1)).take
      (length.toNat + 3) = length :: body := by
    rw [show length.toNat + 3 = body.length + 1 by omega, List.drop_one, List.tail_cons,
      List.take_succ_cons, List.take_left]
  simp only [checkBytes?, bind, pure, Option.bind_eq_some_iff]
  exact ⟨length, rfl, got, last, by rw [inside]⟩

/-- The candidate at the front of the bytes is reported and costs its start byte.
No image of a frame stands there, and what later calls return is found behind the
start byte. -/
structure Rejected (bytes : Bytes) : Prop where
  reports : ∃ expected got, expected ≠ got ∧
    ({ bytes } : FrameBuffer).next = .failed (.checksum expected got) { bytes := bytes.tail }
  imageless : ∀ frame image after, Frame.IsImage frame image → bytes ≠ image ++ after
  passes : ∀ calls, ∃ (discarded : Bytes) (segments : List Segment),
    bytes ++ fedBytes calls = Frame.startByte :: (discarded ++ segments.flatMap Segment.bytes ++
      (run { bytes } (.decode :: calls)).2.bytes) ∧
    segments.map Segment.frame = returned (run { bytes } (.decode :: calls)).1 ∧
      ∀ segment ∈ segments, segment.frame.IsImage segment.image

theorem checkBytes?_of_image (length header command : UInt8) {payload : Bytes} (after : Bytes)
    (whole : payload.length = length.toNat) :
    checkBytes? (Frame.image length header command payload ++ after) 0 =
      some (Frame.checksum (length :: header :: command :: payload),
        Frame.checksum (length :: header :: command :: payload)) := by
  have complete : (header :: command :: payload).length = length.toNat + 2 := by simp [whole]
  rw [← checkBytes?_of_complete after complete]
  simp [Frame.image]

/-- A broken candidate is rejected. -/
theorem rejected_of_broken {rest : Bytes} (broken : IsBroken (Frame.startByte :: rest) 0) :
    Rejected (Frame.startByte :: rest) := by
  obtain ⟨expected, got, whole, wrong⟩ := broken
  have next := next_of_broken whole wrong
  refine ⟨⟨expected, got, wrong, next⟩, ?_, ?_⟩
  · rintro frame image after ⟨length, header, rfl, announced, -, -⟩ same
    rw [same, checkBytes?_of_image length header frame.command after announced] at whole
    obtain ⟨rfl, rfl⟩ := Prod.mk.inj (Option.some.inj whole)
    exact wrong rfl
  · intro calls
    obtain ⟨bytes, accounts⟩ := accounts_run { bytes := rest } calls
    obtain ⟨discarded, segments, parts, frames, images⟩ := exists_segments accounts
    refine ⟨discarded, segments, ?_, ?_, images⟩
    · rw [List.cons_append, run, next, ← parts]
      exact congrArg _ bytes
    · rw [run, next]
      exact frames

/-- Up to its length, an altered candidate looks as it did. -/
theorem exists_parts_of_altered {frame : Frame} (small : frame.payload.length ≤ Frame.maxPayload)
    {received : Bytes} (altered : Altered frame.wireForm received) :
    ∃ length body got, received = Frame.startByte :: length :: (body ++ [got]) ∧
      body.length = UInt8.toNat length + 2 := by
  have lengths := altered.length
  rw [length_wireForm] at lengths
  match received, lengths, altered.front with
  | first :: length :: tail, lengths, front =>
      obtain ⟨rfl, second⟩ := List.cons.inj front
      obtain ⟨rfl, -⟩ := List.cons.inj second
      rcases tail.eq_nil_or_concat' with rfl | ⟨body, got, rfl⟩
      · simp at lengths
      · refine ⟨_, body, got, rfl, ?_⟩
        rw [toNat_lengthByte small]
        simp only [List.length_cons, List.length_append, List.length_nil] at lengths
        omega

/-- The check byte of an altered candidate is wrong unless the differences cancel
each other. -/
theorem rejected_of_altered {frame : Frame} (small : frame.payload.length ≤ Frame.maxPayload)
    {received : Bytes} (altered : Altered frame.wireForm received)
    (uncancelled : Frame.checksum (differences frame.wireForm received) ≠ 0) (rest : Bytes) :
    Rejected (received ++ rest) := by
  obtain ⟨length, body, got, rfl, whole⟩ := exists_parts_of_altered small altered
  have sum : Frame.checksum (differences frame.wireForm
      (Frame.startByte :: length :: (body ++ [got]))) =
        Frame.checksum (length :: body) ^^^ got := by
    have wireForm : Frame.checksum frame.wireForm = Frame.startByte :=
      Frame.checksum_image _ _ _ _
    rw [checksum_differences altered.length, wireForm, Frame.checksum_cons, ← List.cons_append,
      Frame.checksum_concat, ← UInt8.xor_assoc, UInt8.xor_self, UInt8.zero_xor]
  have shape : Frame.startByte :: length :: (body ++ [got]) ++ rest =
      Frame.startByte :: length :: (body ++ got :: rest) := by simp
  rw [shape]
  apply rejected_of_broken
  refine ⟨_, got, checkBytes?_of_complete rest whole, ?_⟩
  intro right
  rw [sum, right, UInt8.xor_self] at uncancelled
  exact uncancelled rfl

/-- Whatever changes in the bytes of a frame behind its length byte, the candidate
is rejected if the differences do not cancel each other, whatever follows it.  They
do not if a single byte has changed or an odd number of bits. -/
theorem rejected_of_damage (frame : Frame) (small : frame.payload.length ≤ Frame.maxPayload) :
    ∃ sent, frame.toWire = .ok sent ∧
      (∀ received, Altered sent received → Frame.checksum (differences sent received) ≠ 0 →
        ∀ rest, Rejected (received ++ rest)) ∧
      (∀ position byte, 2 ≤ position → (inside : position < sent.length) →
        byte ≠ sent[position] → Altered sent (sent.set position byte) ∧
          Frame.checksum (differences sent (sent.set position byte)) ≠ 0) ∧
      ∀ received, Odd (flippedBits sent received) →
        Frame.checksum (differences sent received) ≠ 0 := by
  refine ⟨frame.wireForm, Frame.toWire_of_small small, ?_, ?_, ?_⟩
  · intro received altered uncancelled rest
    exact rejected_of_altered small altered uncancelled rest
  · intro position byte behind inside changed
    refine ⟨⟨List.length_set .., List.take_set_of_le behind⟩, ?_⟩
    rw [checksum_differences_set _ inside]
    exact fun cancelled => changed (UInt8.xor_eq_zero_iff.1 cancelled).symm
  · intro received odd
    exact checksum_differences_ne_zero_of_odd odd

/-- One bit of the header and two bits of the payload have changed, and another
frame follows; and the same frame with another check byte. -/
theorem rejected_of_damage_of_three_bits :
    let frame : Frame := ⟨.syncRequest, .system, 1, [0xfe]⟩
    let received : Bytes := [0xfe, 0x01, 0xa1, 0x01, 0x7f, 0xdf]
    let rest : Bytes := [0xfe, 0x00, 0x61, 0x01, 0x60]
    frame.payload.length ≤ Frame.maxPayload ∧
      ∃ sent, frame.toWire = .ok sent ∧ sent = [0xfe, 0x01, 0x21, 0x01, 0xfe, 0xdf] ∧
        Altered sent received ∧ flippedBits sent received = 3 ∧ Rejected (received ++ rest) ∧
        ({ bytes := received ++ rest } : FrameBuffer).next =
          .failed (.checksum 0xde 0xdf) { bytes := received.tail ++ rest } ∧
        Rejected (sent.set 5 0xde ++ rest) := by
  intro frame received rest
  have small : frame.payload.length ≤ Frame.maxPayload := by decide
  obtain ⟨sent, encoded, rejected, single, odd⟩ := rejected_of_damage frame small
  obtain rfl : frame.wireForm = sent :=
    Except.ok.inj ((Frame.toWire_of_small small).symm.trans encoded)
  have altered : Altered frame.wireForm received := ⟨by decide, by decide⟩
  have flipped : flippedBits frame.wireForm received = 3 := by decide
  have uncancelled := odd received (by rw [flipped]; decide)
  obtain ⟨alteredCheck, changed⟩ := single 5 0xde (by decide) (by decide) (by decide)
  exact ⟨small, frame.wireForm, encoded, by decide, altered, flipped,
    rejected received altered uncancelled rest, by decide,
    rejected _ alteredCheck changed rest⟩

end FrameBuffer

end ZigbeeHost
