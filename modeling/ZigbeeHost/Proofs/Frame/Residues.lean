import ZigbeeHost.Proofs.Frame.Accounting

/-!
# What decode calls leave in the buffer

A reader asks for frames until there is nothing more, and only then waits for
more bytes.  Every answer on the way uses up bytes, so there are at most as many
of them as there are bytes.  A call that answers with nothing discards noise
only: what it leaves is empty, or the beginning of a candidate whose check byte
has not arrived.  A candidate has at most 260 bytes, so less than that is left,
whatever has been fed.
-/

namespace ZigbeeHost

namespace FrameBuffer

/-- The bytes are the beginning of a candidate: they start with a start byte, and
more bytes complete them with a right check byte. -/
structure Unfinished (bytes : Bytes) : Prop where
  starts : bytes.head? = some Frame.startByte
  lacks : ∃ missing length header command payload, missing ≠ [] ∧
    payload.length = UInt8.toNat length ∧
      bytes ++ missing = Frame.image length header command payload

/-- What may be left when there is no frame: nothing, or a candidate that has
begun. -/
def Residue (bytes : Bytes) : Prop :=
  bytes = [] ∨ Unfinished bytes

theorem length_image (length header command : UInt8) (payload : Bytes) :
    (Frame.image length header command payload).length = payload.length + 5 := by
  simp [Frame.image]

/-- A length byte announces at most 255 bytes of payload. -/
theorem Residue.length_le {bytes : Bytes} (residue : Residue bytes) : bytes.length ≤ 259 := by
  rcases residue with rfl | ⟨-, missing, length, header, command, payload, lacking, whole, parts⟩
  · simp
  · have announced := length.toNat_lt
    have present := List.length_pos_iff.2 lacking
    have lengths := congrArg List.length parts
    rw [List.length_append, length_image, whole] at lengths
    omega

/-- A candidate whose length byte has arrived is unfinished as long as one of its
two header bytes, its payload and its check byte is missing. -/
theorem unfinished_cons_iff {length : UInt8} {rest : Bytes} :
    Unfinished (Frame.startByte :: length :: rest) ↔ rest.length < length.toNat + 3 := by
  constructor
  · rintro ⟨-, missing, announced, header, command, payload, lacking, whole, parts⟩
    obtain ⟨-, tail⟩ := List.cons.inj parts
    obtain ⟨rfl, -⟩ := List.cons.inj tail
    have lengths := congrArg List.length parts
    have present := List.length_pos_iff.2 lacking
    rw [List.length_append, length_image, whole] at lengths
    simp only [List.length_cons] at lengths
    omega
  · intro short
    -- Zeros up to the length, and then whatever check byte is right.
    let zeros : Bytes := List.replicate (length.toNat + 2 - rest.length) 0
    have padded : (rest ++ zeros).length = length.toNat + 2 := by
      rw [List.length_append, List.length_replicate]
      omega
    match body : rest ++ zeros, padded with
    | header :: command :: payload, padded =>
        refine ⟨rfl, zeros ++ [Frame.checksum (length :: (rest ++ zeros))], length, header,
          command, payload, by simp, by simpa using padded, ?_⟩
        rw [Frame.image, List.cons_append, List.cons_append, ← List.append_assoc, body]
        rfl

theorem unfinished_startByte : Unfinished [Frame.startByte] := by
  obtain ⟨-, missing, length, header, command, payload, -, whole, parts⟩ :
      Unfinished [Frame.startByte, 0] := unfinished_cons_iff.2 (by decide)
  exact ⟨rfl, 0 :: missing, length, header, command, payload, nofun, whole, parts⟩

/-- From a start byte on there is nothing to be found exactly if the candidate is
unfinished. -/
theorem answer_candidate_iff (rest : Bytes) :
    (candidate (Frame.startByte :: rest)).answer = .ok none ↔
      Unfinished (Frame.startByte :: rest) := by
  rcases rest with _ | ⟨length, _ | ⟨header, _ | ⟨command, rest⟩⟩⟩
  · exact iff_of_true rfl unfinished_startByte
  · exact iff_of_true rfl (unfinished_cons_iff.2 (by simp))
  · exact iff_of_true rfl (unfinished_cons_iff.2 (by simp))
  · rw [unfinished_cons_iff, List.length_cons, List.length_cons]
    cases arrived : rest.drop length.toNat with
    | nil =>
        have short := List.drop_eq_nil_iff.1 arrived
        simp only [candidate, arrived]
        exact iff_of_true rfl (by omega)
    | cons got after =>
        have long : length.toNat < rest.length := by
          by_contra short
          rw [List.drop_eq_nil_of_le (Nat.not_lt.1 short)] at arrived
          cases arrived
        refine iff_of_false ?_ (by omega)
        simp only [candidate, arrived]
        split
        · split <;> simp [Step.answer]
        · simp [Step.answer]

/-- There is nothing to be found exactly if what follows the noise is a
residue. -/
theorem answer_next_iff (buffer : FrameBuffer) :
    buffer.next.answer = .ok none ↔ Residue (fromStart buffer.bytes) := by
  change (candidate (fromStart buffer.bytes)).answer = .ok none ↔ _
  rcases fromStart_cases buffer.bytes with empty | ⟨rest, started⟩
  · rw [empty]
    exact iff_of_true rfl (.inl rfl)
  · rw [started, answer_candidate_iff, Residue, or_iff_right nofun]

/-- A call that answers with nothing discards the noise and nothing else. -/
theorem bytes_next_of_nothing {buffer : FrameBuffer} (nothing : buffer.next.answer = .ok none) :
    buffer.next.buffer.bytes = fromStart buffer.bytes := by
  change (candidate (fromStart buffer.bytes)).answer = .ok none at nothing
  change (candidate (fromStart buffer.bytes)).buffer.bytes = fromStart buffer.bytes
  rcases fromStart_cases buffer.bytes with empty | ⟨rest, started⟩
  · rw [empty]
    rfl
  · rw [started] at nothing ⊢
    obtain ⟨taken, parts, takes⟩ := takes_candidate rest
    rw [nothing] at takes
    cases takes
    exact parts.symm

theorem residue_of_nothing {buffer : FrameBuffer} (nothing : buffer.next.answer = .ok none) :
    Residue buffer.next.buffer.bytes := by
  rw [bytes_next_of_nothing nothing]
  exact (answer_next_iff buffer).1 nothing

/-- There are at most as many answers before the first one that says nothing as
there are bytes. -/
theorem length_drain_le (buffer : FrameBuffer) :
    buffer.drain.1.length ≤ buffer.bytes.length := by
  induction buffer using drain.induct with
  | case1 buffer nothing =>
      rw [drain_of_nothing nothing]
      exact Nat.zero_le _
  | case2 buffer something ih =>
      have fewer := length_next_lt something
      rw [drain_of_something something, List.length_cons]
      omega

theorem run_append (buffer : FrameBuffer) (first later : List Call) :
    run buffer (first ++ later) =
      ((run buffer first).1 ++ (run (run buffer first).2 later).1,
        (run (run buffer first).2 later).2) := by
  induction first generalizing buffer with
  | nil => rfl
  | cons call first ih =>
      cases call with
      | feed arrived => exact ih (buffer.feed arrived)
      | decode => simp only [List.cons_append, run, ih]

/-- Whatever a buffer holds, a call that answers with a frame or an error makes it
shorter and a call that answers with nothing makes it no longer, so decoding
until there is nothing more takes at most one call more than there are bytes.
After any calls, of which the last one has answered with nothing, the buffer is
empty or starts with the start byte of an unfinished candidate, and holds at most
259 bytes. -/
theorem calls_end_in_residue (buffer : FrameBuffer) :
    (buffer.next.answer ≠ .ok none →
      buffer.next.buffer.bytes.length < buffer.bytes.length) ∧
    (buffer.next.answer = .ok none →
      buffer.next.buffer.bytes.length ≤ buffer.bytes.length) ∧
    (∃ answers rest, answers.length ≤ buffer.bytes.length ∧
      (∀ answer ∈ answers, answer ≠ .ok none) ∧
        run buffer (List.replicate (answers.length + 1) .decode) =
          (answers ++ [.ok none], rest)) ∧
    ∀ calls answers rest, run buffer (calls ++ [.decode]) = (answers ++ [.ok none], rest) →
      Residue rest.bytes ∧ rest.bytes.length ≤ 259 := by
  refine ⟨length_next_lt, ?_, ?_, ?_⟩
  · intro nothing
    rw [bytes_next_of_nothing nothing]
    exact length_fromStart_le buffer.bytes
  · obtain ⟨calls, answers⟩ := buffer.run_decode_eq_drain
    exact ⟨buffer.drain.1, buffer.drain.2, buffer.length_drain_le, answers, calls⟩
  · intro calls answers rest ends
    rw [run_append] at ends
    obtain ⟨sequence, rfl⟩ := Prod.mk.inj ends
    have nothing : (run buffer calls).2.next.answer = .ok none := by
      have last := (List.append_inj' sequence rfl).2
      exact (List.cons.inj last).1
    have residue := residue_of_nothing nothing
    exact ⟨residue, residue.length_le⟩

/-- A broken candidate, and behind it the longest residue that there is: of the
candidate with the largest length byte only the check byte is missing. -/
theorem calls_end_in_residue_of_longest :
    let residue : Bytes := 0xfe :: 0xff :: List.replicate 257 0
    let buffer : FrameBuffer := { bytes := [0x00, 0xfe, 0x00, 0x21, 0x01, 0xff] ++ residue }
    buffer.next.answer = .error (.checksum 0x20 0xff) ∧
      buffer.next.buffer.bytes.length < buffer.bytes.length ∧
      run buffer ([.decode] ++ [.decode]) =
        ([.error (.checksum 0x20 0xff)] ++ [.ok none], { bytes := residue }) ∧
      Residue residue ∧ residue.length = 259 := by
  intro residue buffer
  have error : buffer.next.answer = .error (.checksum 0x20 0xff) := by decide +kernel
  have ends : run buffer ([.decode] ++ [.decode]) =
      ([.error (.checksum 0x20 0xff)] ++ [.ok none], { bytes := residue }) := by decide +kernel
  obtain ⟨shorter, -, -, left⟩ := calls_end_in_residue buffer
  exact ⟨error, shorter (by rw [error]; nofun), ends, (left _ _ _ ends).1, by decide +kernel⟩

end FrameBuffer

end ZigbeeHost
