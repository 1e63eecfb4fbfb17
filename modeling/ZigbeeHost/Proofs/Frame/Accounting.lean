import ZigbeeHost.Proofs.Frame.Chunking
import ZigbeeHost.Proofs.Frame.Draining
import Mathlib.Data.List.Forall2
import Mathlib.Data.List.TakeWhile

/-!
# Where the bytes of a stream go

Every byte that a frame buffer has been fed is in one of three places: in the
image of a frame that was returned, among the bytes that were discarded, or
still in the buffer.  A decode call takes a stretch from the front of the
buffer, which is noise up to a start byte and then, depending on the answer,
nothing, the image of a frame, a lone start byte, or a whole candidate of
unknown kind.  The stretches of a sequence of calls follow one another in the
stream, so no byte is used twice and the frames come in the order of the
stream.
-/

namespace ZigbeeHost

namespace Frame

/-- A start byte, a length byte, two header bytes, a payload and the check byte
of everything from the length on. -/
def image (length header command : UInt8) (payload : Bytes) : Bytes :=
  startByte :: (length :: header :: command :: payload ++
    [checksum (length :: header :: command :: payload)])

/-- The bytes are an image whose length byte and header bytes say what the frame
is. -/
def IsImage (frame : Frame) (bytes : Bytes) : Prop :=
  ∃ length header, bytes = image length header frame.command frame.payload ∧
    frame.payload.length = length.toNat ∧ kindBits header = frame.kind.bits ∧
      headerSubsystem header = frame.subsystem

/-- The kind and the subsystem of a header byte determine it. -/
theorem eq_headerByte {header : UInt8} {kind : FrameKind} {subsystem : Subsystem}
    (kindSame : kindBits header = kind.bits)
    (subsystemSame : headerSubsystem header = subsystem) :
    header = headerByte kind subsystem := by
  have low : header.toNat % 32 = subsystem.id.val := by
    rw [← subsystemSame]
    simp [headerSubsystem, Subsystem.ofNat]
  apply UInt8.toNat_inj.1
  rw [headerByte_toNat, ← kindSame, ← low, kindBits]
  omega

/-- The only image of a frame is its wire form. -/
theorem IsImage.eq_wireForm {frame : Frame} {bytes : Bytes} (isImage : frame.IsImage bytes) :
    bytes = frame.wireForm := by
  obtain ⟨length, header, rfl, same, kindSame, subsystemSame⟩ := isImage
  rw [wireForm, body, same, ← eq_headerByte kindSame subsystemSame, UInt8.ofNat_toNat]
  rfl

/-- Encoding gives the image back if the radio accepts the payload. -/
theorem IsImage.toWire_eq {frame : Frame} {bytes : Bytes} (isImage : frame.IsImage bytes)
    (small : frame.payload.length ≤ maxPayload) : frame.toWire = .ok bytes := by
  rw [isImage.eq_wireForm, toWire_of_small small]

end Frame

namespace FrameBuffer

/-- What a decode call takes from the start byte on, by its answer. -/
inductive Takes : Answer → Bytes → Prop
  | nothing : Takes (.ok none) []
  | frame {frame : Frame} {bytes : Bytes} (isImage : frame.IsImage bytes) :
      Takes (.ok (some frame)) bytes
  | startByte {expected got : UInt8} (wrong : expected ≠ got) :
      Takes (.error (.checksum expected got)) [Frame.startByte]
  | candidate {length header command : UInt8} {payload : Bytes}
      (whole : payload.length = length.toNat)
      (unknown : FrameKind.ofBits? (Frame.kindBits header) = none) :
      Takes (.error (.invalidKind (Frame.kindBits header)))
        (Frame.image length header command payload)

/-- A decode call discards noise without a start byte before it takes
anything. -/
def Accounts (answer : Answer) (removed : Bytes) : Prop :=
  ∃ noise taken, removed = noise ++ taken ∧ Frame.startByte ∉ noise ∧ Takes answer taken

/-- The bytes that a decode call removes from the front of the buffer. -/
def removed (buffer : FrameBuffer) : Bytes :=
  buffer.bytes.take (buffer.bytes.length - buffer.next.buffer.bytes.length)

/-- The bytes that each of the decode calls removes, in order. -/
def removals (buffer : FrameBuffer) : List Call → List Bytes
  | [] => []
  | .feed arrived :: rest => removals (buffer.feed arrived) rest
  | .decode :: rest => buffer.removed :: removals buffer.next.buffer rest

/-- The bytes before the first start byte are noise; what follows starts with
it. -/
theorem exists_noise (bytes : Bytes) :
    ∃ noise, bytes = noise ++ fromStart bytes ∧ Frame.startByte ∉ noise := by
  refine ⟨bytes.takeWhile (· ≠ Frame.startByte), List.takeWhile_append_dropWhile.symm, ?_⟩
  intro member
  simpa using List.mem_takeWhile_imp member

theorem fromStart_cases (bytes : Bytes) :
    fromStart bytes = [] ∨ ∃ rest, fromStart bytes = Frame.startByte :: rest := by
  induction bytes with
  | nil => exact .inl rfl
  | cons byte bytes ih =>
      by_cases start : byte = Frame.startByte
      · exact .inr ⟨bytes, by simp [fromStart, start]⟩
      · simpa [fromStart, start] using ih

theorem append_image (length header command : UInt8) (payload after : Bytes) :
    Frame.image length header command payload ++ after =
      Frame.startByte :: length :: header :: command ::
        (payload ++ Frame.checksum (length :: header :: command :: payload) :: after) := by
  simp [Frame.image]

theorem takes_candidate (rest : Bytes) :
    ∃ taken, Frame.startByte :: rest =
        taken ++ (candidate (Frame.startByte :: rest)).buffer.bytes ∧
      Takes (candidate (Frame.startByte :: rest)).answer taken := by
  match rest with
  | [] => exact ⟨[], rfl, .nothing⟩
  | [_] => exact ⟨[], rfl, .nothing⟩
  | [_, _] => exact ⟨[], rfl, .nothing⟩
  | length :: header :: command :: rest =>
      cases arrived : rest.drop length.toNat with
      | nil =>
          simp only [candidate, arrived]
          exact ⟨[], rfl, .nothing⟩
      | cons got after =>
          obtain ⟨payload, whole, rfl⟩ : ∃ payload, payload.length = length.toNat ∧
              rest = payload ++ got :: after := by
            have lengths := congrArg List.length arrived
            simp only [List.length_drop, List.length_cons] at lengths
            refine ⟨rest.take length.toNat, List.length_take_of_le (by omega), ?_⟩
            rw [← arrived, List.take_append_drop]
          have taken : (payload ++ got :: after).take length.toNat = payload := by
            rw [← whole, List.take_left]
          simp only [candidate, arrived, taken]
          split
          · rename_i right
            subst right
            rw [← append_image]
            split
            · rename_i kind known
              exact ⟨_, rfl, .frame ⟨length, header, rfl, whole,
                (FrameKind.ofBits?_eq_some_iff.1 known).symm, rfl⟩⟩
            · rename_i unknown
              exact ⟨_, rfl, .candidate whole unknown⟩
          · rename_i wrong
            exact ⟨[Frame.startByte], rfl, .startByte wrong⟩

/-- A decode call accounts for the bytes that it removes. -/
theorem accounts_next (buffer : FrameBuffer) :
    buffer.bytes = buffer.removed ++ buffer.next.buffer.bytes ∧
      Accounts buffer.next.answer buffer.removed := by
  obtain ⟨noise, split, clean⟩ := exists_noise buffer.bytes
  obtain ⟨taken, parts, takes⟩ : ∃ taken,
      fromStart buffer.bytes = taken ++ buffer.next.buffer.bytes ∧
        Takes buffer.next.answer taken := by
    change ∃ taken, fromStart buffer.bytes =
        taken ++ (candidate (fromStart buffer.bytes)).buffer.bytes ∧
      Takes (candidate (fromStart buffer.bytes)).answer taken
    rcases fromStart_cases buffer.bytes with empty | ⟨rest, started⟩
    · rw [empty]
      exact ⟨[], rfl, .nothing⟩
    · rw [started]
      exact takes_candidate rest
  have whole : buffer.bytes = (noise ++ taken) ++ buffer.next.buffer.bytes := by
    rw [List.append_assoc, ← parts, ← split]
  have removed : buffer.removed = noise ++ taken := by
    rw [FrameBuffer.removed]
    generalize buffer.next.buffer.bytes = left at whole ⊢
    rw [whole, List.length_append, Nat.add_sub_cancel, List.take_left]
  rw [removed]
  exact ⟨whole, noise, taken, rfl, clean, takes⟩

/-- The calls remove stretches one after the other from what has been fed. -/
theorem accounts_run (buffer : FrameBuffer) (calls : List Call) :
    buffer.bytes ++ fedBytes calls =
        (removals buffer calls).flatten ++ (run buffer calls).2.bytes ∧
      List.Forall₂ Accounts (run buffer calls).1 (removals buffer calls) := by
  induction calls generalizing buffer with
  | nil => exact ⟨by simp [fedBytes, removals, run], .nil⟩
  | cons call calls ih =>
      cases call with
      | feed arrived =>
          obtain ⟨bytes, answers⟩ := ih (buffer.feed arrived)
          refine ⟨?_, answers⟩
          rw [fedBytes, ← List.append_assoc]
          exact bytes
      | decode =>
          obtain ⟨bytes, answers⟩ := ih buffer.next.buffer
          obtain ⟨split, accounts⟩ := buffer.accounts_next
          refine ⟨?_, .cons accounts answers⟩
          rw [fedBytes, removals, run, List.flatten_cons, List.append_assoc, ← bytes,
            ← List.append_assoc, ← split]

/-- The image of a frame that was returned, and the bytes that were discarded
between it and the next one. -/
structure Segment where
  frame : Frame
  image : Bytes
  discarded : Bytes

/-- The bytes of the segment in the order of the stream. -/
def Segment.bytes (segment : Segment) : Bytes :=
  segment.image ++ segment.discarded

/-- What the calls remove is discarded bytes with the images of the returned
frames among them. -/
theorem exists_segments {answers : List Answer} {removals : List Bytes}
    (accounts : List.Forall₂ Accounts answers removals) :
    ∃ (discarded : Bytes) (segments : List Segment),
      removals.flatten = discarded ++ segments.flatMap Segment.bytes ∧
      segments.map Segment.frame = returned answers ∧
        ∀ segment ∈ segments, segment.frame.IsImage segment.image := by
  induction accounts with
  | nil => exact ⟨[], [], rfl, rfl, by simp⟩
  | @cons _ _ _ later first _ ih =>
      obtain ⟨discarded, segments, bytes, frames, images⟩ := ih
      obtain ⟨noise, taken, rfl, -, takes⟩ := first
      have joined (front : Bytes) : (front :: later).flatten =
          front ++ discarded ++ segments.flatMap Segment.bytes := by
        rw [List.flatten_cons, bytes, List.append_assoc]
      cases takes with
      | @frame frame _ isImage =>
          refine ⟨noise, ⟨frame, taken, discarded⟩ :: segments, ?_, ?_, ?_⟩
          · simp [joined, Segment.bytes]
          · simp [frames]
          · exact List.forall_mem_cons.2 ⟨isImage, images⟩
      | nothing => exact ⟨_, segments, joined _, frames, images⟩
      | startByte wrong => exact ⟨_, segments, joined _, frames, images⟩
      | candidate whole unknown => exact ⟨_, segments, joined _, frames, images⟩

/-- Whatever is fed and whenever frames are asked for, the stream consists of
discarded bytes, the images of the returned frames in order with discarded bytes
behind each, and the bytes in the buffer.  Encoding a returned frame gives its
image back, if the radio accepts the payload.  The discarded bytes and the images
are what the calls have removed, and each call has removed noise and, depending
on its answer, nothing, an image, a lone start byte or a candidate of unknown
kind. -/
theorem run_accounts (calls : List Call) :
    ∃ (discarded : Bytes) (segments : List Segment),
      fedBytes calls =
          discarded ++ segments.flatMap Segment.bytes ++ (run {} calls).2.bytes ∧
      segments.map Segment.frame = returned (run {} calls).1 ∧
      (∀ segment ∈ segments, segment.frame.IsImage segment.image ∧
        (segment.frame.payload.length ≤ Frame.maxPayload →
          segment.frame.toWire = .ok segment.image)) ∧
      discarded ++ segments.flatMap Segment.bytes = (removals {} calls).flatten ∧
      List.Forall₂ Accounts (run {} calls).1 (removals {} calls) := by
  obtain ⟨bytes, accounts⟩ := accounts_run {} calls
  obtain ⟨discarded, segments, parts, frames, images⟩ := exists_segments accounts
  refine ⟨discarded, segments, ?_, frames, ?_, parts.symm, accounts⟩
  · rw [← parts]
    exact bytes
  · intro segment member
    exact ⟨images segment member, (images segment member).toWire_eq⟩

end FrameBuffer

end ZigbeeHost
