import ZigbeeHost.Proofs.Frame.Calls

/-!
# Frames that arrive in pieces

The bytes of a sequence of frames may arrive in pieces of any size, cut
anywhere, and the user of a frame buffer may ask for frames at any time.  What
carries the argument is that the buffer always holds the part of the remaining
frames that has been fed: a decode call either takes the first remaining frame
or finds that some of its bytes have not been fed.
-/

namespace ZigbeeHost

namespace FrameBuffer

/-- The frame of an answer, if it has one. -/
def Answer.frame? : Answer → Option Frame
  | .ok found => found
  | .error _ => none

/-- The frames among some answers, in order. -/
def returned (answers : List Answer) : List Frame :=
  answers.filterMap Answer.frame?

@[simp]
theorem returned_cons_none (answers : List Answer) :
    returned (.ok none :: answers) = returned answers :=
  rfl

@[simp]
theorem returned_cons_some (frame : Frame) (answers : List Answer) :
    returned (.ok (some frame) :: answers) = frame :: returned answers :=
  rfl

theorem mapM_toWire {frames : List Frame}
    (small : ∀ frame ∈ frames, frame.payload.length ≤ Frame.maxPayload) :
    frames.mapM Frame.toWire = .ok (frames.map Frame.wireForm) := by
  induction frames with
  | nil => rfl
  | cons frame frames ih =>
      have first := Frame.toWire_of_small (small frame (by simp))
      rw [List.mapM_cons, first, ih (fun other member => small other (by simp [member]))]
      rfl

/-- One decode call on a buffer that holds the fed part of the remaining
frames. -/
theorem next_of_remaining {buffer : FrameBuffer} {unfed : Bytes} {remaining : List Frame}
    (small : ∀ frame ∈ remaining, frame.payload.length ≤ Frame.maxPayload)
    (held : buffer.bytes ++ unfed = remaining.flatMap Frame.wireForm) :
    (buffer.next = .incomplete buffer ∧ (unfed = [] → remaining = [])) ∨
      ∃ frame later rest, remaining = frame :: later ∧
        buffer.next = .found frame rest ∧
          rest.bytes ++ unfed = later.flatMap Frame.wireForm := by
  cases remaining with
  | nil =>
      left
      have empty : buffer = { bytes := [] } := by
        cases buffer
        simp_all
      subst empty
      exact ⟨next_empty, fun _ => rfl⟩
  | cons frame later =>
      have sized := small frame (by simp)
      rw [List.flatMap_cons] at held
      -- Either the buffer ends inside the first frame, or it holds that frame and more.
      rcases List.append_eq_append_iff.1 held with
        ⟨missing, whole, unfedEq⟩ | ⟨beyond, bytesEq, laterEq⟩
      · by_cases lacking : missing = []
        · right
          subst lacking
          refine ⟨frame, later, { bytes := [] }, rfl, ?_, by simpa using unfedEq⟩
          have bytesEq : buffer.bytes = frame.wireForm ++ [] := by
            simpa using whole.symm
          rw [← next_wireForm_append sized [], ← bytesEq]
        · left
          refine ⟨next_part_of_wireForm sized whole.symm lacking, ?_⟩
          intro unfedEmpty
          rw [unfedEmpty] at unfedEq
          exact absurd (List.append_eq_nil_iff.1 unfedEq.symm).1 lacking
      · right
        refine ⟨frame, later, { bytes := beyond }, rfl, ?_, laterEq.symm⟩
        rw [← next_wireForm_append sized beyond, ← bytesEq]

/-- Whatever the calls, the frames returned and the frames still held or unfed
are all frames, in order. -/
theorem run_of_remaining {buffer : FrameBuffer} {remaining : List Frame}
    (calls : List Call) {unfed : Bytes}
    (small : ∀ frame ∈ remaining, frame.payload.length ≤ Frame.maxPayload)
    (held : buffer.bytes ++ (fedBytes calls ++ unfed) =
      remaining.flatMap Frame.wireForm) :
    ∃ left, remaining = returned (run buffer calls).1 ++ left ∧
      (∀ answer ∈ (run buffer calls).1, answer.isOk = true) ∧
        (run buffer calls).2.bytes ++ unfed = left.flatMap Frame.wireForm := by
  induction calls generalizing buffer remaining with
  | nil => exact ⟨remaining, rfl, by simp [run], by simpa [run, fedBytes] using held⟩
  | cons call calls ih =>
      cases call with
      | feed arrived =>
          apply ih small
          simpa [feed, fedBytes, List.append_assoc] using held
      | decode =>
          rcases next_of_remaining small held with
            ⟨waits, -⟩ | ⟨frame, later, rest, split, found, restHeld⟩
          · obtain ⟨left, frames, fine, after⟩ := ih small held
            refine ⟨left, ?_, ?_, ?_⟩
            · simpa [run, waits, Step.answer, Step.buffer] using frames
            · simpa [run, waits, Step.answer, Step.buffer, Except.isOk, Except.toBool] using fine
            · simpa [run, waits, Step.buffer] using after
          · subst split
            obtain ⟨left, frames, fine, after⟩ :=
              ih (fun other member => small other (by simp [member])) restHeld
            refine ⟨left, ?_, ?_, ?_⟩
            · simpa [run, found, Step.answer, Step.buffer] using frames
            · simpa [run, found, Step.answer, Step.buffer, Except.isOk, Except.toBool] using fine
            · simpa [run, found, Step.buffer] using after

/-- A buffer that holds whole frames returns them, and then nothing. -/
theorem run_decode_of_frames (frames : List Frame) (extra : Nat)
    (small : ∀ frame ∈ frames, frame.payload.length ≤ Frame.maxPayload) :
    run { bytes := frames.flatMap Frame.wireForm }
        (List.replicate (frames.length + extra) .decode) =
      (frames.map (fun frame => .ok (some frame)) ++ List.replicate extra (.ok none), {}) := by
  induction frames with
  | nil =>
      induction extra with
      | zero => rfl
      | succ extra ih =>
          simp only [List.length_nil, Nat.zero_add, List.flatMap_nil, List.map_nil,
            List.nil_append] at ih ⊢
          rw [List.replicate_succ, run, next_empty, Step.buffer, ih]
          rfl
  | cons frame frames ih =>
      have next := next_wireForm_append (small frame (by simp))
        (frames.flatMap Frame.wireForm)
      have rest := ih (fun other member => small other (by simp [member]))
      rw [List.length_cons, Nat.add_right_comm, List.replicate_succ, run,
        List.flatMap_cons, next, Step.buffer, rest]
      rfl

/-- Frames that the radio accepts have wire forms.  However these are cut into
pieces and whenever frames are asked for, no call fails and the frames come out
in order; once everything has been fed, further calls return exactly the frames
that are left and then nothing, and the buffer is empty. -/
theorem run_toWire_of_any_chunks (frames : List Frame)
    (small : ∀ frame ∈ frames, frame.payload.length ≤ Frame.maxPayload) :
    ∃ wires, frames.mapM Frame.toWire = .ok wires ∧
      ∀ (calls : List Call) (unfed : Bytes), fedBytes calls ++ unfed = wires.flatten →
        (∀ answer ∈ (run {} calls).1, answer.isOk = true) ∧
          ∃ left, frames = returned (run {} calls).1 ++ left ∧
            (unfed = [] → ∀ extra,
              run (run {} calls).2 (List.replicate (left.length + extra) .decode) =
                (left.map (fun frame => .ok (some frame)) ++
                  List.replicate extra (.ok none), {})) := by
  refine ⟨frames.map Frame.wireForm, mapM_toWire small, ?_⟩
  intro calls unfed fed
  have held : ({} : FrameBuffer).bytes ++ (fedBytes calls ++ unfed) =
      frames.flatMap Frame.wireForm := by
    simpa [List.flatMap] using fed
  obtain ⟨left, split, fine, after⟩ := run_of_remaining calls small held
  refine ⟨fine, left, split, ?_⟩
  intro everything extra
  subst everything
  have bytes : (run {} calls).2 = { bytes := left.flatMap Frame.wireForm } := by
    rw [← after, List.append_nil]
  rw [bytes]
  apply run_decode_of_frames
  intro frame member
  exact small frame (by rw [split]; simp [member])

/-- Two frames, of which the first holds a start byte in its payload and is cut
inside its header and again before that byte. -/
theorem run_toWire_of_two_frames_in_three_chunks :
    let frames : List Frame :=
      [⟨.syncRequest, .system, 1, [0xfe]⟩, ⟨.syncResponse, .system, 1, []⟩]
    let calls : List Call :=
      [.feed [0xfe, 0x01, 0x21], .decode, .feed [0x01], .decode,
        .feed [0xfe, 0xdf, 0xfe, 0x00, 0x61, 0x01, 0x60], .decode]
    (∀ frame ∈ frames, frame.payload.length ≤ Frame.maxPayload) ∧
      ∃ wires, frames.mapM Frame.toWire = .ok wires ∧
        fedBytes calls ++ [] = wires.flatten ∧
          (∀ answer ∈ (run {} calls).1, answer.isOk = true) ∧
            ∃ left, frames = returned (run {} calls).1 ++ left ∧
              ∀ extra, run (run {} calls).2 (List.replicate (left.length + extra) .decode) =
                (left.map (fun frame => .ok (some frame)) ++
                  List.replicate extra (.ok none), {}) := by
  intro frames calls
  have small : ∀ frame ∈ frames, frame.payload.length ≤ Frame.maxPayload := by decide
  obtain ⟨wires, encoded, holds⟩ := run_toWire_of_any_chunks frames small
  have fed : fedBytes calls ++ [] = wires.flatten := by
    obtain rfl := Except.ok.inj ((mapM_toWire small).symm.trans encoded)
    decide
  obtain ⟨fine, left, split, drained⟩ := holds calls [] fed
  exact ⟨small, wires, encoded, fed, fine, left, split, drained rfl⟩

end FrameBuffer

end ZigbeeHost
