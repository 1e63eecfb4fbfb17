import ZigbeeHost.Proofs.Frame.Calls
import Mathlib.Data.List.Forall2

/-!
# Frames behind broken candidates

Bytes in front of a frame may hold start bytes, and every one of them opens a
candidate.  Such candidates overlap, and they may reach into the frame and
beyond it.  If all of them are complete and have a wrong check byte, then each
costs one decode call and its start byte only, so the frame is found at its
place.  The induction is on the bytes in front of the frame, because a decode
call never looks at bytes that have been dropped.
-/

namespace ZigbeeHost

namespace FrameBuffer

/-- The positions of the start bytes, in order. -/
def startPositions (bytes : Bytes) : List Nat :=
  (List.range bytes.length).filter fun position => bytes[position]? = some Frame.startByte

/-- The check byte that a candidate at the given position calls for, and the one
that it has, if it lies inside the bytes.  Its length is the byte after its start
byte. -/
def checkBytes? (bytes : Bytes) (position : Nat) : Option (UInt8 × UInt8) := do
  let length ← bytes[position + 1]?
  let got ← bytes[position + length.toNat + 4]?
  return (Frame.checksum ((bytes.drop (position + 1)).take (length.toNat + 3)), got)

/-- The candidate at the given position lies inside the bytes and has a wrong
check byte. -/
def IsBroken (bytes : Bytes) (position : Nat) : Prop :=
  ∃ expected got, checkBytes? bytes position = some (expected, got) ∧ expected ≠ got

/-- The answer is the error for the candidate at the given position. -/
def Reports (bytes : Bytes) (position : Nat) (answer : Answer) : Prop :=
  ∃ expected got, checkBytes? bytes position = some (expected, got) ∧
    answer = .error (.checksum expected got)

theorem startPositions_cons (byte : UInt8) (bytes : Bytes) :
    startPositions (byte :: bytes) =
      if byte = Frame.startByte then 0 :: (startPositions bytes).map (· + 1)
      else (startPositions bytes).map (· + 1) := by
  have later : ((List.range bytes.length).map Nat.succ).filter
      (fun position => (byte :: bytes)[position]? = some Frame.startByte) =
        (startPositions bytes).map (· + 1) := by
    rw [List.filter_map]
    rfl
  rw [startPositions, List.length_cons, List.range_succ_eq_map, List.filter_cons, later]
  simp

/-- Dropping the first byte moves every position by one. -/
theorem checkBytes?_cons (byte : UInt8) (bytes : Bytes) (position : Nat) :
    checkBytes? (byte :: bytes) (position + 1) = checkBytes? bytes position := by
  have moved (length : Nat) : position + 1 + length + 4 = position + length + 4 + 1 := by omega
  simp only [checkBytes?, moved, List.getElem?_cons_succ, List.drop_succ_cons]

theorem isBroken_cons (byte : UInt8) (bytes : Bytes) (position : Nat) :
    IsBroken (byte :: bytes) (position + 1) ↔ IsBroken bytes position := by
  simp only [IsBroken, checkBytes?_cons]

theorem reports_cons (byte : UInt8) (bytes : Bytes) (position : Nat) (answer : Answer) :
    Reports (byte :: bytes) (position + 1) answer ↔ Reports bytes position answer := by
  simp only [Reports, checkBytes?_cons]

theorem next_cons_of_ne_startByte {byte : UInt8} (other : byte ≠ Frame.startByte)
    (rest : Bytes) :
    ({ bytes := byte :: rest } : FrameBuffer).next = ({ bytes := rest } : FrameBuffer).next := by
  simp [next, other]

/-- A broken candidate costs its start byte. -/
theorem next_of_broken {rest : Bytes} {expected got : UInt8}
    (whole : checkBytes? (Frame.startByte :: rest) 0 = some (expected, got))
    (wrong : expected ≠ got) :
    ({ bytes := Frame.startByte :: rest } : FrameBuffer).next =
      .failed (.checksum expected got) { bytes := rest } := by
  simp only [checkBytes?, bind, Option.bind_eq_some_iff, pure, Option.some.injEq,
    Prod.mk.injEq] at whole
  obtain ⟨length, lengthAt, last, lastAt, check, rfl⟩ := whole
  have long : length.toNat + 4 < (Frame.startByte :: rest).length := by
    simpa using (List.getElem?_eq_some_iff.1 lastAt).1
  match rest with
  | [] | [_] | [_, _] =>
      simp only [List.length_cons, List.length_nil] at long
      omega
  | first :: header :: command :: rest =>
      obtain rfl : first = length := by simpa using lengthAt
      obtain ⟨inside, same⟩ := List.getElem?_eq_some_iff.1 (show rest[first.toNat]? = some last by
        simpa using lastAt)
      have arrived : rest.drop first.toNat = last :: rest.drop (first.toNat + 1) := by
        rw [List.drop_eq_getElem_cons inside, same]
      have expectedEq :
          Frame.checksum (first :: header :: command :: rest.take first.toNat) = expected := by
        simpa using check
      rw [next_cons_startByte]
      simp only [candidate, arrived, expectedEq]
      rw [if_neg wrong]

/-- Decode calls on a buffer whose next frame stands behind broken candidates
answer with the error of each of them and then with the frame. -/
theorem run_of_broken {noise rest : Bytes} {frame : Frame} {after : FrameBuffer}
    (found : ({ bytes := rest } : FrameBuffer).next = .found frame after)
    (broken : ∀ position ∈ startPositions noise, IsBroken (noise ++ rest) position) :
    ∃ errors, List.Forall₂ (Reports (noise ++ rest)) (startPositions noise) errors ∧
      run { bytes := noise ++ rest } (List.replicate (errors.length + 1) .decode) =
        (errors ++ [.ok (some frame)], after) := by
  induction noise with
  | nil =>
      refine ⟨[], .nil, ?_⟩
      simp only [List.nil_append, List.length_nil, List.replicate_succ, List.replicate_zero, run,
        found]
      rfl
  | cons byte noise ih =>
      rw [List.cons_append] at broken ⊢
      have later : ∀ position ∈ startPositions noise, IsBroken (noise ++ rest) position := by
        intro position member
        rw [← isBroken_cons byte]
        apply broken
        rw [startPositions_cons]
        split <;> simp [member]
      obtain ⟨errors, reports, answers⟩ := ih later
      have moved : List.Forall₂ (Reports (byte :: (noise ++ rest)))
          ((startPositions noise).map (· + 1)) errors := by
        rw [List.forall₂_map_left_iff]
        exact reports.imp fun position answer => (reports_cons byte _ position answer).2
      rw [startPositions_cons]
      by_cases start : byte = Frame.startByte
      · subst start
        obtain ⟨expected, got, whole, wrong⟩ := broken 0 (by simp [startPositions_cons])
        rw [if_pos rfl]
        refine ⟨.error (.checksum expected got) :: errors, .cons ⟨expected, got, whole, rfl⟩ moved,
          ?_⟩
        rw [List.length_cons, List.replicate_succ, run, next_of_broken whole wrong]
        simp only [Step.answer, Step.buffer, answers, List.cons_append]
      · -- A byte that starts nothing is dropped on the way to the same answer.
        rw [if_neg start]
        refine ⟨errors, moved, ?_⟩
        rw [List.replicate_succ, run] at answers ⊢
        rw [next_cons_of_ne_startByte start]
        exact answers

/-- If every start byte in front of a frame opens a candidate that lies inside
the buffer and has a wrong check byte, then decode calls answer with exactly one
checksum error for each of these start bytes, in order, and then with the frame,
and what follows the frame is left. -/
theorem run_of_broken_candidates (noise tail : Bytes) {frame : Frame}
    (small : frame.payload.length ≤ Frame.maxPayload)
    (broken : ∀ position ∈ startPositions noise,
      IsBroken (noise ++ frame.wireForm ++ tail) position) :
    frame.toWire = .ok frame.wireForm ∧
      ∃ errors,
        List.Forall₂ (Reports (noise ++ frame.wireForm ++ tail)) (startPositions noise) errors ∧
        run { bytes := noise ++ frame.wireForm ++ tail }
            (List.replicate (errors.length + 1) .decode) =
          (errors ++ [.ok (some frame)], { bytes := tail }) := by
  rw [List.append_assoc] at broken ⊢
  exact ⟨Frame.toWire_of_small small, run_of_broken (next_wireForm_append small tail) broken⟩

/-- Two candidates that overlap each other; the first reaches into the frame and
the second beyond it. -/
theorem run_of_broken_candidates_that_overlap :
    let noise : Bytes := [0xfe, 0x02, 0xfe, 0x03]
    let frame : Frame := ⟨.syncRequest, .system, 1, []⟩
    let tail : Bytes := [0x99, 0xfe]
    let buffer : Bytes := noise ++ frame.wireForm ++ tail
    startPositions noise = [0, 2] ∧ frame.payload.length ≤ Frame.maxPayload ∧
      (∀ position ∈ startPositions noise, IsBroken buffer position) ∧
        (∃ errors, List.Forall₂ (Reports buffer) (startPositions noise) errors ∧
          run { bytes := buffer } (List.replicate (errors.length + 1) .decode) =
            (errors ++ [.ok (some frame)], { bytes := tail })) ∧
          run { bytes := buffer } (List.replicate 3 .decode) =
            ([.error (.checksum 0x01 0x21), .error (.checksum 0xfd 0x99), .ok (some frame)],
              { bytes := tail }) := by
  intro noise frame tail buffer
  have positions : startPositions noise = [0, 2] := by decide
  have small : frame.payload.length ≤ Frame.maxPayload := by decide
  have broken : ∀ position ∈ startPositions noise, IsBroken buffer position := by
    rw [positions]
    intro position member
    obtain rfl | rfl : position = 0 ∨ position = 2 := by simpa using member
    · exact ⟨0x01, 0x21, by decide, by decide⟩
    · exact ⟨0xfd, 0x99, by decide, by decide⟩
  exact ⟨positions, small, broken, (run_of_broken_candidates noise tail small broken).2, by decide⟩

end FrameBuffer

end ZigbeeHost
