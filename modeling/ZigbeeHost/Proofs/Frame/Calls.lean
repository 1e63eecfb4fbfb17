import ZigbeeHost.Frame.Buffer

/-!
# Calls on a frame buffer

A user of a frame buffer feeds it bytes as they arrive and asks it for frames
in between, in any order.  This file defines what such a sequence of calls
answers, and says what the buffer makes of the wire form of a frame: a whole
one is found at once, and a proper part of one is kept until the rest arrives.
-/

namespace ZigbeeHost

theorem Frame.toWire_of_small {frame : Frame} (small : frame.payload.length ≤ maxPayload) :
    frame.toWire = .ok frame.wireForm := by
  rw [toWire, checkSize, if_neg (Nat.not_lt.2 small)]
  rfl

namespace FrameBuffer

/-- One call on a frame buffer. -/
inductive Call where
  | feed (arrived : Bytes)
  | decode

/-- What a decode call answers: a frame, nothing yet, or an error. -/
abbrev Answer := Except FrameError (Option Frame)

namespace Step

def answer : Step → Answer
  | .incomplete _ => .ok none
  | .found frame _ => .ok (some frame)
  | .failed error _ => .error error

/-- The buffer after the step. -/
def buffer : Step → FrameBuffer
  | .incomplete buffer => buffer
  | .found _ buffer => buffer
  | .failed _ buffer => buffer

end Step

/-- The bytes that the calls feed, in order. -/
def fedBytes : List Call → Bytes
  | [] => []
  | .feed arrived :: rest => arrived ++ fedBytes rest
  | .decode :: rest => fedBytes rest

/-- The answers of the decode calls in order, and the buffer after all calls. -/
def run (buffer : FrameBuffer) : List Call → List Answer × FrameBuffer
  | [] => ([], buffer)
  | .feed arrived :: rest => run (buffer.feed arrived) rest
  | .decode :: rest =>
      let after := run buffer.next.buffer rest
      (buffer.next.answer :: after.1, after.2)

@[simp]
theorem next_empty : ({ bytes := [] } : FrameBuffer).next = .incomplete { bytes := [] } :=
  rfl

theorem next_cons_startByte (rest : Bytes) :
    ({ bytes := Frame.startByte :: rest } : FrameBuffer).next =
      candidate (Frame.startByte :: rest) := by
  simp [next]

theorem length_wireForm (frame : Frame) :
    frame.wireForm.length = frame.payload.length + 5 := by
  simp [Frame.wireForm, Frame.body]

/-- The length byte of a frame that the radio accepts tells the length. -/
theorem toNat_lengthByte {frame : Frame}
    (small : frame.payload.length ≤ Frame.maxPayload) :
    (UInt8.ofNat frame.payload.length).toNat = frame.payload.length := by
  rw [UInt8.toNat_ofNat']
  apply Nat.mod_eq_of_lt
  simp only [Frame.maxPayload] at small
  omega

theorem next_wireForm_append {frame : Frame}
    (small : frame.payload.length ≤ Frame.maxPayload) (rest : Bytes) :
    ({ bytes := frame.wireForm ++ rest } : FrameBuffer).next =
      .found frame { bytes := rest } := by
  have length := toNat_lengthByte small
  have dropped : (frame.payload ++ Frame.checksum frame.body :: rest).drop
      frame.payload.length = Frame.checksum frame.body :: rest :=
    List.drop_left
  have taken : (frame.payload ++ Frame.checksum frame.body :: rest).take
      frame.payload.length = frame.payload :=
    List.take_left
  have shape : frame.wireForm ++ rest =
      Frame.startByte :: UInt8.ofNat frame.payload.length ::
        Frame.headerByte frame.kind frame.subsystem :: frame.command ::
          (frame.payload ++ Frame.checksum frame.body :: rest) := by
    simp [Frame.wireForm, Frame.body]
  rw [shape, next_cons_startByte]
  simp only [candidate, length, dropped, taken]
  rw [if_pos (by rfl)]
  simp

/-- A candidate is incomplete as long as its check byte is missing. -/
theorem candidate_of_short {start length header command : UInt8} {rest : Bytes}
    (short : rest.length ≤ length.toNat) :
    candidate (start :: length :: header :: command :: rest) =
      .incomplete { bytes := start :: length :: header :: command :: rest } := by
  simp only [candidate, List.drop_eq_nil_of_le short]

theorem next_part_of_wireForm {frame : Frame}
    (small : frame.payload.length ≤ Frame.maxPayload) {part missing : Bytes}
    (split : part ++ missing = frame.wireForm) (lacking : missing ≠ []) :
    ({ bytes := part } : FrameBuffer).next = .incomplete { bytes := part } := by
  have lengths := congrArg List.length split
  have missingLength := List.length_pos_iff.2 lacking
  rw [List.length_append, length_wireForm] at lengths
  match part, split with
  | [], _ => rfl
  | first :: part, split =>
      obtain ⟨rfl, tail⟩ := List.cons.inj split
      rw [next_cons_startByte]
      match part, tail with
      | [], _ => rfl
      | [_], _ => rfl
      | [_, _], _ => rfl
      | length :: header :: command :: rest, tail =>
          obtain ⟨rfl, -⟩ := List.cons.inj tail
          apply candidate_of_short
          rw [toNat_lengthByte small]
          simp only [List.length_cons] at lengths
          omega

end FrameBuffer

end ZigbeeHost
