import ZigbeeHost.Frame.WireForm

/-!
# Finding frames in a stream of bytes

A frame buffer holds the bytes that have arrived and not been taken apart.
Bytes in front of a start byte are noise and are discarded. When the check
byte of a candidate is wrong, only its start byte is dropped, so that a frame
hidden inside the candidate is still found; a candidate of unknown kind is
dropped as a whole.
-/

namespace ZigbeeHost

/-- Bytes that have arrived and not been taken apart. -/
structure FrameBuffer where
  bytes : Bytes := []
deriving DecidableEq, Repr, Inhabited

namespace FrameBuffer

/-- Adds bytes that have just arrived. -/
def feed (buffer : FrameBuffer) (arrived : Bytes) : FrameBuffer :=
  { bytes := buffer.bytes ++ arrived }

/-- The outcome of looking for the next frame. -/
inductive Step where
  /-- There is no complete candidate yet. -/
  | incomplete (buffer : FrameBuffer)
  /-- The next frame, and what follows it. -/
  | found (frame : Frame) (buffer : FrameBuffer)
  /-- A candidate that is no frame; looking further goes on in the buffer. -/
  | failed (error : FrameError) (buffer : FrameBuffer)
deriving DecidableEq, Repr

/-- Takes a candidate apart that starts at the first of the given bytes. -/
def candidate : Bytes → Step
  | start :: length :: header :: command :: rest =>
      match rest.drop length.toNat with
      | [] => .incomplete { bytes := start :: length :: header :: command :: rest }
      | got :: after =>
          let payload := rest.take length.toNat
          let expected := Frame.checksum (length :: header :: command :: payload)
          if expected = got then
            match FrameKind.ofBits? (Frame.kindBits header) with
            | some kind =>
                .found { kind, subsystem := Frame.headerSubsystem header, command, payload }
                  { bytes := after }
            | none => .failed (.invalidKind (Frame.kindBits header)) { bytes := after }
          else .failed (.checksum expected got) { bytes := length :: header :: command :: rest }
  | short => .incomplete { bytes := short }

/-- Looks for the next frame. -/
def next (buffer : FrameBuffer) : Step :=
  candidate (buffer.bytes.dropWhile (· ≠ Frame.startByte))

end FrameBuffer

end ZigbeeHost
