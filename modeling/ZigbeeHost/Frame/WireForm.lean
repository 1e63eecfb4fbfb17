import ZigbeeHost.Frame.Basic

/-!
# The wire form of a frame

On the wire a frame is a start byte, the payload's length, two header bytes,
the payload and a check byte. The first header byte holds the kind in its top
three bits and the subsystem in the low five; the second is the command id.
The check byte is the exclusive or of everything from the length on.
-/

namespace ZigbeeHost

/-- Why bytes do not form a frame, or a frame has no wire form. -/
inductive FrameError where
  | tooLarge (size limit : Nat)
  | checksum (expected got : UInt8)
  | invalidKind (bits : Nat)
deriving DecidableEq, Repr

/-- The wording of the error. -/
def FrameError.message : FrameError → String
  | .tooLarge size limit => s!"frame too large: {size} bytes exceeds maximum {limit}"
  | .checksum expected got =>
      "checksum mismatch: expected " ++ Hexadecimal.renderByte expected ++ ", got " ++
        Hexadecimal.renderByte got
  | .invalidKind bits => s!"invalid command type {bits}"

namespace Frame

/-- The byte that starts every frame. -/
def startByte : UInt8 := 0xfe

/-- The largest payload that the radio accepts. -/
def maxPayload : Nat := 250

/-- The exclusive or of all bytes. -/
def checksum (bytes : Bytes) : UInt8 :=
  bytes.foldl (· ^^^ ·) 0

/-- The header byte that holds the kind and the subsystem. -/
def headerByte (kind : FrameKind) (subsystem : Subsystem) : UInt8 :=
  UInt8.ofNat (32 * kind.bits + subsystem.id.val)

/-- The bytes under the check byte: length, header and payload. -/
def body (frame : Frame) : Bytes :=
  UInt8.ofNat frame.payload.length :: headerByte frame.kind frame.subsystem :: frame.command ::
    frame.payload

/-- The bytes of a frame, which is small enough for its length byte. -/
def wireForm (frame : Frame) : Bytes :=
  startByte :: (frame.body ++ [checksum frame.body])

/-- Refuses payloads that the radio does not accept. -/
def checkSize (frame : Frame) : Except FrameError Unit :=
  if frame.payload.length > maxPayload then .error (.tooLarge frame.payload.length maxPayload)
  else .ok ()

/-- The bytes that send a frame. -/
def toWire (frame : Frame) : Except FrameError Bytes :=
  frame.checkSize.map fun _ => frame.wireForm

/-- The kind bits of a header byte. -/
def kindBits (header : UInt8) : Nat := header.toNat / 32

/-- The subsystem of a header byte. -/
def headerSubsystem (header : UInt8) : Subsystem := .ofNat header.toNat

theorem headerByte_toNat (kind : FrameKind) (subsystem : Subsystem) :
    (headerByte kind subsystem).toNat = 32 * kind.bits + subsystem.id.val := by
  have small := subsystem.id.isLt
  have bound : 32 * kind.bits + subsystem.id.val < 256 := by
    cases kind <;> simp only [FrameKind.bits] <;> omega
  rw [headerByte, UInt8.toNat_ofNat']
  exact Nat.mod_eq_of_lt bound

@[simp] theorem kindBits_headerByte (kind : FrameKind) (subsystem : Subsystem) :
    kindBits (headerByte kind subsystem) = kind.bits := by
  have small := subsystem.id.isLt
  rw [kindBits, headerByte_toNat]
  omega

@[simp] theorem headerSubsystem_headerByte (kind : FrameKind) (subsystem : Subsystem) :
    headerSubsystem (headerByte kind subsystem) = subsystem := by
  have small := subsystem.id.isLt
  have same : (32 * kind.bits + subsystem.id.val) % 32 = subsystem.id.val := by omega
  simp only [headerSubsystem, headerByte_toNat, Subsystem.ofNat]
  congr 1
  exact Fin.ext same

end Frame

end ZigbeeHost
