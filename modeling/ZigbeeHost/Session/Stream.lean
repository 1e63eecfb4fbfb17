import ZigbeeHost.Error
import ZigbeeHost.Frame.Buffer

/-!
# Frames over a byte stream

The bytes of the radio arrive in pieces of any size. Reading a frame takes
pieces until the frame buffer holds one, a candidate turns out to be broken,
or the stream ends; a broken candidate does not end the stream.
-/

namespace ZigbeeHost

/-- What one read of the stream brings. -/
inductive Arrival where
  | data (bytes : Bytes)
  | ended
  | failed (reason : String)
deriving DecidableEq, Repr

/-- The outcome of waiting for a frame. -/
inductive FrameRead where
  | frame (frame : Frame)
  | error (cause : TransportError)
  /-- More bytes have to arrive first. -/
  | pending
deriving DecidableEq, Repr

/-- The outcome of waiting for a frame, what stays in the buffer, and the pieces
that have not been needed. The end of the stream is seen again and again. -/
def readFrame (buffer : FrameBuffer) : List Arrival → FrameRead × FrameBuffer × List Arrival
  | [] =>
      match buffer.next with
      | .found frame rest => (.frame frame, rest, [])
      | .failed cause rest => (.error (.frame cause), rest, [])
      | .incomplete rest => (.pending, rest, [])
  | arrival :: more =>
      match buffer.next with
      | .found frame rest => (.frame frame, rest, arrival :: more)
      | .failed cause rest => (.error (.frame cause), rest, arrival :: more)
      | .incomplete rest =>
          match arrival with
          | .data bytes => readFrame (rest.feed bytes) more
          | .ended => (.error .closed, rest, .ended :: more)
          | .failed reason => (.error (.io reason), rest, more)

/-- How the writing side behaves. -/
inductive WriteMode where
  | working
  | closed
  | refusing
deriving DecidableEq, Repr

/-- A stream in memory between host and radio. -/
structure Pipe where
  /-- What the radio has written and the host has not read. -/
  toHost : List Arrival := []
  /-- What the host has written and the radio has not looked at. -/
  toRadio : Bytes := []
  isOpen : Bool := true
  mode : WriteMode := .working
deriving DecidableEq, Repr

namespace Pipe

def feed (pipe : Pipe) (bytes : Bytes) : Pipe :=
  if pipe.isOpen ∧ bytes ≠ [] then { pipe with toHost := pipe.toHost ++ [.data bytes] } else pipe

/-- The radio's end is closed; what it has written can still be read. -/
def close (pipe : Pipe) : Pipe :=
  if pipe.isOpen then { pipe with toHost := pipe.toHost ++ [.ended], isOpen := false } else pipe

def write (pipe : Pipe) (bytes : Bytes) : Except TransportError Pipe :=
  match pipe.mode with
  | .closed => .error .closed
  | .refusing => .error (.io "write refused")
  | .working =>
      if pipe.isOpen then .ok { pipe with toRadio := pipe.toRadio ++ bytes }
      else .error (.io "broken pipe")

def writeFrame (pipe : Pipe) (frame : Frame) : Except TransportError Pipe :=
  match frame.toWire with
  | .error cause => .error (.frame cause)
  | .ok bytes => pipe.write bytes

/-- The radio looks at what the host has written; a closed end sees nothing. -/
def takeWritten (pipe : Pipe) : Bytes × Pipe :=
  (if pipe.isOpen then pipe.toRadio else [], { pipe with toRadio := [] })

end Pipe

end ZigbeeHost
