import ZigbeeHost.Command.DeviceError
import ZigbeeHost.Frame.WireForm

/-!
# Errors of a session

Whatever can end a request or reach the error channel, as causes with one
wording each. Only errors of the transport itself are fatal: after a frame
that is broken, the next one can still be found.
-/

namespace ZigbeeHost

/-- Why bytes could not be exchanged with the radio. -/
inductive TransportError where
  | serial (reason : String)
  | io (reason : String)
  /-- Bytes did not form a frame, or a frame had no wire form. -/
  | frame (cause : FrameError)
  | closed
deriving DecidableEq, Repr

namespace TransportError

/-- The wording of the error. -/
def message : TransportError → String
  | .serial reason => "serial port error: " ++ reason
  | .io reason => "I/O error: " ++ reason
  | .frame cause => "frame error: " ++ cause.message
  | .closed => "transport closed"

/-- Whether no further frame can arrive. -/
def isFatal : TransportError → Bool
  | .frame _ => false
  | _ => true

end TransportError

/-- What can go wrong in a session with the radio. -/
inductive Error where
  /-- A value has no encoding, a payload cannot be read, or a layout is
  inconsistent. -/
  | payload (cause : PayloadError)
  | device (code : DeviceErrorCode)
  /-- No response arrived in time; the limit is in milliseconds. -/
  | timeout (key : CommandKey) (limit : Nat)
  /-- A response arrived that no request waits for. -/
  | unmatchedResponse (frame : Frame)
  /-- An indication arrived that no prototype describes. -/
  | unknownIndication (key : CommandKey)
  | unexpectedFrame (frame : Frame)
  /-- A request with this key waits for its response already. -/
  | duplicateTransaction (key : CommandKey)
  | transport (cause : TransportError)
  | cancelled
  | notConnected
deriving DecidableEq, Repr

namespace Error

/-- The wording of the error. -/
def message : Error → String
  | .payload cause => cause.message
  | .device code => "device error: " ++ code.display
  | .timeout key limit =>
      s!"timed out after {limit}ms waiting for response to command " ++
        Hexadecimal.renderByte key.command ++ " sent to subsystem " ++ key.subsystem.display
  | .unmatchedResponse frame => "unmatched response received: " ++ frame.display
  | .unknownIndication key => "unknown async command received: " ++ key.display
  | .unexpectedFrame frame => "unexpected frame received: " ++ frame.display
  | .duplicateTransaction key => "a request for " ++ key.display ++ " is already pending"
  | .transport cause => "transport error: " ++ cause.message
  | .cancelled => "request cancelled: client shut down"
  | .notConnected => "not connected"

end Error

end ZigbeeHost
