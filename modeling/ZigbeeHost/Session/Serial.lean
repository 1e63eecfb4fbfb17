import ZigbeeHost.Error

/-!
# Serial ports

The settings with which the radio's serial port is opened, and what opening a
port reports when there is no such port.
-/

namespace ZigbeeHost

/-- How a serial port is opened. -/
structure SerialConfig where
  port : String
  baudRate : Nat := 115200
  /-- The level of the request-to-send line after opening. -/
  requestToSend : Bool := true
  /-- The delay between opening and the first request, in milliseconds. -/
  connectionDelay : Nat := 300
deriving DecidableEq, Repr

namespace SerialConfig

/-- Opening a port that does not exist fails. -/
def missingPort (_ : SerialConfig) : Error := .transport (.serial "No such file or directory")

end SerialConfig

end ZigbeeHost
