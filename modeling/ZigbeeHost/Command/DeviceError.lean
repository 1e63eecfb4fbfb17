import ZigbeeHost.Catalog.Basic
import ZigbeeHost.Frame.Basic

/-!
# Errors that the radio reports

The radio rejects a request with a response on a key of its own. Its payload
holds a reason code and the header of the rejected request, so that the host
can tell which request has failed.
-/

namespace ZigbeeHost

/-- Why the radio has rejected a request. -/
inductive DeviceErrorCode where
  | invalidSubsystem
  | invalidCommandId
  | invalidParameter
  | invalidLength
  | unknown (code : UInt8)
deriving DecidableEq, Repr

namespace DeviceErrorCode

/-- The reason with the given code. -/
def ofByte (code : UInt8) : DeviceErrorCode :=
  if code = 1 then .invalidSubsystem
  else if code = 2 then .invalidCommandId
  else if code = 3 then .invalidParameter
  else if code = 4 then .invalidLength
  else .unknown code

def code : DeviceErrorCode → UInt8
  | .invalidSubsystem => 1
  | .invalidCommandId => 2
  | .invalidParameter => 3
  | .invalidLength => 4
  | .unknown code => code

/-- The reason in words. -/
def message : DeviceErrorCode → String
  | .invalidSubsystem => "Invalid subsystem"
  | .invalidCommandId => "Invalid command ID"
  | .invalidParameter => "Invalid parameter"
  | .invalidLength => "Invalid length"
  | .unknown _ => "Unknown error"

/-- The reason in words; an unknown reason shows its code. -/
def display : DeviceErrorCode → String
  | .unknown code => "Unknown error code " ++ Hexadecimal.renderByte code
  | known => known.message

@[simp] theorem code_ofByte (code : UInt8) : (ofByte code).code = code := by
  unfold ofByte
  split
  · simp_all [DeviceErrorCode.code]
  split
  · simp_all [DeviceErrorCode.code]
  split
  · simp_all [DeviceErrorCode.code]
  split <;> simp_all [DeviceErrorCode.code]

end DeviceErrorCode

namespace Catalog

/-- The payload of an error response. Its second byte is the first header byte
of the rejected request, which holds the subsystem and the kind. -/
abbrev errorFrame : WireType :=
  record "ErrorFrame"
    [byte "code", firstBits "subsystem" .one "0x1f", lastBits "command_type" .one "0xe0",
      byte "command"]

end Catalog

/-- What an error response says. -/
structure DeviceError where
  code : DeviceErrorCode
  failedKey : CommandKey
deriving DecidableEq, Repr

/-- Takes the content of an error response apart. -/
def DeviceError.ofRecord : Catalog.errorFrame.Value → DeviceError
  | (code, subsystem, _, command, ()) =>
      { code := .ofByte (.ofBitVec code)
        failedKey := { subsystem := .ofNat subsystem.toNat, command := .ofBitVec command } }

end ZigbeeHost
