import ZigbeeHost.Catalog.Index
import ZigbeeHost.Command.Opcode
import ZigbeeHost.Session.Request

/-!
# The calls of the command catalog

One call for each command that a host sends. Most commands are answered at
once with a status; what they lead to arrives later as an event.
-/

namespace ZigbeeHost.Call

open Catalog

def listOfBytes (bytes : Bytes) : List (BitVec 8) := bytes.map UInt8.toBitVec

def flag (value : Bool) : BitVec 8 := if value then 1 else 0

/-- Asks the system interface, which needs nothing to be said. -/
def askSystem (command : SystemCommand) (answer : WireType) : Call answer.Value :=
  ask command.key .unit () answer

/-- Resets the radio, by software or by its watchdog; an indication follows
once it has restarted. -/
def reset (soft : Bool) : Call Unit :=
  send SystemCommand.reset.key resetRequest (flag soft, ())

/-- Checks that the radio is alive; the result are the subsystems it has. -/
def ping : Call capabilities.Value :=
  (askSystem .ping pingResponse).map fun response => response.1

def version : Call versionResponse.Value := askSystem .version versionResponse

def setExtendedAddress (address : String) : Call statusResponse.Value :=
  ask SystemCommand.setExtendedAddress.key setExtendedAddressRequest (address, ()) statusResponse

def extendedAddress : Call String :=
  (askSystem .extendedAddress extendedAddressResponse).map fun response => response.1

def readMemory (address : UInt16) (length : UInt8) : Call memoryReadResponse.Value :=
  ask SystemCommand.readMemory.key memoryReadRequest (address.toBitVec, length.toBitVec, ())
    memoryReadResponse

def writeMemory (address : UInt16) (bytes : Bytes) : Call statusResponse.Value :=
  ask SystemCommand.writeMemory.key memoryWriteRequest (address.toBitVec, listOfBytes bytes, ())
    statusResponse

/-- Reads a non-volatile item from an offset on. -/
def readItem (item : UInt16) (offset : UInt8) : Call itemReadResponse.Value :=
  ask SystemCommand.readItem.key itemReadRequest (item.toBitVec, offset.toBitVec, ())
    itemReadResponse

/-- Writes a non-volatile item from an offset on. -/
def writeItem (item : UInt16) (offset : UInt8) (bytes : Bytes) : Call statusResponse.Value :=
  ask SystemCommand.writeItem.key itemWriteRequest
    (item.toBitVec, offset.toBitVec, listOfBytes bytes, ()) statusResponse

/-- Starts a timer of the radio; its expiry is an event. -/
def startTimer (timer : UInt8) (milliseconds : UInt16) : Call statusResponse.Value :=
  ask SystemCommand.startTimer.key startTimerRequest (timer.toBitVec, milliseconds.toBitVec, ())
    statusResponse

def stopTimer (timer : UInt8) : Call statusResponse.Value :=
  ask SystemCommand.stopTimer.key stopTimerRequest (timer.toBitVec, ()) statusResponse

def random : Call (BitVec 16) :=
  (askSystem .random randomResponse).map fun response => response.1

def setTime (clock : time.Value) : Call statusResponse.Value :=
  ask SystemCommand.setTime.key time clock statusResponse

def readTime : Call time.Value := askSystem .readTime time

/-- Sets the transmit power; the result is the power that was applied. -/
def setPower (power : UInt8) : Call (BitVec 8) :=
  (ask SystemCommand.setPower.key setPowerRequest (power.toBitVec, ()) setPowerResponse).map
    fun response => response.1

/-- Asks the application framework and gets a status. -/
def askApplication (command : ApplicationCommand) (asked : WireType) (value : asked.Value) :
    Call statusResponse.Value :=
  ask command.key asked value statusResponse

def register (endpoint : registerRequest.Value) : Call statusResponse.Value :=
  askApplication .register registerRequest endpoint

/-- Sends data to a network address; how it went is an event. -/
def sendData (data : dataRequest.Value) : Call statusResponse.Value :=
  askApplication .dataRequest dataRequest data

def sendExtendedData (data : extendedDataRequest.Value) : Call statusResponse.Value :=
  askApplication .extendedDataRequest extendedDataRequest data

def delete (endpoint : UInt8) : Call statusResponse.Value :=
  askApplication .delete deleteRequest (endpoint.toBitVec, ())

/-- Asks the device object and gets a status; the answer of the remote device is
an event. -/
def askDeviceObject (command : DeviceObjectCommand) (asked : WireType) (value : asked.Value) :
    Call statusResponse.Value :=
  ask command.key asked value statusResponse

def networkAddress (request : networkAddressRequest.Value) : Call statusResponse.Value :=
  askDeviceObject .networkAddress networkAddressRequest request

def ieeeAddress (request : ieeeAddressRequest.Value) : Call statusResponse.Value :=
  askDeviceObject .ieeeAddress ieeeAddressRequest request

def activeEndpoints (destination device : String) : Call statusResponse.Value :=
  askDeviceObject .activeEndpoints activeEndpointsRequest (destination, device, ())

def bind (request : bindRequest.Value) : Call statusResponse.Value :=
  askDeviceObject .bind bindRequest request

def networkDiscovery (request : networkDiscoveryRequest.Value) : Call statusResponse.Value :=
  askDeviceObject .networkDiscovery networkDiscoveryRequest request

def leave (request : leaveRequest.Value) : Call statusResponse.Value :=
  askDeviceObject .leave leaveRequest request

def permitJoin (request : permitJoinRequest.Value) : Call statusResponse.Value :=
  askDeviceObject .permitJoin permitJoinRequest request

/-- Starts the network stack after a delay in milliseconds. -/
def startup (delay : UInt16) : Call startupResponse.Value :=
  ask DeviceObjectCommand.startup.key startupRequest (delay.toBitVec, ()) startupResponse

/-- Starts the Zigbee stack; its completion is an event. -/
def start : Call Unit :=
  ask SimpleApiCommand.start.key .unit () .unit

def readConfiguration (item : UInt8) : Call readConfigurationResponse.Value :=
  ask SimpleApiCommand.readConfiguration.key readConfigurationRequest (item.toBitVec, ())
    readConfigurationResponse

def writeConfiguration (item : UInt8) (bytes : Bytes) : Call statusResponse.Value :=
  ask SimpleApiCommand.writeConfiguration.key writeConfigurationRequest
    (item.toBitVec, listOfBytes bytes, ()) statusResponse

/-- Opens joining on a device for some seconds. -/
def permitJoining (destination : String) (seconds : UInt8) : Call statusResponse.Value :=
  ask SimpleApiCommand.permitJoining.key permitJoiningRequest
    (destination, seconds.toBitVec, ()) statusResponse

/-- Reads one device information parameter, which decides how its value is
decoded. -/
def deviceParameter (parameter : DeviceParameter) : Call deviceParameterValue.Value :=
  (exchange SimpleApiCommand.deviceInfo.key deviceParameterRequest (parameter.code.toBitVec, ())
    deviceParameterResponse (0, parameter.emptyValue, ())).map fun response => response.2.1

def deviceInfo : Call deviceInfoResponse.Value :=
  ask UtilityCommand.deviceInfo.key .unit () deviceInfoResponse

def switchLed (led : UInt8) (on : Bool) : Call statusResponse.Value :=
  ask UtilityCommand.ledControl.key ledControlRequest (led.toBitVec, flag on, ()) statusResponse

def loopback (bytes : Bytes) : Call (List (BitVec 8)) :=
  (ask UtilityCommand.loopback.key loopbackData (listOfBytes bytes, ()) loopbackData).map
    fun response => response.1

/-- Starts commissioning in the modes whose bits are set. -/
def startCommissioning (modes : UInt8) : Call statusResponse.Value :=
  ask CommissioningCommand.startCommissioning.key startCommissioningRequest (modes.toBitVec, ())
    statusResponse

/-- Selects the primary or secondary commissioning channels. -/
def setChannels (primary : Bool) (channels : UInt32) : Call statusResponse.Value :=
  ask CommissioningCommand.setChannels.key setChannelsRequest
    (flag primary, channels.toBitVec, ()) statusResponse

end ZigbeeHost.Call
