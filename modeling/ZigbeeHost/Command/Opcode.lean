import ZigbeeHost.Frame.Basic

/-!
# Command ids

Command ids are unique within a subsystem only, so each subsystem has its own
type of commands. Ids from `0x80` on are indications that the radio sends on
its own. Main statement: no two commands share a key.
-/

namespace ZigbeeHost

/-- Commands of the system interface. -/
inductive SystemCommand where
  | reset
  | ping
  | version
  | setExtendedAddress
  | extendedAddress
  | readMemory
  | writeMemory
  | readItem
  | writeItem
  | startTimer
  | stopTimer
  | random
  | setTime
  | readTime
  | setPower
  | resetIndication
  | timerExpired
deriving DecidableEq, Repr

namespace SystemCommand

def code : SystemCommand → UInt8
  | .reset => 0x00
  | .ping => 0x01
  | .version => 0x02
  | .setExtendedAddress => 0x03
  | .extendedAddress => 0x04
  | .readMemory => 0x05
  | .writeMemory => 0x06
  | .readItem => 0x08
  | .writeItem => 0x09
  | .startTimer => 0x0a
  | .stopTimer => 0x0b
  | .random => 0x0c
  | .setTime => 0x10
  | .readTime => 0x11
  | .setPower => 0x14
  | .resetIndication => 0x80
  | .timerExpired => 0x81

def name : SystemCommand → String
  | .reset => "ResetReq"
  | .ping => "Ping"
  | .version => "Version"
  | .setExtendedAddress => "SetExtAddr"
  | .extendedAddress => "GetExtAddr"
  | .readMemory => "RamRead"
  | .writeMemory => "RamWrite"
  | .readItem => "OsalNvRead"
  | .writeItem => "OsalNvWrite"
  | .startTimer => "OsalStartTimer"
  | .stopTimer => "OsalStopTimer"
  | .random => "Random"
  | .setTime => "SetTime"
  | .readTime => "GetTime"
  | .setPower => "SetTxPower"
  | .resetIndication => "ResetInd"
  | .timerExpired => "OsalTimerExpired"

def all : List SystemCommand :=
  [.reset, .ping, .version, .setExtendedAddress, .extendedAddress, .readMemory, .writeMemory,
    .readItem, .writeItem, .startTimer, .stopTimer, .random, .setTime, .readTime, .setPower,
    .resetIndication, .timerExpired]

def key (command : SystemCommand) : CommandKey :=
  { subsystem := .system, command := command.code }

end SystemCommand

/-- Commands of the application framework. -/
inductive ApplicationCommand where
  | register
  | dataRequest
  | extendedDataRequest
  | delete
  | dataConfirm
  | incomingMessage
deriving DecidableEq, Repr

namespace ApplicationCommand

def code : ApplicationCommand → UInt8
  | .register => 0x00
  | .dataRequest => 0x01
  | .extendedDataRequest => 0x02
  | .delete => 0x04
  | .dataConfirm => 0x80
  | .incomingMessage => 0x81

def name : ApplicationCommand → String
  | .register => "Register"
  | .dataRequest => "DataRequest"
  | .extendedDataRequest => "DataRequestExt"
  | .delete => "Delete"
  | .dataConfirm => "DataConfirm"
  | .incomingMessage => "IncomingMsg"

def all : List ApplicationCommand :=
  [.register, .dataRequest, .extendedDataRequest, .delete, .dataConfirm, .incomingMessage]

def key (command : ApplicationCommand) : CommandKey :=
  { subsystem := .application, command := command.code }

end ApplicationCommand

/-- Commands of the Zigbee device object. -/
inductive DeviceObjectCommand where
  | networkAddress
  | ieeeAddress
  | activeEndpoints
  | bind
  | networkDiscovery
  | leave
  | permitJoin
  | startup
  | networkAddressResponse
  | ieeeAddressResponse
  | activeEndpointsResponse
  | bindResponse
  | networkDiscoveryResponse
  | leaveResponse
  | permitJoinResponse
  | stateChange
  | deviceAnnouncement
  | leaveIndication
  | trustCenterIndication
deriving DecidableEq, Repr

namespace DeviceObjectCommand

def code : DeviceObjectCommand → UInt8
  | .networkAddress => 0x00
  | .ieeeAddress => 0x01
  | .activeEndpoints => 0x05
  | .bind => 0x21
  | .networkDiscovery => 0x30
  | .leave => 0x34
  | .permitJoin => 0x36
  | .startup => 0x40
  | .networkAddressResponse => 0x80
  | .ieeeAddressResponse => 0x81
  | .activeEndpointsResponse => 0x85
  | .bindResponse => 0xa1
  | .networkDiscoveryResponse => 0xb0
  | .leaveResponse => 0xb4
  | .permitJoinResponse => 0xb6
  | .stateChange => 0xc0
  | .deviceAnnouncement => 0xc1
  | .leaveIndication => 0xc9
  | .trustCenterIndication => 0xca

def name : DeviceObjectCommand → String
  | .networkAddress => "NwkAddrReq"
  | .ieeeAddress => "IeeeAddrReq"
  | .activeEndpoints => "ActiveEpReq"
  | .bind => "BindReq"
  | .networkDiscovery => "MgmtNwkDiscReq"
  | .leave => "MgmtLeaveReq"
  | .permitJoin => "MgmtPermitJoinReq"
  | .startup => "StartupFromApp"
  | .networkAddressResponse => "NwkAddrRsp"
  | .ieeeAddressResponse => "IeeeAddrRsp"
  | .activeEndpointsResponse => "ActiveEpRsp"
  | .bindResponse => "BindRsp"
  | .networkDiscoveryResponse => "MgmtNwkDiscRsp"
  | .leaveResponse => "MgmtLeaveRsp"
  | .permitJoinResponse => "MgmtPermitJoinRsp"
  | .stateChange => "StateChangeInd"
  | .deviceAnnouncement => "EndDeviceAnnceInd"
  | .leaveIndication => "LeaveInd"
  | .trustCenterIndication => "TcDevInd"

def all : List DeviceObjectCommand :=
  [.networkAddress, .ieeeAddress, .activeEndpoints, .bind, .networkDiscovery, .leave, .permitJoin,
    .startup, .networkAddressResponse, .ieeeAddressResponse, .activeEndpointsResponse,
    .bindResponse, .networkDiscoveryResponse, .leaveResponse, .permitJoinResponse, .stateChange,
    .deviceAnnouncement, .leaveIndication, .trustCenterIndication]

def key (command : DeviceObjectCommand) : CommandKey :=
  { subsystem := .deviceObject, command := command.code }

end DeviceObjectCommand

/-- Commands of the simple API. -/
inductive SimpleApiCommand where
  | start
  | readConfiguration
  | writeConfiguration
  | deviceInfo
  | permitJoining
  | startConfirm
  | findDeviceConfirm
deriving DecidableEq, Repr

namespace SimpleApiCommand

def code : SimpleApiCommand → UInt8
  | .start => 0x00
  | .readConfiguration => 0x04
  | .writeConfiguration => 0x05
  | .deviceInfo => 0x06
  | .permitJoining => 0x08
  | .startConfirm => 0x80
  | .findDeviceConfirm => 0x85

def name : SimpleApiCommand → String
  | .start => "StartRequest"
  | .readConfiguration => "ReadConfiguration"
  | .writeConfiguration => "WriteConfiguration"
  | .deviceInfo => "GetDeviceInfo"
  | .permitJoining => "PermitJoiningRequest"
  | .startConfirm => "StartConfirm"
  | .findDeviceConfirm => "FindDeviceConfirm"

def all : List SimpleApiCommand :=
  [.start, .readConfiguration, .writeConfiguration, .deviceInfo, .permitJoining, .startConfirm,
    .findDeviceConfirm]

def key (command : SimpleApiCommand) : CommandKey :=
  { subsystem := .simpleApi, command := command.code }

end SimpleApiCommand

/-- Commands of the utility interface. -/
inductive UtilityCommand where
  | deviceInfo
  | ledControl
  | loopback
deriving DecidableEq, Repr

namespace UtilityCommand

def code : UtilityCommand → UInt8
  | .deviceInfo => 0x00
  | .ledControl => 0x0a
  | .loopback => 0x10

def name : UtilityCommand → String
  | .deviceInfo => "GetDeviceInfo"
  | .ledControl => "LedControl"
  | .loopback => "Loopback"

def all : List UtilityCommand :=
  [.deviceInfo, .ledControl, .loopback]

def key (command : UtilityCommand) : CommandKey :=
  { subsystem := .utility, command := command.code }

end UtilityCommand

/-- Commands of the application configuration. -/
inductive CommissioningCommand where
  | startCommissioning
  | setChannels
  | notification
deriving DecidableEq, Repr

namespace CommissioningCommand

def code : CommissioningCommand → UInt8
  | .startCommissioning => 0x05
  | .setChannels => 0x08
  | .notification => 0x80

def name : CommissioningCommand → String
  | .startCommissioning => "BdbStartCommissioning"
  | .setChannels => "BdbSetChannel"
  | .notification => "BdbCommissioningNotification"

def all : List CommissioningCommand :=
  [.startCommissioning, .setChannels, .notification]

def key (command : CommissioningCommand) : CommandKey :=
  { subsystem := .commissioning, command := command.code }

end CommissioningCommand

namespace Subsystem

/-- The names and ids of the commands of a subsystem. -/
def commands (subsystem : Subsystem) : List (String × UInt8) :=
  if subsystem = .system then
    SystemCommand.all.map fun command => (command.name, command.code)
  else if subsystem = .application then
    ApplicationCommand.all.map fun command => (command.name, command.code)
  else if subsystem = .deviceObject then
    DeviceObjectCommand.all.map fun command => (command.name, command.code)
  else if subsystem = .simpleApi then
    SimpleApiCommand.all.map fun command => (command.name, command.code)
  else if subsystem = .utility then
    UtilityCommand.all.map fun command => (command.name, command.code)
  else if subsystem = .commissioning then
    CommissioningCommand.all.map fun command => (command.name, command.code)
  else []

end Subsystem

namespace CommandKey

def all : List CommandKey :=
  SystemCommand.all.map SystemCommand.key ++ ApplicationCommand.all.map ApplicationCommand.key ++
    DeviceObjectCommand.all.map DeviceObjectCommand.key ++
    SimpleApiCommand.all.map SimpleApiCommand.key ++ UtilityCommand.all.map UtilityCommand.key ++
    CommissioningCommand.all.map CommissioningCommand.key

/-- No two commands share a key. -/
theorem nodup_all : all.Nodup := by decide

end CommandKey

end ZigbeeHost
