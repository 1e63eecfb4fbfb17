import ZigbeeHost.Catalog.Index
import ZigbeeHost.Command.Opcode
import ZigbeeHost.Payload.Decoding

/-!
# Events

An event is an indication that the radio has sent on its own, decoded into
the record of its kind. Several kinds may share a record, but every kind has a
key of its own.
-/

namespace ZigbeeHost

/-- The kinds of events. -/
inductive EventKind where
  | resetIndication
  | timerExpired
  | dataConfirm
  | incomingMessage
  | networkAddress
  | ieeeAddress
  | activeEndpoints
  | bind
  | networkDiscovery
  | leaveOutcome
  | permitJoin
  | stateChange
  | announcement
  | leave
  | trustCenter
  | startConfirm
  | findDeviceConfirm
  | commissioning
deriving DecidableEq, Repr

namespace EventKind

/-- The key under which events of the kind arrive. -/
def key : EventKind → CommandKey
  | .resetIndication => SystemCommand.resetIndication.key
  | .timerExpired => SystemCommand.timerExpired.key
  | .dataConfirm => ApplicationCommand.dataConfirm.key
  | .incomingMessage => ApplicationCommand.incomingMessage.key
  | .networkAddress => DeviceObjectCommand.networkAddressResponse.key
  | .ieeeAddress => DeviceObjectCommand.ieeeAddressResponse.key
  | .activeEndpoints => DeviceObjectCommand.activeEndpointsResponse.key
  | .bind => DeviceObjectCommand.bindResponse.key
  | .networkDiscovery => DeviceObjectCommand.networkDiscoveryResponse.key
  | .leaveOutcome => DeviceObjectCommand.leaveResponse.key
  | .permitJoin => DeviceObjectCommand.permitJoinResponse.key
  | .stateChange => DeviceObjectCommand.stateChange.key
  | .announcement => DeviceObjectCommand.deviceAnnouncement.key
  | .leave => DeviceObjectCommand.leaveIndication.key
  | .trustCenter => DeviceObjectCommand.trustCenterIndication.key
  | .startConfirm => SimpleApiCommand.startConfirm.key
  | .findDeviceConfirm => SimpleApiCommand.findDeviceConfirm.key
  | .commissioning => CommissioningCommand.notification.key

/-- The record that events of the kind carry. -/
@[reducible] def record : EventKind → WireType
  | .resetIndication => Catalog.resetIndication
  | .timerExpired => Catalog.timerExpired
  | .dataConfirm => Catalog.dataConfirm
  | .incomingMessage => Catalog.incomingMessage
  | .networkAddress => Catalog.networkAddressResponse
  | .ieeeAddress => Catalog.ieeeAddressResponse
  | .activeEndpoints => Catalog.activeEndpointsResponse
  | .bind => Catalog.sourceStatusResponse
  | .networkDiscovery => Catalog.networkDiscoveryResponse
  | .leaveOutcome => Catalog.sourceStatusResponse
  | .permitJoin => Catalog.sourceStatusResponse
  | .stateChange => Catalog.stateChangeIndication
  | .announcement => Catalog.deviceAnnouncement
  | .leave => Catalog.leaveIndication
  | .trustCenter => Catalog.trustCenterIndication
  | .startConfirm => Catalog.startConfirm
  | .findDeviceConfirm => Catalog.findDeviceConfirm
  | .commissioning => Catalog.commissioningNotification

/-- The name of the kind. -/
def name : EventKind → String
  | .resetIndication => "ResetIndication"
  | .timerExpired => "OsalTimerExpired"
  | .dataConfirm => "DataConfirm"
  | .incomingMessage => "IncomingMessage"
  | .networkAddress => "NwkAddrResponse"
  | .ieeeAddress => "IeeeAddrResponse"
  | .activeEndpoints => "ActiveEpResponse"
  | .bind => "BindResponse"
  | .networkDiscovery => "MgmtNwkDiscResponse"
  | .leaveOutcome => "MgmtLeaveResponse"
  | .permitJoin => "MgmtPermitJoinResponse"
  | .stateChange => "StateChange"
  | .announcement => "EndDeviceAnnounce"
  | .leave => "Leave"
  | .trustCenter => "TcDevice"
  | .startConfirm => "StartConfirm"
  | .findDeviceConfirm => "FindDeviceConfirm"
  | .commissioning => "CommissioningNotification"

/-- All kinds. -/
def all : List EventKind :=
  [.resetIndication, .timerExpired, .dataConfirm, .incomingMessage, .networkAddress, .ieeeAddress,
    .activeEndpoints, .bind, .networkDiscovery, .leaveOutcome, .permitJoin, .stateChange,
    .announcement, .leave, .trustCenter, .startConfirm, .findDeviceConfirm, .commissioning]

/-- The kind of the given name, if there is one. -/
def ofName? (text : String) : Option EventKind :=
  all.find? fun kind => kind.name = text

theorem mem_all (kind : EventKind) : kind ∈ all := by
  cases kind <;> decide

/-- The key decides the kind. -/
theorem key_injective {first second : EventKind} (same : first.key = second.key) :
    first = second := by
  have pairwise : ∀ left ∈ all, ∀ right ∈ all, left.key = right.key → left = right := by decide
  exact pairwise first (mem_all first) second (mem_all second) same

end EventKind

/-- A decoded indication. -/
structure Event where
  kind : EventKind
  value : kind.record.Value

namespace Event

/-- The key under which the event arrives. -/
def key (event : Event) : CommandKey := event.kind.key

/-- The event of a kind with the default value of its record. -/
def ofKind (kind : EventKind) : Event := { kind, value := kind.record.default }

/-- Decodes a payload over the values that the event holds. -/
def decode (event : Event) (payload : Bytes) : Except PayloadError Event :=
  let reading := event.kind.record.ofPayload event.value payload
  match reading.error with
  | some error => .error error
  | none => .ok { event with value := reading.value }

/-- Checks the layout of the event's record. -/
def checkLayout (event : Event) : Except ConfigurationError Unit := event.kind.record.checkLayout

/-- Decoding keeps the kind. -/
theorem kind_of_decode {event decoded : Event} {payload : Bytes}
    (success : event.decode payload = .ok decoded) : decoded.kind = event.kind := by
  simp only [decode] at success
  split at success
  · simp at success
  · exact (Except.ok.inj success) ▸ rfl

end Event

end ZigbeeHost
