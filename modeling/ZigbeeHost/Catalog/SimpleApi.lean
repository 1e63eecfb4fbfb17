import ZigbeeHost.Catalog.Basic

/-!
# Simple API

Records of the simple API: configuration items, joining and device
information.
-/

namespace ZigbeeHost.Catalog

abbrev readConfigurationRequest : WireType :=
  record "ReadConfigurationRequest" [byte "config_id"]

abbrev readConfigurationResponse : WireType :=
  record "ReadConfigurationResponse" [byte "status", byte "config_id", bytes "value"]

abbrev writeConfigurationRequest : WireType :=
  record "WriteConfigurationRequest" [byte "config_id", bytes "value"]

/-- Opens or closes joining on a device for some seconds. -/
abbrev permitJoiningRequest : WireType :=
  record "PermitJoiningRequest" [shortAddress "destination", byte "timeout"]

abbrev deviceParameterRequest : WireType :=
  record "GetDeviceInfoRequest" [byte "param"]

/-- The device state, filled up to eight bytes. -/
abbrev deviceStateValue : WireType :=
  record "DeviceStateValue" [byte "state", padding 7]

abbrev ieeeValue : WireType :=
  record "IeeeValue" [ieeeAddress "address"]

abbrev shortValue : WireType :=
  record "ShortValue" [shortAddress "address", padding 6]

abbrev channelValue : WireType :=
  record "ChannelValue" [byte "channel", padding 7]

abbrev panIdValue : WireType :=
  record "PanIdValue" [word "pan_id", padding 6]

/-- The value of a device information answer. Its layout depends on the parameter
that was asked for, so the caller chooses the alternative. -/
abbrev deviceParameterValue : WireType :=
  .variant "DeviceInfoValue" "State" deviceStateValue (Alternatives.ofList
    [("Ieee", ieeeValue), ("Short", shortValue), ("Channel", channelValue), ("PanId", panIdValue)])

abbrev deviceParameterResponse : WireType :=
  record "GetDeviceInfoResponse" [byte "param", nested "value" deviceParameterValue]

abbrev startConfirm : WireType :=
  record "StartConfirm" [byte "status"]

abbrev findDeviceConfirm : WireType :=
  record "FindDeviceConfirm" [byte "search_type", shortAddress "search_key", ieeeAddress "result"]

/-- The parameters that a device information request can ask for. -/
inductive DeviceParameter where
  | state
  | ieeeAddress
  | shortAddress
  | parentShortAddress
  | parentIeeeAddress
  | channel
  | panId
  | extendedPanId
deriving DecidableEq, Repr

namespace DeviceParameter

def code : DeviceParameter → UInt8
  | .state => 0
  | .ieeeAddress => 1
  | .shortAddress => 2
  | .parentShortAddress => 3
  | .parentIeeeAddress => 4
  | .channel => 5
  | .panId => 6
  | .extendedPanId => 7

def name : DeviceParameter → String
  | .state => "State"
  | .ieeeAddress => "IeeeAddress"
  | .shortAddress => "ShortAddress"
  | .parentShortAddress => "ParentShortAddress"
  | .parentIeeeAddress => "ParentIeeeAddress"
  | .channel => "Channel"
  | .panId => "PanId"
  | .extendedPanId => "ExtPanId"

def all : List DeviceParameter :=
  [.state, .ieeeAddress, .shortAddress, .parentShortAddress, .parentIeeeAddress, .channel, .panId,
    .extendedPanId]

/-- An empty value in the alternative that answers the parameter. -/
def emptyValue : DeviceParameter → deviceParameterValue.Value
  | .state => .inl deviceStateValue.default
  | .ieeeAddress | .parentIeeeAddress | .extendedPanId => .inr (.inl ieeeValue.default)
  | .shortAddress | .parentShortAddress => .inr (.inr (.inl shortValue.default))
  | .channel => .inr (.inr (.inr (.inl channelValue.default)))
  | .panId => .inr (.inr (.inr (.inr (.inl panIdValue.default))))

end DeviceParameter

end ZigbeeHost.Catalog
