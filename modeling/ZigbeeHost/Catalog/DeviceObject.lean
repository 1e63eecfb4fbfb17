import ZigbeeHost.Catalog.Basic

/-!
# Zigbee device object

Records of the Zigbee device object: addresses, bindings, network management
and the indications of devices that come and go.
-/

namespace ZigbeeHost.Catalog

abbrev networkAddressRequest : WireType :=
  record "NwkAddrRequest" [ieeeAddress "ieee_addr", byte "req_type", byte "start_index"]

abbrev ieeeAddressRequest : WireType :=
  record "IeeeAddrRequest" [shortAddress "short_addr", byte "req_type", byte "start_index"]

abbrev activeEndpointsRequest : WireType :=
  record "ActiveEpRequest" [shortAddress "dst_addr", shortAddress "nwk_addr_of_interest"]

/-- Creates a binding. The destination endpoint travels only if the destination
is addressed by IEEE address. -/
abbrev bindRequest : WireType :=
  record "BindRequest"
    [shortAddress "dst_addr", ieeeAddress "src_address", byte "src_endpoint", word "cluster_id",
      byte "dst_addr_mode", ieeeAddress "dst_address",
      ("dst_endpoint", .uint .one, [("cond", "uint:dst_addr_mode==3")])]

abbrev networkDiscoveryRequest : WireType :=
  record "MgmtNwkDiscRequest"
    [shortAddress "dst_addr", long "scan_channels", byte "scan_duration", byte "start_index"]

abbrev leaveRequest : WireType :=
  record "MgmtLeaveRequest"
    [shortAddress "dst_addr", ieeeAddress "device_address", byte "remove_children_rejoin"]

abbrev permitJoinRequest : WireType :=
  record "MgmtPermitJoinRequest"
    [byte "addr_mode", shortAddress "dst_addr", byte "duration", byte "tc_significance"]

/-- Starts the network stack after a delay in milliseconds. -/
abbrev startupRequest : WireType :=
  record "StartupFromAppRequest" [word "start_delay"]

abbrev startupResponse : WireType :=
  record "StartupFromAppResponse" [byte "status"]

abbrev networkAddressResponse : WireType :=
  record "NwkAddrResponse"
    [byte "status", ieeeAddress "ieee_addr", shortAddress "nwk_addr", byte "start_index",
      shortAddresses "assoc_dev_list"]

abbrev ieeeAddressResponse : WireType :=
  record "IeeeAddrResponse"
    [byte "status", ieeeAddress "ieee_addr", shortAddress "nwk_addr", byte "start_index",
      shortAddresses "assoc_dev_list"]

abbrev activeEndpointsResponse : WireType :=
  record "ActiveEpResponse"
    [shortAddress "src_addr", byte "status", shortAddress "nwk_addr", bytes "active_ep_list"]

/-- The source and status of a management response. -/
abbrev sourceStatusResponse : WireType :=
  record "ZdoStatusResponse" [shortAddress "src_addr", byte "status"]

abbrev network : WireType :=
  record "Network"
    [word "neighbor_pan_id", byte "logical_channel", firstBits "stack_profile" .one "0b00001111",
      lastBits "zigbee_version" .one "0b11110000", firstBits "beacon_order" .one "0b00001111",
      lastBits "super_frame_order" .one "0b11110000", byte "permit_join"]

abbrev networkDiscoveryResponse : WireType :=
  record "MgmtNwkDiscResponse"
    [shortAddress "src_addr", byte "status", byte "network_count", byte "start_index",
      ("network_list", .list network, [("len", "uint8")])]

abbrev stateChangeIndication : WireType :=
  record "StateChangeIndication" [byte "state"]

abbrev deviceCapabilities : WireType :=
  record "DeviceCapabilities"
    [firstBits "alternate_pan_coordinator" .one "0x01", bits "router" .one "0x02",
      bits "mains_powered" .one "0x04", bits "receiver_on_when_idle" .one "0x08",
      bits "security_capability" .one "0x40", lastBits "allocate_address" .one "0x80"]

/-- A device has joined and announces itself. -/
abbrev deviceAnnouncement : WireType :=
  record "EndDeviceAnnounceIndication"
    [shortAddress "src_addr", shortAddress "nwk_addr", ieeeAddress "ieee_addr",
      nested "capabilities" deviceCapabilities]

abbrev leaveIndication : WireType :=
  record "LeaveIndication"
    [shortAddress "src_addr", ieeeAddress "ext_addr", byte "request", byte "remove",
      byte "rejoin"]

/-- The trust center has admitted a device. -/
abbrev trustCenterIndication : WireType :=
  record "TcDeviceIndication"
    [shortAddress "nwk_addr", ieeeAddress "ext_addr", shortAddress "parent_addr"]

end ZigbeeHost.Catalog
