import ZigbeeHost.Catalog.Basic

/-!
# Utilities

Records of the utility interface: device information, LEDs and loopback.
-/

namespace ZigbeeHost.Catalog

/-- The device types that the firmware supports. -/
abbrev deviceTypes : WireType :=
  record "DeviceTypes"
    [firstBits "coordinator" .one "0x01", bits "router" .one "0x02",
      lastBits "end_device" .one "0x04"]

/-- The addresses, type and state of the device, and its associated devices. -/
abbrev deviceInfoResponse : WireType :=
  record "DeviceInfoResponse"
    [byte "status", ieeeAddress "ieee_addr", shortAddress "short_addr",
      nested "device_type" deviceTypes, byte "device_state", shortAddresses "assoc_devices"]

abbrev ledControlRequest : WireType :=
  record "LedControlRequest" [byte "led_id", byte "mode"]

abbrev loopbackData : WireType :=
  record "LoopbackData" [("data", .list (.uint .one), [])]

end ZigbeeHost.Catalog
