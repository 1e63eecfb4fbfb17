import ZigbeeHost.Catalog.Basic

/-!
# System interface

Records of the system interface: resets, memory, timers, the clock and the
radio's power.
-/

namespace ZigbeeHost.Catalog

/-- Resets the radio: `0` for a hardware reset, `1` for a soft one. -/
abbrev resetRequest : WireType :=
  record "ResetRequest" [byte "reset_type"]

/-- The subsystems compiled into the firmware, one bit each. -/
abbrev capabilities : WireType :=
  record "Capabilities"
    [firstBits "sys" .two "0x0001", bits "mac" .two "0x0002", bits "nwk" .two "0x0004",
      bits "af" .two "0x0008", bits "zdo" .two "0x0010", bits "sapi" .two "0x0020",
      bits "util" .two "0x0040", bits "debug" .two "0x0080", bits "app" .two "0x0100",
      lastBits "zoad" .two "0x1000"]

abbrev pingResponse : WireType :=
  record "PingResponse" [nested "capabilities" capabilities]

abbrev versionResponse : WireType :=
  record "VersionResponse"
    [byte "transport_rev", byte "product", byte "major_rel", byte "minor_rel", byte "maint_rel"]

abbrev setExtendedAddressRequest : WireType :=
  record "SetExtAddrRequest" [ieeeAddress "ext_address"]

abbrev extendedAddressResponse : WireType :=
  record "GetExtAddrResponse" [ieeeAddress "ext_address"]

abbrev memoryReadRequest : WireType :=
  record "RamReadRequest" [word "address", byte "len"]

abbrev memoryReadResponse : WireType :=
  record "RamReadResponse" [byte "status", bytes "value"]

abbrev memoryWriteRequest : WireType :=
  record "RamWriteRequest" [word "address", bytes "value"]

/-- Asks for a non-volatile item from an offset on. -/
abbrev itemReadRequest : WireType :=
  record "OsalNvReadRequest" [word "id", byte "offset"]

abbrev itemReadResponse : WireType :=
  record "OsalNvReadResponse" [byte "status", bytes "value"]

/-- Writes a non-volatile item from an offset on. -/
abbrev itemWriteRequest : WireType :=
  record "OsalNvWriteRequest" [word "id", byte "offset", bytes "value"]

/-- Starts a timer of so many milliseconds. -/
abbrev startTimerRequest : WireType :=
  record "OsalStartTimerRequest" [byte "id", word "timeout"]

abbrev stopTimerRequest : WireType :=
  record "OsalStopTimerRequest" [byte "id"]

abbrev randomResponse : WireType :=
  record "RandomResponse" [word "value"]

/-- The real-time clock: seconds since the year 2000, or `0` to use the other fields. -/
abbrev time : WireType :=
  record "Time"
    [long "utc_time", byte "hour", byte "minute", byte "second", byte "month", byte "day",
      word "year"]

/-- Asks for a transmit power in dBm. -/
abbrev setPowerRequest : WireType :=
  record "SetTxPowerRequest" [byte "tx_power"]

abbrev setPowerResponse : WireType :=
  record "SetTxPowerResponse" [byte "tx_power"]

abbrev resetIndication : WireType :=
  record "ResetIndication"
    [byte "reason", byte "transport_rev", byte "product_id", byte "major_rel", byte "minor_rel",
      byte "hw_rev"]

abbrev timerExpired : WireType :=
  record "OsalTimerExpired" [byte "id"]

end ZigbeeHost.Catalog
