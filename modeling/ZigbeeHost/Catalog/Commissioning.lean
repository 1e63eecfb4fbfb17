import ZigbeeHost.Catalog.Basic

/-!
# Commissioning

Records of base device commissioning.
-/

namespace ZigbeeHost.Catalog

/-- Starts commissioning in the modes whose bits are set. -/
abbrev startCommissioningRequest : WireType :=
  record "BdbStartCommissioningRequest" [byte "mode"]

/-- Selects the primary or secondary commissioning channels. -/
abbrev setChannelsRequest : WireType :=
  record "BdbSetChannelRequest" [byte "is_primary", long "channel"]

abbrev commissioningNotification : WireType :=
  record "BdbCommissioningNotification" [byte "status", byte "mode", byte "remaining_modes"]

end ZigbeeHost.Catalog
