import ZigbeeHost.Catalog.Basic

/-!
# Application framework

Records of the application framework: endpoints, and data sent and received.
-/

namespace ZigbeeHost.Catalog

abbrev registerRequest : WireType :=
  record "RegisterRequest"
    [byte "end_point", word "app_prof_id", word "app_device_id", byte "add_dev_ver",
      byte "latency_req", words "app_in_cluster_list", words "app_out_cluster_list"]

/-- How data is transmitted, packed into one byte. -/
abbrev dataRequestOptions : WireType :=
  record "DataRequestOptions"
    [firstBits "wildcard_profile_id" .one "0b00000010", bits "aps_ack" .one "0b00010000",
      bits "discover_route" .one "0b00100000", bits "aps_security" .one "0b01000000",
      lastBits "skip_routing" .one "0b10000000"]

abbrev dataRequest : WireType :=
  record "DataRequest"
    [shortAddress "dst_addr", byte "dst_endpoint", byte "src_endpoint", word "cluster_id",
      byte "trans_id", nested "options" dataRequestOptions, byte "radius", bytes "data"]

/-- Sends data with extended addressing and a two-byte data length. -/
abbrev extendedDataRequest : WireType :=
  record "DataRequestExt"
    [byte "dst_addr_mode", ieeeAddress "dst_addr", byte "dst_endpoint", word "dst_pan_id",
      byte "src_endpoint", word "cluster_id", byte "trans_id",
      nested "options" dataRequestOptions, byte "radius",
      ("data", .list (.uint .one), [("len", "uint16")])]

abbrev deleteRequest : WireType :=
  record "DeleteRequest" [byte "endpoint"]

abbrev dataConfirm : WireType :=
  record "DataConfirm" [byte "status", byte "endpoint", byte "trans_id"]

abbrev incomingMessage : WireType :=
  record "IncomingMessage"
    [word "group_id", word "cluster_id", shortAddress "src_addr", byte "src_endpoint",
      byte "dst_endpoint", byte "was_broadcast", byte "link_quality", byte "security_use",
      long "timestamp", byte "trans_seq_number", bytes "data"]

end ZigbeeHost.Catalog
