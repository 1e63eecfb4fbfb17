import ZigbeeHost.Payload.WireType

/-!
# Building the catalog

The catalog holds the records that the radio's commands carry. Addresses are
text backed by integers, short lists have a one-byte length prefix, and flags
own single bits of a shared word.
-/

namespace ZigbeeHost.Catalog

abbrev Entry := String × WireType × List (String × String)

/-- A record with the given fields, all of which travel. -/
abbrev record (name : String) (entries : List Entry) : WireType :=
  .record name (Fields.ofList entries) none

abbrev byte (name : String) : Entry := (name, .uint .one, [])

abbrev word (name : String) : Entry := (name, .uint .two, [])

abbrev long (name : String) : Entry := (name, .uint .four, [])

/-- A network address of two bytes. -/
abbrev shortAddress (name : String) : Entry := (name, .text, [("hex", "uint16")])

/-- An IEEE address of eight bytes. -/
abbrev ieeeAddress (name : String) : Entry := (name, .text, [("hex", "uint64")])

/-- Network addresses after their count, which takes one byte. -/
abbrev shortAddresses (name : String) : Entry :=
  (name, .list .text, [("hex", "uint16"), ("len", "uint8")])

/-- Bytes after their count, which takes one byte. -/
abbrev bytes (name : String) : Entry := (name, .list (.uint .one), [("len", "uint8")])

/-- Two-byte integers after their count, which takes one byte. -/
abbrev words (name : String) : Entry := (name, .list (.uint .two), [("len", "uint8")])

/-- Zero bytes that fill a value up to a fixed size. -/
abbrev padding (count : Nat) : Entry := ("padding", .array (.uint .one) count, [])

abbrev nested (name : String) (type : WireType) : Entry := (name, type, [])

abbrev firstBits (name : String) (width : Width) (mask : String) : Entry :=
  (name, .uint width, [("bitmask", "start"), ("bits", mask)])

abbrev bits (name : String) (width : Width) (mask : String) : Entry :=
  (name, .uint width, [("bits", mask)])

abbrev lastBits (name : String) (width : Width) (mask : String) : Entry :=
  (name, .uint width, [("bitmask", "end"), ("bits", mask)])

/-- The status byte that most commands answer with. -/
abbrev statusResponse : WireType := record "StatusResponse" [byte "status"]

def isSuccess (response : statusResponse.Value) : Bool := response.1 == 0#8

end ZigbeeHost.Catalog
