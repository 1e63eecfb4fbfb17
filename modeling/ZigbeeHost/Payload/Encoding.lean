import ZigbeeHost.Payload.Address
import ZigbeeHost.Payload.Integer
import ZigbeeHost.Payload.WireType
import ZigbeeHost.Text.Utf8

/-!
# Encoding values

Fields are written in declaration order with nothing between them. The tags
of a field decide how it is written: integers in their bound, addresses as
integers, texts and lists after a length prefix. A field whose condition does
not hold writes nothing. The members of a bit run share one word, which is
written at the last of them.
-/

namespace ZigbeeHost

namespace FieldTags

/-- The byte count of an integer field: its bound, or else its declared width. -/
def uintBytes (tags : FieldTags) (declared : Width) : Nat :=
  tags.bound.getD declared.bytes

/-- Writes an integer field, which must fit in its byte count. -/
def writeUint (tags : FieldTags) (declared : Width) (value : Nat) : Except EncodeError Bytes :=
  let count := tags.uintBytes declared
  if value ≤ maxOfBytes count then .ok (tags.order.write count value)
  else .error (.valueOverflow tags.field value count)

/-- Writes the length prefix, if the field has one. -/
def writeLength (tags : FieldTags) (length : Nat) : Except EncodeError Bytes :=
  match tags.length with
  | none => .ok []
  | some width =>
      if length ≤ width.maxValue then .ok (tags.order.write width.bytes length)
      else .error (.lengthOverflow tags.field length width.bytes)

/-- Writes an address text as an integer. -/
def writeHex (tags : FieldTags) (width : Width) (text : String) : Except EncodeError Bytes :=
  match width.parseHex? text with
  | some value => .ok (tags.order.write width.bytes value)
  | none => .error (.invalidHex tags.field text width.bytes)

/-- Writes a text field: an address if the tags say so, else its UTF-8 bytes
after their length prefix. -/
def writeText (tags : FieldTags) (text : String) : Except EncodeError Bytes :=
  match tags.hex with
  | some width => tags.writeHex width text
  | none => (tags.writeLength (Utf8.encode text).length).map (· ++ Utf8.encode text)

end FieldTags

/-- Writes values one after the other, up to the first that has no encoding. -/
def encodeEach {α : Type} (encode : α → Except PayloadError Bytes) :
    List α → Except PayloadError Bytes
  | [] => .ok []
  | value :: rest =>
      match encode value with
      | .error error => .error error
      | .ok written => (encodeEach encode rest).map (written ++ ·)

mutual

/-- The bytes of a value under the tags of its field. -/
def WireType.encode :
    (type : WireType) → FieldTags → type.Value → Except PayloadError Bytes
  | .uint width, tags, value => (tags.writeUint width value.toNat).mapError .encode
  | .text, tags, value => (tags.writeText value).mapError .encode
  | .unit, _, _ => .ok []
  | .list element, tags, values =>
      match tags.writeLength values.length with
      | .error error => .error (.encode error)
      | .ok header => (encodeEach (element.encode tags.element) values).map (header ++ ·)
  | .array element count, tags, values => encodeEach (element.encode tags) (values.toList count)
  | .optional _, _, none => .ok []
  | .optional inner, tags, some value => inner.encode tags value
  | .record name fields limit, _, values =>
      match fields.layout name with
      | .error error => .error (.configuration error)
      | .ok layout => fields.encode (layout.transferred limit) [] 0 values
  | .variant _ _ first _, tags, .inl value => first.encode tags value
  | .variant _ _ _ others, tags, .inr choice => others.encode tags choice

/-- The bytes of the remaining fields of a record, given their checked forms,
the integers held by the fields before them and the bits that the open run has
collected. -/
def Fields.encode : (fields : Fields) → List Field → List (Option Nat) → Nat → fields.Values →
    Except PayloadError Bytes
  | .nil, _, _, _, _ => .ok []
  | .cons _ _ _ _, [], _, _, _ => .ok []
  | .cons _ type _ rest, field :: more, earlier, container, (value, values) =>
      let held := type.asUint value
      if field.isPresent earlier then
        match field.tags.bitMask with
        | some bits =>
            let word := bits.insert (if bits.role = .first then 0 else container) (held.getD 0)
            let written :=
              if bits.role = .last then field.runOrder.write field.containerBytes word else []
            (rest.encode more (earlier ++ [held]) word values).map (written ++ ·)
        | none =>
            match type.encode field.tags value with
            | .error error => .error error
            | .ok written =>
                (rest.encode more (earlier ++ [held]) container values).map (written ++ ·)
      else rest.encode more (earlier ++ [held]) container values

/-- The bytes of the alternative that was chosen. -/
def Alternatives.encode :
    (others : Alternatives) → FieldTags → others.Choice → Except PayloadError Bytes
  | .cons _ type _, tags, .inl value => type.encode tags value
  | .cons _ _ rest, tags, .inr choice => rest.encode tags choice

end

/-- The tags of a whole payload. -/
def payloadTags : FieldTags := { field := "payload" }

/-- The payload that holds a value. -/
def WireType.toPayload (type : WireType) (value : type.Value) : Except PayloadError Bytes :=
  type.encode payloadTags value

end ZigbeeHost
