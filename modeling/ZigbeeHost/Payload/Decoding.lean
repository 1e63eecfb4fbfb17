import ZigbeeHost.Payload.Address
import ZigbeeHost.Payload.Integer
import ZigbeeHost.Payload.WireType
import ZigbeeHost.Text.Utf8

/-!
# Decoding payloads

Decoding overwrites a destination. Every reader returns the destination as it
is afterwards, also when it fails: the parts read before the failure stay
changed. What the payload does not mention keeps the value it had, such as
fields whose condition does not hold and the alternative of a variant. Bytes
after the last field are ignored.
-/

namespace ZigbeeHost

/-- Splits the first `count` bytes off a payload. -/
def takeBytes (count : Nat) (payload : Bytes) : Except DecodeError (Bytes × Bytes) :=
  if payload.length < count then .error (.unexpectedEnd count payload.length)
  else .ok (payload.splitAt count)

/-- Reads an integer of `count` bytes. -/
def ByteOrder.take (order : ByteOrder) (count : Nat) (payload : Bytes) :
    Except DecodeError (Nat × Bytes) :=
  (takeBytes count payload).map fun (taken, rest) => (order.read taken, rest)

namespace FieldTags

/-- Reads an integer field in its bound, or else its declared width. -/
def takeUint (tags : FieldTags) (declared : Width) (payload : Bytes) :
    Except DecodeError (Nat × Bytes) :=
  tags.order.take (tags.bound.getD declared.bytes) payload

/-- Reads the length prefix, if the field has one. -/
def takeLength (tags : FieldTags) (payload : Bytes) :
    Except DecodeError (Option Nat × Bytes) :=
  match tags.length with
  | none => .ok (none, payload)
  | some width =>
      (tags.order.take width.bytes payload).map fun (length, rest) => (some length, rest)

end FieldTags

/-- The outcome of reading into a destination. -/
structure Reading (α : Type) where
  /-- The destination afterwards. -/
  value : α
  /-- The bytes that have not been read. -/
  rest : Bytes
  /-- Why reading stopped, if it failed. -/
  error : Option PayloadError := none

namespace Reading

/-- The same outcome for a larger destination that contains this one. -/
def map {α β : Type} (transform : α → β) (reading : Reading α) : Reading β :=
  { value := transform reading.value, rest := reading.rest, error := reading.error }

/-- Goes on reading after a success; a failure stays, with `stopped` as the
destination. -/
def andThen {α β : Type} (reading : Reading α) (stopped : α → β)
    (next : α → Bytes → Reading β) : Reading β :=
  match reading.error with
  | some _ => reading.map stopped
  | none => next reading.value reading.rest

/-- Stores what was read, or leaves the destination alone if that failed. -/
def ofTaken {α β : Type} (destination : α) (payload : Bytes) (store : β → α) :
    Except DecodeError (β × Bytes) → Reading α
  | .error error => { value := destination, rest := payload, error := some (.decode error) }
  | .ok (taken, rest) => { value := store taken, rest }

end Reading

/-- Reads a text field: an address if the tags say so, else UTF-8 of the length
that the prefix announces, or up to the end of the payload. -/
def FieldTags.readText (tags : FieldTags) (destination : String) (payload : Bytes) :
    Reading String :=
  match tags.hex with
  | some width =>
      .ofTaken destination payload width.renderHex (tags.order.take width.bytes payload)
  | none =>
      match tags.takeLength payload with
      | .error error => { value := destination, rest := payload, error := some (.decode error) }
      | .ok (length, body) =>
          match takeBytes (length.getD body.length) body with
          | .error error => { value := destination, rest := body, error := some (.decode error) }
          | .ok (raw, rest) =>
              match Utf8.decode? raw with
              | some text => { value := text, rest }
              | none =>
                  { value := destination, rest, error := some (.decode (.invalidText tags.field)) }

/-- Reads at most `count` list elements. An element that takes no bytes is the
last one, because such elements cannot use up the payload; with `untilEnd`
reading also ends with the payload. Only complete elements are kept. -/
def readElements {α : Type} (read : Bytes → Reading α) (untilEnd : Bool) :
    (count : Nat) → Bytes → Reading (List α)
  | 0, payload => { value := [], rest := payload }
  | count + 1, payload =>
      if untilEnd ∧ payload = [] then { value := [], rest := payload }
      else
        (read payload).andThen (fun _ => []) fun value rest =>
          if rest.length = payload.length then { value := [value], rest }
          else (readElements read untilEnd count rest).map (value :: ·)

/-- Reads a list of elements after its length prefix, or up to the end of the
payload. -/
def FieldTags.readList {α : Type} (tags : FieldTags) (read : Bytes → Reading α)
    (payload : Bytes) : Reading (List α) :=
  match tags.takeLength payload with
  | .error error => { value := [], rest := payload, error := some (.decode error) }
  | .ok (some count, body) => readElements read false count body
  | .ok (none, body) => readElements read true body.length body

/-- Reads into each of a fixed number of destinations. -/
def readTuple {α : Type} (read : α → Bytes → Reading α) :
    (count : Nat) → Tuple α count → Bytes → Reading (Tuple α count)
  | 0, _, payload => { value := (), rest := payload }
  | count + 1, (value, values), payload =>
      (read value payload).andThen (·, values) fun value rest =>
        (readTuple read count values rest).map (value, ·)

mutual

/-- Reads a value under the tags of its field. -/
def WireType.decode :
    (type : WireType) → FieldTags → type.Value → Bytes → Reading type.Value
  | .uint width, tags, destination, payload =>
      .ofTaken destination payload (BitVec.ofNat width.bits) (tags.takeUint width payload)
  | .text, tags, destination, payload => tags.readText destination payload
  | .unit, _, _, payload => { value := (), rest := payload }
  | .list element, tags, _, payload =>
      tags.readList (element.decode tags.element element.default) payload
  | .array element count, tags, destination, payload =>
      readTuple (element.decode tags) count destination payload
  | .optional inner, tags, destination, payload =>
      if payload = [] then { value := none, rest := payload }
      else (inner.decode tags (destination.getD inner.default) payload).map some
  | .record name fields limit, _, destination, payload =>
      match fields.layout name with
      | .error error =>
          { value := destination, rest := payload, error := some (.configuration error) }
      | .ok layout => fields.decode (layout.transferred limit) [] 0 destination payload
  | .variant _ _ first _, tags, .inl destination, payload =>
      (first.decode tags destination payload).map .inl
  | .variant _ _ _ others, tags, .inr choice, payload =>
      (others.decode tags choice payload).map .inr

/-- Reads the remaining fields of a record, given their checked forms, the
integers held by the fields before them and the word of the open bit run. -/
def Fields.decode : (fields : Fields) → List Field → List (Option Nat) → Nat → fields.Values →
    Bytes → Reading fields.Values
  | .nil, _, _, _, _, payload => { value := (), rest := payload }
  | .cons _ _ _ _, [], _, _, destination, payload => { value := destination, rest := payload }
  | .cons _ type _ rest, field :: more, earlier, container, (value, values), payload =>
      let goOn (container : Nat) (value : type.Value) (payload : Bytes) :
          Reading (type.Value × rest.Values) :=
        (rest.decode more (earlier ++ [type.asUint value]) container values payload).map (value, ·)
      if field.isPresent earlier then
        match field.tags.bitMask with
        | some bits =>
            if bits.role = .first then
              match field.runOrder.take field.containerBytes payload with
              | .error error =>
                  { value := (value, values), rest := payload, error := some (.decode error) }
              | .ok (word, rest) => goOn word (type.setUint value (bits.extract word)).2 rest
            else goOn container (type.setUint value (bits.extract container)).2 payload
        | none => (type.decode field.tags value payload).andThen (·, values) (goOn container)
      else goOn container value payload

/-- Reads into the alternative that was chosen. -/
def Alternatives.decode :
    (others : Alternatives) → FieldTags → others.Choice → Bytes → Reading others.Choice
  | .cons _ type _, tags, .inl destination, payload =>
      (type.decode tags destination payload).map .inl
  | .cons _ _ rest, tags, .inr choice, payload => (rest.decode tags choice payload).map .inr

end

/-- Reads a payload into a destination. -/
def WireType.ofPayload (type : WireType) (destination : type.Value) (payload : Bytes) :
    Reading type.Value :=
  type.decode { field := "payload" } destination payload

end ZigbeeHost
