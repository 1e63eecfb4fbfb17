import ZigbeeHost.Error
import ZigbeeHost.Payload.Decoding
import ZigbeeHost.Payload.Encoding

/-!
# Requests and calls

A request is a frame to be sent, with or without a response. A call adds how
the response is read: the caller sees a value of its own type.
-/

namespace ZigbeeHost

/-- What a caller wants to send. The payload may have turned out to have no
encoding. -/
structure Request where
  /-- Whether the radio answers with a response. -/
  isAnswered : Bool
  key : CommandKey
  payload : Except PayloadError Bytes

namespace Request

/-- The frame of the request, unless the payload has no encoding or is too
large. -/
def frame (request : Request) : Except Error Frame :=
  match request.payload with
  | .error cause => .error (.payload cause)
  | .ok payload =>
      let frame : Frame :=
        { kind := if request.isAnswered then .syncRequest else .asyncRequest
          subsystem := request.key.subsystem
          command := request.key.command
          payload }
      match frame.checkSize with
      | .error cause => .error (.transport (.frame cause))
      | .ok () => .ok frame

end Request

/-- A request together with the reading of its response. -/
structure Call (α : Type) where
  request : Request
  read : Bytes → Except PayloadError α

namespace Call

/-- Sends a payload as it is; the result is the payload of the response. -/
def raw (key : CommandKey) (payload : Bytes) : Call Bytes :=
  { request := { isAnswered := true, key, payload := .ok payload }, read := .ok }

/-- Sends a value and decodes the response into a destination. -/
def exchange (key : CommandKey) (asked : WireType) (value : asked.Value) (answer : WireType)
    (destination : answer.Value) : Call answer.Value :=
  { request := { isAnswered := true, key, payload := asked.toPayload value }
    read := fun payload =>
      let reading := answer.ofPayload destination payload
      match reading.error with
      | some error => .error error
      | none => .ok reading.value }

/-- Sends a value and decodes the response from scratch. -/
def ask (key : CommandKey) (asked : WireType) (value : asked.Value) (answer : WireType) :
    Call answer.Value :=
  exchange key asked value answer answer.default

/-- Sends a value that is not answered. -/
def send (key : CommandKey) (sent : WireType) (value : sent.Value) : Call Unit :=
  { request := { isAnswered := false, key, payload := sent.toPayload value }
    read := fun _ => .ok () }

/-- The same call with another view of its result. -/
def map {α β : Type} (view : α → β) (call : Call α) : Call β :=
  { request := call.request, read := fun payload => (call.read payload).map view }

/-- The result of a call whose request has ended in the given way. -/
def result {α : Type} (call : Call α) : Except Error Bytes → Except Error α
  | .error error => .error error
  | .ok payload => (call.read payload).mapError .payload

end Call

end ZigbeeHost
