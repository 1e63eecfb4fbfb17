import ZigbeeHost.Session.Basic

/-!
# The engine

The engine owns the writing side. It registers each request before writing
its frame, so that a response can never come too early, and routes each
arriving frame to exactly one place: a waiting transaction, the events or the
errors.
-/

namespace ZigbeeHost.Session

/-- Ends the transaction that waits under a key; without one the frame belongs
to nobody. -/
def settleKey (session : Session) (key : CommandKey) (outcome : Outcome) (frame : Frame) :
    Session :=
  match session.ledger.unregister key with
  | (some number, next) => { session with ledger := (next.resolve number outcome).2 }
  | (none, _) => session.report (.unmatchedResponse frame)

/-- Routes an error response to the request that it names. -/
def routeDeviceError (session : Session) (frame : Frame) : Session :=
  let reading := Catalog.errorFrame.ofPayload Catalog.errorFrame.default frame.payload
  match reading.error with
  | some cause => session.report (.payload cause)
  | none =>
      let rejection := DeviceError.ofRecord reading.value
      session.settleKey rejection.failedKey (.error (.device rejection.code)) frame

/-- Routes an indication to the events. -/
def routeIndication (session : Session) (frame : Frame) : Session :=
  match session.prototypes.instantiate frame.key frame.payload with
  | some (.ok event) => { session with dispatcher := session.dispatcher.deliver event }
  | some (.error cause) => session.report (.payload cause)
  | none => session.report (.unknownIndication frame.key)

/-- Routes an arriving frame. -/
def route (session : Session) (frame : Frame) : Session :=
  match frame.kind with
  | .syncResponse =>
      if frame.key = .deviceError then session.routeDeviceError frame
      else session.settleKey frame.key (.ok frame.payload) frame
  | .asyncRequest => session.routeIndication frame
  | .syncRequest => session.report (.unexpectedFrame frame)

/-- The engine takes the oldest frame that has arrived. -/
def receive? (session : Session) : Option Session :=
  match session.engine, session.inbound with
  | .idle, frame :: rest => some ({ session with inbound := rest }.route frame)
  | _, _ => none

/-- Connects a call with its transaction; the outcome of a call that has been
abandoned goes nowhere. -/
def connectCall (session : Session) (call transaction : Nat) : Session :=
  match session.calls[call]? with
  | some .queued => session.setCall call (.awaiting transaction)
  | _ => { session with ledger := session.ledger.dropReply transaction }

/-- Takes a request up: its transaction is registered and gets its timer, and
then its frame can be written. If a transaction waits under the key already,
nothing is written and the request fails. -/
def accept (session : Session) (frame : Frame) (call : Nat) : Session :=
  let (number, created) := session.ledger.create frame.key session.config.limit
  let connected := { session with ledger := created }.connectCall call number
  match connected.ledger.register number with
  | .error error =>
      { connected with ledger := (connected.ledger.resolve number (.error error)).2 }
  | .ok registered =>
      { connected with ledger := registered.arm number, engine := .writing frame (some number) }

/-- The engine takes the oldest frame that callers have queued. -/
def dequeue? (session : Session) : Option Session :=
  match session.engine, session.outbound with
  | .idle, .answered frame call :: rest =>
      some ({ session with outbound := rest }.accept frame call)
  | .idle, .unanswered frame :: rest =>
      some { session with outbound := rest, engine := .writing frame none }
  | _, _ => none

/-- Ends the transaction whose frame could not be written, if it still waits. -/
def failWrite (session : Session) (transaction : Option Nat) (cause : TransportError) : Session :=
  match transaction with
  | none => session.report (.transport cause)
  | some number =>
      match session.ledger.transactions[number]? with
      | none => session
      | some entry =>
          match session.ledger.expire entry.key number with
          | (some expired, next) =>
              { session with ledger := (next.resolve expired (.error (.transport cause))).2 }
          | (none, _) => session

/-- The engine learns how writing has ended. -/
def finishWrite? (session : Session) : Option Session :=
  match session.engine with
  | .writing frame transaction =>
      let idle := { session with engine := .idle }
      match session.pipe.writeFrame frame with
      | .ok pipe => some { idle with pipe }
      | .error cause => some (idle.failWrite transaction cause)
  | _ => none

/-- The queue is dropped, and its requests end as cancelled. -/
def dropOutbound (session : Session) : Session :=
  let cancel (current : Session) : Outgoing → Session
    | .answered _ call =>
        match current.calls[call]? with
        | some .queued => current.setCall call (.finished (.error .cancelled))
        | _ => current
    | .unanswered _ => current
  { session.outbound.foldl cancel session with outbound := [] }

/-- The engine stops: all transactions that wait are cancelled. -/
def stop (session : Session) : Session :=
  { session with
    engine := .stopped
    inbound := []
    ledger := session.ledger.cancelAll.2 }.dropOutbound

/-- The engine stops once it has been asked to, or once no frame can arrive any
more. -/
def halt? (session : Session) : Option Session :=
  match session.engine, session.reader with
  | .idle, .stopped =>
      if session.stopRequested ∨ session.inbound = [] then some session.stop else none
  | .idle, _ => if session.stopRequested then some session.stop else none
  | _, _ => none

end ZigbeeHost.Session
