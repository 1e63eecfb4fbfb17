import ZigbeeHost.Event.Channel
import ZigbeeHost.Event.PrototypeTable
import ZigbeeHost.Session.Request
import ZigbeeHost.Session.Stream
import ZigbeeHost.Transaction.Ledger

/-!
# The state of a session

A session connects callers with the radio. Three activities share its state:
the callers, who queue frames and wait; the reader, which finds frames in the
stream; and the engine, which writes queued frames and routes arriving ones.
Each activity proceeds in small steps, and the steps of different activities
may alternate in any order.
-/

namespace ZigbeeHost

/-- The settings of a session. -/
structure SessionConfig where
  /-- How long a request may take, in milliseconds. -/
  limit : Nat := 5000
  eventCapacity : Nat := 256
  errorCapacity : Nat := 64
  queueCapacity : Nat := 64
deriving DecidableEq, Repr

/-- A frame on its way from a caller to the engine. -/
inductive Outgoing where
  /-- A request whose outcome goes to the call of the given number. -/
  | answered (frame : Frame) (call : Nat)
  | unanswered (frame : Frame)
deriving DecidableEq, Repr

/-- What has become of a call. -/
inductive CallState where
  /-- Its frame waits for room in the queue. -/
  | submitting (outgoing : Outgoing)
  | queued
  /-- Its transaction has been created. -/
  | awaiting (transaction : Nat)
  /-- Its outcome is known and has not been looked at. -/
  | finished (outcome : Outcome)
  | collected
  | abandoned

/-- What the reader is doing. -/
inductive ReaderState where
  | reading
  /-- It waits for room in the queue for a frame. -/
  | holding (frame : Frame)
  | stopped
deriving DecidableEq, Repr

/-- What the engine is doing. -/
inductive EngineState where
  | idle
  /-- It writes a frame, which may belong to a transaction. -/
  | writing (frame : Frame) (transaction : Option Nat)
  | stopped
deriving DecidableEq, Repr

/-- A session with the radio. -/
structure Session where
  config : SessionConfig
  prototypes : PrototypeTable
  dispatcher : Dispatcher
  ledger : Ledger := {}
  /-- The transactions that timers have taken out of the table and have not given
  up yet. -/
  overdue : List Nat := []
  pipe : Pipe := {}
  buffer : FrameBuffer := {}
  reader : ReaderState := .reading
  /-- Frames on their way from the reader to the engine, the oldest first. -/
  inbound : List Frame := []
  /-- Frames on their way from the callers to the engine, the oldest first. -/
  outbound : List Outgoing := []
  engine : EngineState := .idle
  stopRequested : Bool := false
  /-- The calls so far; a call is known by its position. -/
  calls : List CallState := []
  isHeld : Bool := true

namespace Session

/-- A session that has just been started. -/
def start (config : SessionConfig) (prototypes : PrototypeTable) : Session :=
  { config, prototypes
    dispatcher := .ofCapacities config.eventCapacity config.errorCapacity }

/-- How many items fit into each queue between the activities. -/
def queueLimit (session : Session) : Nat := max session.config.queueCapacity 1

/-- Whether the engine still takes frames. -/
def isRunning (session : Session) : Bool :=
  match session.engine with
  | .stopped => false
  | _ => true

/-- The number of requests that wait for a response. -/
def waitingCount (session : Session) : Nat := session.ledger.waiting.length

/-- Hands an error to the application. -/
def report (session : Session) (error : Error) : Session :=
  { session with dispatcher := session.dispatcher.report error }

/-- Changes what has become of a call. -/
def setCall (session : Session) (number : Nat) (state : CallState) : Session :=
  { session with calls := session.calls.set number state }

end Session

end ZigbeeHost
