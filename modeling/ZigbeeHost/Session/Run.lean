import ZigbeeHost.Session.Callers
import ZigbeeHost.Session.Deadlines
import ZigbeeHost.Session.Engine
import ZigbeeHost.Session.Reader

/-!
# Running a session

After every stimulus the activities run until none of them can proceed. They
take turns: timers that are due go off first, and an activity goes on until it
has to wait. The number of turns is bounded by the bytes, frames and calls
that are under way.
-/

namespace ZigbeeHost

inductive Activity where
  | timers
  | callers
  | reader
  | engine
deriving DecidableEq, Repr

namespace Activity

/-- The activity whose turn comes next. -/
def next : Activity → Activity
  | .timers => .callers
  | .callers => .reader
  | .reader => .engine
  | .engine => .timers

end Activity

namespace Session

/-- The engine takes one step: it ends a write before anything else, and looks
at arriving frames before queued ones. -/
def engineStep? (session : Session) : Option Session :=
  session.finishWrite?.or (session.receive?.or (session.dequeue?.or session.halt?))

def timerStep? (session : Session) : Option Session :=
  if session.ledger.timers.any session.ledger.isDue then
    some ((List.range session.ledger.timers.length).foldl fire session)
  else none

/-- One step of an activity, if it can proceed. -/
def step? (session : Session) : Activity → Option Session
  | .timers => session.timerStep?
  | .callers => session.proceed?
  | .reader => session.read?
  | .engine => session.engineStep?

/-- How many bytes, frames and calls are under way. -/
def load (session : Session) : Nat :=
  let arriving := session.pipe.toHost.foldl (fun total arrival =>
    match arrival with
    | .data bytes => total + bytes.length + 1
    | _ => total + 1) 0
  session.buffer.bytes.length + arriving + session.inbound.length + session.outbound.length +
    session.calls.length

/-- Lets the activities take turns; `waiting` counts those that could not
proceed since the last step. -/
def takeTurns : (turns waiting : Nat) → Activity → Session → Session
  | 0, _, _, session => session
  | turns + 1, waiting, activity, session =>
      match session.step? activity with
      | some next => takeTurns turns 0 activity next
      | none =>
          if waiting < 3 then takeTurns turns (waiting + 1) activity.next session else session

/-- Runs the activities until none of them can proceed. -/
def settle (session : Session) : Session :=
  takeTurns (20 * (session.load + 4)) 0 .timers session

/-- What can happen to a session from outside. -/
inductive Stimulus where
  | calls (requests : List Request)
  | arrive (bytes : Bytes)
  /-- Time passes, in milliseconds. -/
  | advance (milliseconds : Nat)
  | setMode (mode : WriteMode)
  | abandon (call : Nat)
  /-- The session is ended; before that, the radio writes some bytes. -/
  | shutDown (incoming : Bytes)
  /-- The client goes away; before that, the radio writes some bytes. -/
  | release (incoming : Bytes)
  | hangUp
  | dropReceivers
  | idle

/-- Ends the session: the callers go away, the engine stops and the reader is
not needed any more. -/
def shutDown (session : Session) : Session :=
  let quiet := { session.abandonAll with stopRequested := true }
  { (if quiet.isRunning then quiet.stop else quiet) with reader := .stopped }

def apply (session : Session) : Stimulus → Session
  | .calls requests => requests.foldl call session
  | .arrive bytes => { session with pipe := session.pipe.feed bytes }
  | .advance milliseconds =>
      { session with ledger := { session.ledger with now := session.ledger.now + milliseconds } }
  | .setMode mode => { session with pipe := { session.pipe with mode } }
  | .abandon number => session.abandon number
  | .shutDown incoming => { session with pipe := session.pipe.feed incoming }.shutDown
  | .release incoming =>
      { { session with pipe := session.pipe.feed incoming }.shutDown with isHeld := false }
  | .hangUp => { session with pipe := session.pipe.close }
  | .dropReceivers =>
      { session with
        dispatcher :=
          { events := session.dispatcher.events.close, errors := session.dispatcher.errors.close } }
  | .idle => session

/-- What becomes of the session after a stimulus, when it has come to rest. -/
def react (session : Session) (stimulus : Stimulus) : Session := (session.apply stimulus).settle

def takeWritten (session : Session) : Bytes × Session :=
  let (bytes, pipe) := session.pipe.takeWritten
  (bytes, { session with pipe })

/-- The events that wait for the application, which are taken. -/
def takeEvents (session : Session) : List Event × Session :=
  let (events, channel) := session.dispatcher.events.drain
  (events, { session with dispatcher := { session.dispatcher with events := channel } })

/-- The errors that wait for the application, which are taken. -/
def takeErrors (session : Session) : List Error × Session :=
  let (errors, channel) := session.dispatcher.errors.drain
  (errors, { session with dispatcher := { session.dispatcher with errors := channel } })

end Session

end ZigbeeHost
