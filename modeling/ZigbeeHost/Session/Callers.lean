import ZigbeeHost.Session.Basic

/-!
# The callers

A call checks its payload, queues its frame as soon as there is room, and
waits for its outcome. Once the engine has stopped, nothing can be queued.
-/

namespace ZigbeeHost.Session

/-- The state in which the call of the given number begins. -/
def firstState (request : Request) (number : Nat) : CallState :=
  match request.frame with
  | .error error => .finished (.error error)
  | .ok frame =>
      .submitting (if request.isAnswered then .answered frame number else .unanswered frame)

/-- Starts a call. -/
def call (session : Session) (request : Request) : Session :=
  { session with calls := session.calls ++ [firstState request session.calls.length] }

/-- The state of a call whose frame has been queued. -/
def queuedState : Outgoing → CallState
  | .answered _ _ => .queued
  | .unanswered _ => .finished (.ok [])

/-- Queues the frame of a call, unless the engine has stopped. -/
def submit? (session : Session) (number : Nat) : Option Session :=
  match session.calls[number]? with
  | some (.submitting outgoing) =>
      if !session.isRunning then some (session.setCall number (.finished (.error .notConnected)))
      else if session.outbound.length < session.queueLimit then
        some ({ session with outbound := session.outbound ++ [outgoing] }.setCall number
          (queuedState outgoing))
      else none
  | _ => none

/-- A call that waits for its transaction takes the outcome. -/
def collect? (session : Session) (number : Nat) : Option Session :=
  match session.calls[number]? with
  | some (.awaiting transaction) =>
      match session.ledger.takeReply transaction with
      | (some outcome, ledger) =>
          some ({ session with ledger }.setCall number (.finished outcome))
      | (none, _) => none
  | _ => none

/-- The caller goes away; what has been queued or registered stays. -/
def abandon (session : Session) (number : Nat) : Session :=
  match session.calls[number]? with
  | some (.submitting _) => session.setCall number .abandoned
  | some .queued => session.setCall number .abandoned
  | some (.awaiting transaction) =>
      { session with ledger := session.ledger.dropReply transaction }.setCall number .abandoned
  | _ => session

/-- All callers go away. -/
def abandonAll (session : Session) : Session :=
  (List.range session.calls.length).foldl abandon session

/-- The first call that can proceed does. -/
def proceed? (session : Session) : Option Session :=
  (List.range session.calls.length).findSome? fun number =>
    (session.submit? number).or (session.collect? number)

/-- The outcomes that have not been looked at, by call, and the session in which
they have been. -/
def takeFinished (session : Session) : List (Nat × Outcome) × Session :=
  let outcomes := session.calls.zipIdx.filterMap fun (state, number) =>
    match state with
    | .finished outcome => some (number, outcome)
    | _ => none
  let calls := session.calls.map fun state =>
    match state with
    | .finished _ => .collected
    | other => other
  (outcomes, { session with calls })

end ZigbeeHost.Session
