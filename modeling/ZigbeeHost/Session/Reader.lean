import ZigbeeHost.Session.Basic

/-!
# The reader

The reader passes every frame that it finds to the engine and reports broken
candidates. It stops when the stream ends or the engine has stopped.
-/

namespace ZigbeeHost.Session

/-- Passes a frame to the engine as soon as the queue has room for it. -/
def forward? (session : Session) (frame : Frame) : Option Session :=
  if !session.isRunning then some { session with reader := .stopped }
  else if session.inbound.length < session.queueLimit then
    some { session with reader := .reading, inbound := session.inbound ++ [frame] }
  else none

/-- Takes the outcome of waiting for a frame into account. -/
def take (session : Session) : FrameRead → Session
  | .frame frame => { session with reader := .holding frame }
  | .error cause =>
      let reported := session.report (.transport cause)
      if cause.isFatal then { reported with reader := .stopped } else reported
  | .pending => session

/-- The reader looks for a frame, or passes on the one that it holds. -/
def read? (session : Session) : Option Session :=
  match session.reader with
  | .stopped => none
  | .holding frame => session.forward? frame
  | .reading =>
      let (outcome, buffer, toHost) := readFrame session.buffer session.pipe.toHost
      if outcome = .pending ∧ session.pipe.toHost = [] then none
      else
        some ({ session with buffer, pipe := { session.pipe with toHost } }.take outcome)

end ZigbeeHost.Session
