import ZigbeeHost.Proofs.Frame.Draining
import ZigbeeHost.Proofs.Session.Histories
import ZigbeeHost.Proofs.Session.Scopes

/-!
# From the stream to the engine

The reader takes the pieces of a stream, finds frames in them, and hands over
each frame to the engine and each error to the application.  In between, more
pieces arrive, and the other activities do what they do: in particular the
engine makes room for further frames.  What the reader hands over does not
depend on any of this.  It is what a frame buffer makes of the whole stream at
once, followed by the error with which the stream has ended.
-/

namespace ZigbeeHost

/-- What the reader hands over: a frame to the engine, or an error to the
application. -/
abbrev Handed := Except TransportError Frame

def framesOf (handed : List Handed) : List Frame := handed.filterMap Except.toOption

def causesOf (handed : List Handed) : List TransportError :=
  handed.filterMap fun
    | .ok _ => none
    | .error cause => some cause

/-- What waiting for a frame gives the reader to hand over. -/
def FrameRead.handed : FrameRead → List Handed
  | .frame found => [.ok found]
  | .error cause => [.error cause]
  | .pending => []

/-- The error with which the arrival ends the stream. -/
def Arrival.fatal? : Arrival → Option TransportError
  | .data _ => none
  | .ended => some .closed
  | .failed reason => some (.io reason)

theorem Arrival.isFatal_of_ends {last : Arrival} {fatal : TransportError}
    (ends : last.fatal? = some fatal) : fatal.isFatal = true := by
  cases last with
  | data bytes => cases ends
  | ended =>
      obtain rfl := Option.some.inj ends
      rfl
  | failed reason =>
      obtain rfl := Option.some.inj ends
      rfl

/-- The arrivals bring the pieces and then end the stream with an error. What
comes after that does not matter. -/
def Delivers (arrivals : List Arrival) (pieces : List Bytes) (fatal : TransportError) : Prop :=
  ∃ last beyond, arrivals = pieces.map .data ++ last :: beyond ∧ last.fatal? = some fatal

namespace FrameBuffer

/-- What the reader hands over for an answer of a frame buffer. -/
def handedFor : Answer → List Handed
  | .ok none => []
  | .ok (some frame) => [.ok frame]
  | .error cause => [.error (.frame cause)]

/-- What there is to hand over once a frame buffer has got all of the pieces. -/
def handover (buffer : FrameBuffer) (pieces : List Bytes) : List Handed :=
  (buffer.feed pieces.flatten).drain.1.flatMap handedFor

variable {buffer rest : FrameBuffer}

theorem handover_append (buffer : FrameBuffer) (taken pieces : List Bytes) :
    buffer.handover (taken ++ pieces) = (buffer.feed taken.flatten).handover pieces := by
  rw [handover, handover, List.flatten_append, feed_append]

/-- What can be found now is handed over before anything else. -/
theorem handover_of_something {pieces : List Bytes} (something : buffer.next.answer ≠ .ok none) :
    buffer.handover pieces =
      handedFor buffer.next.answer ++ buffer.next.buffer.handover pieces := by
  have answer := Step.answer_feed something pieces.flatten
  have left := Step.buffer_feed something pieces.flatten
  rw [← next_feed] at answer left
  rw [handover, drain_of_something (answer ▸ something), answer, left, List.flatMap_cons]
  rfl

section Taken

variable {taken : List Bytes} (pieces : List Bytes)

theorem handover_of_found {frame : Frame}
    (found : (buffer.feed taken.flatten).next = .found frame rest) :
    buffer.handover (taken ++ pieces) = .ok frame :: rest.handover pieces := by
  have something : (buffer.feed taken.flatten).next.answer ≠ .ok none := by
    rw [found]
    nofun
  rw [handover_append, handover_of_something something, found]
  rfl

theorem handover_of_failed {cause : FrameError}
    (failed : (buffer.feed taken.flatten).next = .failed cause rest) :
    buffer.handover (taken ++ pieces) = .error (.frame cause) :: rest.handover pieces := by
  have something : (buffer.feed taken.flatten).next.answer ≠ .ok none := by
    rw [failed]
    nofun
  rw [handover_append, handover_of_something something, failed]
  rfl

/-- A buffer without a complete candidate waits for the next piece. -/
theorem handover_of_incomplete (waits : (buffer.feed taken.flatten).next = .incomplete rest) :
    buffer.handover (taken ++ pieces) = rest.handover pieces := by
  have same : ((buffer.feed taken.flatten).feed pieces.flatten).next =
      (rest.feed pieces.flatten).next := by
    rw [next_feed, waits]
    rfl
  rw [handover_append, handover, handover, drain_eq_of_next_eq same]

theorem handover_eq_nil (waits : (buffer.feed taken.flatten).next = .incomplete rest) :
    buffer.handover taken = [] := by
  have nothing : (buffer.feed taken.flatten).next.answer = .ok none := by
    rw [waits]
    rfl
  rw [handover, drain_of_nothing nothing]
  rfl

end Taken

end FrameBuffer

namespace Delivers

variable {arrivals : List Arrival} {pieces : List Bytes} {fatal : TransportError}

/-- The pieces that have been taken are the first ones. -/
theorem split {taken : List Bytes}
    (delivers : Delivers (taken.map .data ++ arrivals) pieces fatal) :
    ∃ later, pieces = taken ++ later ∧ Delivers arrivals later fatal := by
  induction taken generalizing pieces with
  | nil => exact ⟨pieces, rfl, delivers⟩
  | cons piece taken ih =>
      obtain ⟨last, beyond, whole, ends⟩ := delivers
      cases pieces with
      | nil =>
          obtain ⟨rfl, -⟩ := List.cons.inj whole
          cases ends
      | cons first pieces =>
          obtain ⟨same, tail⟩ := List.cons.inj whole
          obtain rfl := Arrival.data.inj same
          obtain ⟨later, rfl, delivers⟩ := ih ⟨last, beyond, tail, ends⟩
          exact ⟨later, rfl, delivers⟩

/-- An arrival that ends the stream comes after all pieces. -/
theorem eq_of_ends {last : Arrival} {cause : TransportError}
    (delivers : Delivers (last :: arrivals) pieces fatal) (ends : last.fatal? = some cause) :
    pieces = [] ∧ cause = fatal := by
  obtain ⟨other, beyond, whole, endsOther⟩ := delivers
  cases pieces with
  | nil =>
      obtain ⟨rfl, -⟩ := List.cons.inj whole
      exact ⟨rfl, Option.some.inj (ends.symm.trans endsOther)⟩
  | cons piece pieces =>
      obtain ⟨rfl, -⟩ := List.cons.inj whole
      cases ends

end Delivers

/-- How waiting for a frame ends. The pieces that it has taken, together, make
the frame buffer find something or leave it waiting for what comes next. -/
inductive Awaits (buffer : FrameBuffer) (arrivals : List Arrival) :
    FrameRead × FrameBuffer × List Arrival → Prop
  | found (taken : List Bytes) {frame : Frame} {rest : FrameBuffer} {left : List Arrival}
      (split : arrivals = taken.map .data ++ left)
      (next : (buffer.feed taken.flatten).next = .found frame rest) :
      Awaits buffer arrivals (.frame frame, rest, left)
  | failed (taken : List Bytes) {cause : FrameError} {rest : FrameBuffer} {left : List Arrival}
      (split : arrivals = taken.map .data ++ left)
      (next : (buffer.feed taken.flatten).next = .failed cause rest) :
      Awaits buffer arrivals (.error (.frame cause), rest, left)
  | ended (taken : List Bytes) {last : Arrival} {fatal : TransportError} {rest : FrameBuffer}
      {later left : List Arrival} (split : arrivals = taken.map .data ++ last :: later)
      (ends : last.fatal? = some fatal)
      (next : (buffer.feed taken.flatten).next = .incomplete rest) :
      Awaits buffer arrivals (.error fatal, rest, left)
  | pending (taken : List Bytes) {rest : FrameBuffer} (split : arrivals = taken.map .data)
      (next : (buffer.feed taken.flatten).next = .incomplete rest) :
      Awaits buffer arrivals (.pending, rest, [])

/-- A buffer without a complete candidate has taken another piece. -/
theorem Awaits.after {buffer rest : FrameBuffer} {piece : Bytes} {arrivals : List Arrival}
    {result : FrameRead × FrameBuffer × List Arrival} (waits : buffer.next = .incomplete rest)
    (awaits : Awaits (rest.feed piece) arrivals result) :
    Awaits buffer (.data piece :: arrivals) result := by
  have same (taken : List Bytes) : (buffer.feed (piece :: taken).flatten).next =
      ((rest.feed piece).feed taken.flatten).next := by
    rw [List.flatten_cons, FrameBuffer.next_feed, waits, ← FrameBuffer.feed_append]
    rfl
  cases awaits with
  | found taken split next =>
      exact .found (piece :: taken) (congrArg _ split) ((same taken).trans next)
  | failed taken split next =>
      exact .failed (piece :: taken) (congrArg _ split) ((same taken).trans next)
  | ended taken split ends next =>
      exact .ended (piece :: taken) (congrArg _ split) ends ((same taken).trans next)
  | pending taken split next =>
      exact .pending (piece :: taken) (congrArg _ split) ((same taken).trans next)

theorem awaits_readFrame (buffer : FrameBuffer) (arrivals : List Arrival) :
    Awaits buffer arrivals (readFrame buffer arrivals) := by
  induction arrivals generalizing buffer with
  | nil =>
      simp only [readFrame]
      have now : (buffer.feed ([] : List Bytes).flatten).next = buffer.next :=
        congrArg FrameBuffer.next buffer.feed_nil
      split
      · rename_i found
        exact .found [] rfl (now.trans found)
      · rename_i failed
        exact .failed [] rfl (now.trans failed)
      · rename_i waits
        exact .pending [] rfl (now.trans waits)
  | cons arrival more ih =>
      have now : (buffer.feed ([] : List Bytes).flatten).next = buffer.next :=
        congrArg FrameBuffer.next buffer.feed_nil
      simp only [readFrame]
      split
      · rename_i found
        exact .found [] rfl (now.trans found)
      · rename_i failed
        exact .failed [] rfl (now.trans failed)
      · rename_i rest waits
        cases arrival with
        | data piece => exact (ih (rest.feed piece)).after waits
        | ended => exact .ended [] rfl rfl (now.trans waits)
        | failed reason => exact .ended [] rfl rfl (now.trans waits)

/-- What the reader holds is still to be handed over. -/
def ReaderState.held : ReaderState → List Handed
  | .holding frame => [.ok frame]
  | _ => []

namespace Session

/-- What the reader hands over in its next step. -/
def handing (session : Session) : List Handed :=
  match session.reader with
  | .holding frame => if session.inbound.length < session.queueLimit then [.ok frame] else []
  | .reading =>
      match (readFrame session.buffer session.pipe.toHost).1 with
      | .error cause => [.error cause]
      | _ => []
  | .stopped => []

/-- Something happens that is no step of the reader: more of the stream may
arrive, and whatever belongs to the other activities may change.  The engine
has not stopped. -/
structure Elsewhere (session : Session) (arrived : List Arrival) (next : Session) : Prop where
  reader : next.reader = session.reader
  buffer : next.buffer = session.buffer
  toHost : next.pipe.toHost = session.pipe.toHost ++ arrived
  running : next.isRunning = true

/-- The reader takes its steps while other things happen.  The run counts these
steps and collects what has arrived and what the reader has handed over. -/
inductive Reads (first : Session) : List Arrival → Nat → List Handed → Session → Prop
  | start : Reads first [] 0 [] first
  | read {arrived : List Arrival} {steps : Nat} {handed : List Handed} {session next : Session}
      (earlier : Reads first arrived steps handed session) (stepped : session.read? = some next) :
      Reads first arrived (steps + 1) (handed ++ session.handing) next
  | elsewhere {arrived more : List Arrival} {steps : Nat} {handed : List Handed}
      {session next : Session} (earlier : Reads first arrived steps handed session)
      (elsewhere : session.Elsewhere more next) :
      Reads first (arrived ++ more) steps handed next

/-- What the reader still owes while the stream brings further arrivals: the
frame that it holds, what the frame buffer makes of the rest of the stream, and
the error with which the stream ends. -/
inductive Owes (session : Session) (undelivered : List Arrival) (fatal : TransportError) :
    List Handed → Nat → Prop
  | nothing (stopped : session.reader = .stopped) : Owes session undelivered fatal [] 0
  | more (going : session.reader ≠ .stopped) {pieces : List Bytes}
      (delivers : Delivers (session.pipe.toHost ++ undelivered) pieces fatal) :
      Owes session undelivered fatal
        (session.reader.held ++ session.buffer.handover pieces ++ [.error fatal]) pieces.length

/-- What has been handed over was owed first, and the end has come closer. -/
def Pays (session next : Session) (undelivered : List Arrival) (fatal : TransportError)
    (owed : List Handed) (pieces : Nat) : Prop :=
  ∃ later fewer, next.Owes undelivered fatal later fewer ∧ owed = session.handing ++ later ∧
    2 * later.length + fewer + session.reader.held.length <
      2 * owed.length + pieces + next.reader.held.length

section Paying

variable {session next : Session} {undelivered : List Arrival} {fatal : TransportError}

/-- A frame is passed on as soon as the engine has room for it. -/
theorem forward_of_holding {frame : Frame} (holding : session.reader = .holding frame)
    (running : session.isRunning = true) (stepped : session.read? = some next) :
    session.inbound.length < session.queueLimit ∧
      next = { session with reader := .reading, inbound := session.inbound ++ [frame] } := by
  have forwarded : session.forward? frame = some next := by
    rw [← stepped]
    simp only [read?, holding]
  rcases forward?_cases forwarded with ⟨stopped, -⟩ | ⟨-, forwards⟩
  · rw [running] at stopped
    cases stopped
  · exact forwards

theorem pays_of_holding {frame : Frame} (holding : session.reader = .holding frame)
    (running : session.isRunning = true) (stepped : session.read? = some next)
    {pieces : List Bytes} (delivers : Delivers (session.pipe.toHost ++ undelivered) pieces fatal) :
    session.Pays next undelivered fatal
      (.ok frame :: (session.buffer.handover pieces ++ [.error fatal])) pieces.length := by
  obtain ⟨room, rfl⟩ := forward_of_holding holding running stepped
  refine ⟨_, _, .more (by simp) delivers, ?_, ?_⟩
  · simp [handing, holding, room, ReaderState.held]
  · simp only [ReaderState.held, holding, List.length_append, List.length_cons, List.length_nil]
    omega

theorem pays_of_reading (reading : session.reader = .reading)
    (stepped : session.read? = some next)
    {pieces : List Bytes} (delivers : Delivers (session.pipe.toHost ++ undelivered) pieces fatal) :
    session.Pays next undelivered fatal (session.buffer.handover pieces ++ [.error fatal])
      pieces.length := by
  have awaits := awaits_readFrame session.buffer session.pipe.toHost
  simp only [read?, reading] at stepped
  simp only [Pays, handing, reading, ReaderState.held, List.length_nil]
  generalize readFrame session.buffer session.pipe.toHost = result at awaits stepped ⊢
  cases awaits with
  | found taken split found =>
      rw [split, List.append_assoc] at delivers
      obtain ⟨later, rfl, beyond⟩ := delivers.split
      simp only [reduceCtorEq, false_and, if_false, Option.some.injEq, take] at stepped
      subst stepped
      rw [FrameBuffer.handover_of_found later found]
      refine ⟨_, _, .more (by simp) beyond, rfl, ?_⟩
      simp only [ReaderState.held, List.length_append, List.length_cons, List.length_nil]
      omega
  | failed taken split failed =>
      rw [split, List.append_assoc] at delivers
      obtain ⟨later, rfl, beyond⟩ := delivers.split
      simp only [reduceCtorEq, false_and, if_false, Option.some.injEq, take,
        TransportError.isFatal, Bool.false_eq_true] at stepped
      subst stepped
      rw [FrameBuffer.handover_of_failed later failed]
      refine ⟨_, _, .more (by simp [report]) beyond, rfl, ?_⟩
      simp only [report, ReaderState.held, List.length_append, List.length_cons, List.length_nil]
      omega
  | ended taken split ends waits =>
      rw [split, List.append_assoc] at delivers
      obtain ⟨later, rfl, beyond⟩ := delivers.split
      obtain ⟨rfl, rfl⟩ := beyond.eq_of_ends ends
      have isFatal : TransportError.isFatal _ = true := Arrival.isFatal_of_ends ends
      simp only [reduceCtorEq, false_and, if_false, Option.some.injEq, take, isFatal,
        if_true] at stepped
      subst stepped
      rw [List.append_nil, FrameBuffer.handover_eq_nil waits]
      refine ⟨_, _, .nothing rfl, rfl, ?_⟩
      simp only [List.length_append, List.length_cons, List.length_nil]
      omega
  | pending taken split waits =>
      rw [split] at delivers stepped
      obtain ⟨later, rfl, beyond⟩ := delivers.split
      simp only [true_and, List.map_eq_nil_iff, take] at stepped
      split at stepped
      · cases stepped
      · rename_i arrived
        have positive := List.length_pos_iff.2 arrived
        obtain rfl := Option.some.inj stepped
        rw [FrameBuffer.handover_of_incomplete later waits]
        refine ⟨_, _, .more (by simp) beyond, rfl, ?_⟩
        simp only [ReaderState.held, List.length_append, List.length_cons, List.length_nil]
        omega

/-- A step of the reader hands over what is owed first. -/
theorem Owes.pays {owed : List Handed} {pieces : Nat}
    (owes : session.Owes undelivered fatal owed pieces) (running : session.isRunning = true)
    (stepped : session.read? = some next) :
    session.Pays next undelivered fatal owed pieces := by
  cases owes with
  | nothing stopped => simp [read?, stopped] at stepped
  | more going delivers =>
      cases reader : session.reader with
      | stopped => exact absurd reader going
      | holding frame => exact pays_of_holding reader running stepped delivers
      | reading => exact pays_of_reading reader stepped delivers

/-- What is owed does not depend on what the other activities do, nor on how
much of the stream has arrived. -/
theorem Owes.elsewhere {more : List Arrival} {owed : List Handed} {pieces : Nat}
    (owes : session.Owes (more ++ undelivered) fatal owed pieces)
    (elsewhere : session.Elsewhere more next) : next.Owes undelivered fatal owed pieces := by
  cases owes with
  | nothing stopped => exact .nothing (elsewhere.reader.trans stopped)
  | more going delivers =>
      rw [← List.append_assoc, ← elsewhere.toHost] at delivers
      rw [← elsewhere.reader] at going ⊢
      rw [← elsewhere.buffer]
      exact .more going delivers

theorem isRunning_of_read (stepped : session.read? = some next) :
    next.isRunning = session.isRunning := by
  rcases read?_cases stepped with ⟨frame, -, forwarded⟩ | ⟨-, buffer, pipe, reader, dispatcher, rfl⟩
  · rcases forward?_cases forwarded with ⟨-, rfl⟩ | ⟨-, -, rfl⟩ <;> rfl
  · rfl

/-- A step of the reader appends the frame that it hands over to the queue of
the engine, and reports the error that it hands over. -/
theorem inbound_and_dispatcher_of_read (running : session.isRunning = true)
    (stepped : session.read? = some next) :
    next.inbound = session.inbound ++ framesOf session.handing ∧
      next.dispatcher = (causesOf session.handing).foldl
        (fun dispatcher cause => dispatcher.report (.transport cause)) session.dispatcher := by
  cases reader : session.reader with
  | stopped => simp [read?, reader] at stepped
  | holding frame =>
      obtain ⟨room, rfl⟩ := forward_of_holding reader running stepped
      simp [handing, reader, room, framesOf, causesOf, Except.toOption]
  | reading =>
      simp only [read?, reader] at stepped
      simp only [handing, reader]
      generalize readFrame session.buffer session.pipe.toHost = result at stepped ⊢
      obtain ⟨outcome, rest, left⟩ := result
      split at stepped
      · cases stepped
      · obtain rfl := Option.some.inj stepped
        cases outcome with
        | frame frame => simp [take, framesOf, causesOf]
        | pending => simp [take, framesOf, causesOf]
        | error cause =>
            simp only [take]
            split <;> simp [report, framesOf, causesOf, Except.toOption]

end Paying

section Activities

variable {session next : Session}

theorem Elsewhere.trans {middle : Session} {arrived more : List Arrival}
    (first : session.Elsewhere arrived middle) (second : middle.Elsewhere more next) :
    session.Elsewhere (arrived ++ more) next where
  reader := second.reader.trans first.reader
  buffer := second.buffer.trans first.buffer
  toHost := by rw [second.toHost, first.toHost, List.append_assoc]
  running := second.running

/-- Something that the stream has no part in. -/
theorem elsewhere_of_same (reader : next.reader = session.reader)
    (buffer : next.buffer = session.buffer) (toHost : next.pipe.toHost = session.pipe.toHost)
    (running : next.isRunning = true) : session.Elsewhere [] next :=
  ⟨reader, buffer, by rw [toHost, List.append_nil], running⟩

theorem toHost_writeFrame {pipe later : Pipe} {frame : Frame}
    (written : pipe.writeFrame frame = .ok later) : later.toHost = pipe.toHost := by
  simp only [Pipe.writeFrame] at written
  split at written
  · cases written
  · simp only [Pipe.write] at written
    split at written
    · cases written
    · cases written
    · split at written
      · obtain rfl := Except.ok.inj written
        rfl
      · cases written

theorem isRunning_stop (session : Session) : session.stop.isRunning = false := by
  rw [stop, dropOutbound_scope]
  rfl

theorem isRunning_shutDown (session : Session) : session.shutDown.isRunning = false := by
  simp only [shutDown]
  split
  · exact isRunning_stop _
  · rename_i stopped
    exact Bool.eq_false_iff.2 stopped

theorem elsewhere_of_engineStep (stepped : session.engineStep? = some next)
    (running : next.isRunning = true) : session.Elsewhere [] next := by
  rcases Option.or_eq_some_iff.1 stepped with written | ⟨-, later⟩
  · obtain ⟨frame, transaction, -, ⟨pipe, done, rfl⟩ | ⟨cause, -, rfl⟩⟩ :=
      finishWrite?_cases written
    · exact elsewhere_of_same rfl rfl (toHost_writeFrame done) rfl
    · obtain ⟨ledger, dispatcher, failed⟩ :=
        failWrite_scope { session with engine := .idle } transaction cause
      rw [failed]
      exact elsewhere_of_same rfl rfl rfl rfl
  rcases Option.or_eq_some_iff.1 later with received | ⟨-, later⟩
  · obtain ⟨-, frame, rest, -, rfl⟩ := receive?_cases received
    obtain ⟨ledger, dispatcher, routed⟩ := route_scope { session with inbound := rest } frame
    rw [routed] at running ⊢
    exact elsewhere_of_same rfl rfl rfl running
  rcases Option.or_eq_some_iff.1 later with dequeued | ⟨-, halted⟩
  · obtain ⟨-, ⟨frame, call, rest, -, rfl⟩ | ⟨frame, rest, -, rfl⟩⟩ := dequeue?_cases dequeued
    · obtain ⟨ledger, engine, accepted, -⟩ :=
        accept_scope { session with outbound := rest } frame call
      rw [accepted] at running ⊢
      exact elsewhere_of_same rfl rfl rfl running
    · exact elsewhere_of_same rfl rfl rfl rfl
  · obtain ⟨-, rfl⟩ := halt?_eq_some_iff.1 halted
    simp [stop, dropOutbound_scope, isRunning] at running

theorem elsewhere_of_proceed (stepped : session.proceed? = some next)
    (running : next.isRunning = true) : session.Elsewhere [] next := by
  obtain ⟨number, -, found⟩ := List.exists_of_findSome?_eq_some stepped
  rcases Option.or_eq_some_iff.1 found with submitted | ⟨-, collected⟩
  · obtain ⟨outgoing, -, ⟨-, rfl⟩ | ⟨-, -, rfl⟩⟩ := submit?_cases submitted
    · exact elsewhere_of_same rfl rfl rfl running
    · exact elsewhere_of_same rfl rfl rfl running
  · obtain ⟨transaction, outcome, ledger, -, -, rfl⟩ := collect?_cases collected
    exact elsewhere_of_same rfl rfl rfl running

theorem elsewhere_of_timerStep (stepped : session.timerStep? = some next)
    (running : next.isRunning = true) : session.Elsewhere [] next := by
  simp only [timerStep?] at stepped
  split at stepped
  · obtain rfl := Option.some.inj stepped
    rw [foldl_fire_scope] at running ⊢
    exact elsewhere_of_same rfl rfl rfl running
  · cases stepped

theorem elsewhere_of_call (requests : List Request) (running : session.isRunning = true) :
    session.Elsewhere [] (requests.foldl call session) := by
  induction requests generalizing session with
  | nil => exact elsewhere_of_same rfl rfl rfl running
  | cons request requests ih =>
      have called : session.Elsewhere [] (session.call request) :=
        elsewhere_of_same rfl rfl rfl running
      exact called.trans (ih running)

theorem elsewhere_of_abandon (number : Nat) (running : session.isRunning = true) :
    session.Elsewhere [] (session.abandon number) := by
  obtain ⟨ledger, calls, left⟩ := session.abandon_scope number
  rw [left]
  exact elsewhere_of_same rfl rfl rfl running

theorem toHost_feed (pipe : Pipe) (bytes : Bytes) :
    ∃ arrived, (pipe.feed bytes).toHost = pipe.toHost ++ arrived := by
  simp only [Pipe.feed]
  split
  · exact ⟨_, rfl⟩
  · exact ⟨[], (List.append_nil _).symm⟩

theorem toHost_close (pipe : Pipe) : ∃ arrived, pipe.close.toHost = pipe.toHost ++ arrived := by
  simp only [Pipe.close]
  split
  · exact ⟨_, rfl⟩
  · exact ⟨[], (List.append_nil _).symm⟩

theorem elsewhere_of_apply (stimulus : Stimulus) (running : session.isRunning = true)
    (still : (session.apply stimulus).isRunning = true) :
    ∃ arrived, session.Elsewhere arrived (session.apply stimulus) := by
  cases stimulus with
  | calls requests => exact ⟨[], elsewhere_of_call requests running⟩
  | arrive bytes =>
      obtain ⟨arrived, toHost⟩ := toHost_feed session.pipe bytes
      exact ⟨arrived, rfl, rfl, toHost, running⟩
  | advance milliseconds => exact ⟨[], elsewhere_of_same rfl rfl rfl running⟩
  | setMode mode => exact ⟨[], elsewhere_of_same rfl rfl rfl running⟩
  | abandon number => exact ⟨[], elsewhere_of_abandon number running⟩
  | shutDown incoming =>
      exact absurd still (Bool.eq_false_iff.1 (isRunning_shutDown _))
  | release incoming =>
      exact absurd still (Bool.eq_false_iff.1 (isRunning_shutDown _))
  | hangUp =>
      obtain ⟨arrived, toHost⟩ := toHost_close session.pipe
      exact ⟨arrived, rfl, rfl, toHost, running⟩
  | dropReceivers => exact ⟨[], elsewhere_of_same rfl rfl rfl running⟩
  | idle => exact ⟨[], elsewhere_of_same rfl rfl rfl running⟩

/-- As long as the engine has not stopped, what a session does is a run of the
reader and of things that happen elsewhere. -/
theorem exists_reads {first : Session} (running : first.isRunning = true)
    (evolved : Relation.ReflTransGen
      (fun session next => Evolves session next ∧ next.isRunning = true) first session) :
    ∃ arrived steps handed, first.Reads arrived steps handed session := by
  suffices goal : session.isRunning = true ∧
      ∃ arrived steps handed, first.Reads arrived steps handed session from goal.2
  induction evolved with
  | refl => exact ⟨running, [], 0, [], .start⟩
  | tail _ evolves ih =>
      obtain ⟨before, arrived, steps, handed, earlier⟩ := ih
      obtain ⟨evolves, after⟩ := evolves
      refine ⟨after, ?_⟩
      cases evolves with
      | step activity stepped =>
          cases activity with
          | timers =>
              exact ⟨_, _, _, earlier.elsewhere (elsewhere_of_timerStep stepped after)⟩
          | callers =>
              exact ⟨_, _, _, earlier.elsewhere (elsewhere_of_proceed stepped after)⟩
          | reader => exact ⟨_, _, _, earlier.read stepped⟩
          | engine =>
              exact ⟨_, _, _, earlier.elsewhere (elsewhere_of_engineStep stepped after)⟩
      | apply stimulus =>
          obtain ⟨more, elsewhere⟩ := elsewhere_of_apply stimulus before after
          exact ⟨_, _, _, earlier.elsewhere elsewhere⟩

end Activities

section Runs

variable {first session : Session} {arrived undelivered : List Arrival} {steps : Nat}
variable {handed : List Handed} {chunks : List Bytes} {fatal : TransportError}

theorem Reads.owes (fresh : first.buffer = {}) (reading : first.reader = .reading)
    (running : first.isRunning = true)
    (delivers : Delivers (first.pipe.toHost ++ arrived ++ undelivered) chunks fatal)
    (reads : first.Reads arrived steps handed session) :
    session.isRunning = true ∧
      ∃ owed pieces, session.Owes undelivered fatal owed pieces ∧
        FrameBuffer.handover {} chunks ++ [.error fatal] = handed ++ owed ∧
        steps + (2 * owed.length + pieces) ≤
          2 * (handed ++ owed).length + chunks.length + session.reader.held.length := by
  -- What has been handed over and what is owed are together always the same.
  induction reads generalizing undelivered with
  | start =>
      rw [List.append_nil] at delivers
      refine ⟨running, _, _, .more (by simp [reading]) delivers, ?_, ?_⟩
      · rw [reading, fresh]
        rfl
      · simp only [reading, ReaderState.held, List.length_append, List.length_nil]
        omega
  | @read arrived steps handed session next earlier stepped ih =>
      obtain ⟨running, owed, pieces, owes, whole, few⟩ := ih delivers
      obtain ⟨later, fewer, owesLater, rfl, closer⟩ := owes.pays running stepped
      refine ⟨(isRunning_of_read stepped).trans running, later, fewer, owesLater, ?_, ?_⟩
      · rw [whole, List.append_assoc]
      · simp only [List.length_append] at few closer ⊢
        omega
  | @elsewhere arrived more steps handed session next earlier elsewhere ih =>
      rw [← List.append_assoc, List.append_assoc _ more] at delivers
      obtain ⟨-, owed, pieces, owes, whole, few⟩ := ih delivers
      refine ⟨elsewhere.running, owed, pieces, owes.elsewhere elsewhere, whole, ?_⟩
      rw [elsewhere.reader]
      exact few

/-- A reader that cannot take a step has stopped, or it waits for the engine to
make room, or the end of the stream has not arrived. -/
theorem Owes.waits {owed : List Handed} {pieces : Nat}
    (owes : session.Owes undelivered fatal owed pieces) (running : session.isRunning = true)
    (stuck : session.read? = none) :
    session.reader = .stopped ∨
      (∃ frame, session.reader = .holding frame ∧
        session.queueLimit ≤ session.inbound.length) ∨
      ∃ pieces, Delivers undelivered pieces fatal := by
  cases owes with
  | nothing stopped => exact .inl stopped
  | more going delivers =>
      cases reader : session.reader with
      | stopped => exact .inl rfl
      | holding frame =>
          simp only [read?, reader, forward?, running, Bool.not_true, Bool.false_eq_true,
            if_false] at stuck
          split at stuck
          · cases stuck
          · rename_i full
            exact .inr (.inl ⟨frame, rfl, Nat.le_of_not_lt full⟩)
      | reading =>
          simp only [read?, reader] at stuck
          split at stuck
          · rename_i waits
            rw [waits.2] at delivers
            exact .inr (.inr ⟨_, delivers⟩)
          · cases stuck

/-- However the stream is cut and whatever happens in between, the reader hands
over what a frame buffer that is fed the whole stream at once finds, in this
order, and then the error with which the stream has ended.  After that it has
stopped.  Before, it can go on unless the engine has no room or the end of the
stream has not arrived, and it needs a bounded number of steps. -/
theorem reads_whole_stream (fresh : first.buffer = {}) (reading : first.reader = .reading)
    (running : first.isRunning = true)
    (delivers : Delivers (first.pipe.toHost ++ arrived ++ undelivered) chunks fatal)
    (reads : first.Reads arrived steps handed session) :
    let found := (FrameBuffer.feed {} chunks.flatten).drain.1.flatMap FrameBuffer.handedFor
    handed <+: found ++ [.error fatal] ∧
      (session.reader = .stopped ↔ handed = found ++ [.error fatal]) ∧
      steps ≤ 2 * (found.length + 1) + chunks.length ∧
      (session.read? = none → session.reader = .stopped ∨
        (∃ frame, session.reader = .holding frame ∧
          session.queueLimit ≤ session.inbound.length) ∨
        ∃ pieces, Delivers undelivered pieces fatal) ∧
      ∀ next, session.read? = some next →
        next.inbound = session.inbound ++ framesOf session.handing ∧
          next.dispatcher = (causesOf session.handing).foldl
            (fun dispatcher cause => dispatcher.report (.transport cause))
            session.dispatcher := by
  intro found
  obtain ⟨stillRunning, owed, pieces, owes, whole, few⟩ :=
    reads.owes fresh reading running delivers
  change found ++ [.error fatal] = handed ++ owed at whole
  have total := congrArg List.length whole
  refine ⟨⟨owed, whole.symm⟩, ?_, ?_, owes.waits stillRunning,
    fun next stepped => inbound_and_dispatcher_of_read stillRunning stepped⟩
  · cases owes with
    | nothing stopped => simp [stopped, whole]
    | more going delivers => simp [going, whole]
  · simp only [List.length_append, List.length_singleton] at total few
    cases owes with
    | nothing stopped =>
        simp only [stopped, ReaderState.held, List.length_nil] at few total
        omega
    | more going delivers =>
        simp only [List.length_append, List.length_singleton] at few total
        omega

/-- A stream in three pieces, of which two arrive later: a candidate with a wrong
check byte, and a frame that begins in the first piece and ends in the last. -/
theorem reads_whole_stream_of_three_pieces :
    let chunks : List Bytes :=
      [[0xfe, 0x00, 0x61, 0x01, 0x00, 0xfe], [0x00, 0x61], [0x01, 0x60, 0xfe]]
    let first : Session :=
      { start {} {} with pipe := { toHost := [.data [0xfe, 0x00, 0x61, 0x01, 0x00, 0xfe]] } }
    let arrived : List Arrival := [.data [0x00, 0x61], .data [0x01, 0x60, 0xfe], .ended]
    let handed : List Handed :=
      [.error (.frame (.checksum 0x60 0x00)), .ok ⟨.syncResponse, .system, 1, []⟩,
        .error .closed]
    Delivers (first.pipe.toHost ++ arrived ++ []) chunks .closed ∧
      ∃ session, first.Reads arrived 4 handed session ∧ session.reader = .stopped ∧
        session.inbound = [⟨.syncResponse, .system, 1, []⟩] := by
  intro chunks first arrived handed
  have delivers : Delivers (first.pipe.toHost ++ arrived ++ []) chunks .closed :=
    ⟨.ended, [], rfl, rfl⟩
  let reported := first.read?.getD first
  let waiting := { reported with pipe := { reported.pipe with toHost := arrived } }
  let holding := waiting.read?.getD waiting
  let passed := holding.read?.getD holding
  let stopped := passed.read?.getD passed
  have afterError : first.Reads [] 1 [handed[0]] reported := .read .start rfl
  have afterWait : first.Reads arrived 1 [handed[0]] waiting :=
    afterError.elsewhere ⟨rfl, rfl, rfl, rfl⟩
  have afterFrame : first.Reads arrived 2 [handed[0]] holding := afterWait.read rfl
  have afterForward : first.Reads arrived 3 [handed[0], handed[1]] passed := afterFrame.read rfl
  have afterEnd : first.Reads arrived 4 handed stopped := afterForward.read rfl
  have found : (FrameBuffer.feed {} chunks.flatten).drain.1 =
      [.error (.checksum 0x60 0x00), .ok (some ⟨.syncResponse, .system, 1, []⟩)] := by
    rw [FrameBuffer.drain_of_something (by decide), FrameBuffer.drain_of_something (by decide),
      FrameBuffer.drain_of_nothing (by decide)]
    rfl
  refine ⟨delivers, stopped, afterEnd, ?_, rfl⟩
  refine (reads_whole_stream rfl rfl rfl delivers afterEnd).2.1.2 ?_
  rw [found]
  rfl

end Runs

end Session

end ZigbeeHost
