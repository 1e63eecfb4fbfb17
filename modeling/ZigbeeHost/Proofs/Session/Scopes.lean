import ZigbeeHost.Session.Run

/-!
# What each step of a session can do

A session is one record, and each of its functions changes a few parts of it.
The lemmas below write the outcome of a function as the session before it with
these parts replaced, so that all the others are known to stay.  For each step
that is not always possible there is one lemma that says when it is, and what
it does.
-/

namespace ZigbeeHost.Session

variable (session : Session)

theorem call_of_known {request : Request} {number : Nat} {state : CallState}
    (known : session.calls[number]? = some state) :
    (session.call request).calls[number]? = some state := by
  have inside := (List.getElem?_eq_some_iff.1 known).1
  rw [call, List.getElem?_append_left inside, known]

theorem call_latest (request : Request) :
    (session.call request).calls[session.calls.length]? =
      some (firstState request session.calls.length) :=
  List.getElem?_concat_length

/-- A call has been known before, or it is the latest one. -/
theorem call_cases {request : Request} {number : Nat} {state : CallState}
    (known : (session.call request).calls[number]? = some state) :
    session.calls[number]? = some state ∨
      number = session.calls.length ∧ state = firstState request number := by
  rw [call, List.getElem?_append] at known
  split at known
  · exact .inl known
  · rename_i beyond
    obtain ⟨inside, same⟩ := List.getElem?_eq_some_iff.1 known
    have last : number = session.calls.length := by
      rw [List.length_singleton] at inside
      omega
    subst last
    exact .inr ⟨rfl, by simpa using same.symm⟩

theorem settleKey_scope (key : CommandKey) (outcome : Outcome) (frame : Frame) :
    ∃ ledger dispatcher,
      session.settleKey key outcome frame = { session with ledger, dispatcher } := by
  simp only [settleKey]
  split
  · exact ⟨_, _, rfl⟩
  · exact ⟨_, _, rfl⟩

theorem route_scope (frame : Frame) :
    ∃ ledger dispatcher, session.route frame = { session with ledger, dispatcher } := by
  simp only [route]
  split
  · split
    · simp only [routeDeviceError]
      split
      · exact ⟨_, _, rfl⟩
      · exact session.settleKey_scope _ _ frame
    · exact session.settleKey_scope _ _ frame
  · simp only [routeIndication]
    split <;> exact ⟨_, _, rfl⟩
  · exact ⟨_, _, rfl⟩

theorem failWrite_scope (transaction : Option Nat) (cause : TransportError) :
    ∃ ledger dispatcher,
      session.failWrite transaction cause = { session with ledger, dispatcher } := by
  simp only [failWrite]
  split
  · exact ⟨_, _, rfl⟩
  · split
    · exact ⟨_, _, rfl⟩
    · split <;> exact ⟨_, _, rfl⟩

/-- A timer that takes both of its steps leaves nothing overdue behind. -/
theorem fire_scope (timer : Nat) :
    session.fire timer = { session with ledger := session.ledger.fire timer } := by
  obtain ⟨removed, ledger, woken⟩ : ∃ removed ledger,
      session.ledger.wake timer = (removed, ledger) := ⟨_, _, rfl⟩
  cases removed with
  | none => simp only [fire, goOff, Ledger.fire, woken, Option.toList_none, List.nil_append]
  | some number =>
      simp only [fire, goOff, giveUp, Ledger.fire, woken, Option.toList_some,
        List.singleton_append, List.mem_cons_self, if_true, List.erase_cons_head]

theorem foldl_fire_scope (timers : List Nat) :
    timers.foldl fire session =
      { session with ledger := timers.foldl Ledger.fire session.ledger } := by
  induction timers generalizing session with
  | nil => rfl
  | cons timer timers ih => rw [List.foldl_cons, fire_scope, ih, List.foldl_cons]

/-- What becomes of the calls when a transaction has been created for one. -/
def connectedCalls (call transaction : Nat) : List CallState :=
  match session.calls[call]? with
  | some .queued => session.calls.set call (.awaiting transaction)
  | _ => session.calls

/-- A call stays as it is, or it is the one that has waited in the queue. -/
theorem connectedCalls_cases (call transaction number : Nat) :
    (session.connectedCalls call transaction)[number]? = session.calls[number]? ∨
      (number = call ∧ session.calls[number]? = some .queued ∧
        (session.connectedCalls call transaction)[number]? = some (.awaiting transaction)) := by
  simp only [connectedCalls]
  split
  · rename_i queued
    by_cases same : call = number
    · subst same
      have inside := (List.getElem?_eq_some_iff.1 queued).1
      exact .inr ⟨rfl, queued, List.getElem?_set_self inside⟩
    · exact .inl (List.getElem?_set_ne same)
  · exact .inl rfl

/-- Calls that do not wait in the queue are not concerned. -/
theorem connectedCalls_of_not_queued {number : Nat} (call transaction : Nat)
    (other : session.calls[number]? ≠ some .queued) :
    (session.connectedCalls call transaction)[number]? = session.calls[number]? :=
  (session.connectedCalls_cases call transaction number).resolve_right fun connected =>
    other connected.2.1

theorem connectCall_scope (call transaction : Nat) :
    ∃ ledger, session.connectCall call transaction =
      { session with ledger, calls := session.connectedCalls call transaction } := by
  cases known : session.calls[call]? with
  | none => simp only [connectCall, connectedCalls, known]; exact ⟨_, rfl⟩
  | some state =>
      cases state <;> simp only [connectCall, connectedCalls, known] <;> exact ⟨_, rfl⟩

/-- Taking a request up does not stop the engine. -/
theorem accept_scope (frame : Frame) (call : Nat) :
    ∃ ledger engine, session.accept frame call =
        { session with
          ledger, engine
          calls := session.connectedCalls call session.ledger.transactions.length } ∧
      (session.engine ≠ .stopped → engine ≠ .stopped) := by
  obtain ⟨ledger, connected⟩ := connectCall_scope
    { session with ledger := (session.ledger.create frame.key session.config.limit).2 } call
    session.ledger.transactions.length
  have number : (session.ledger.create frame.key session.config.limit).1 =
      session.ledger.transactions.length := rfl
  simp only [accept, number, connected]
  split
  · exact ⟨_, _, rfl, id⟩
  · exact ⟨_, _, rfl, fun _ => nofun⟩

/-- What becomes of the calls when a frame that waits in the queue is dropped. -/
def droppedCalls (calls : List CallState) : Outgoing → List CallState
  | .answered _ call =>
      match calls[call]? with
      | some .queued => calls.set call (.finished (.error .cancelled))
      | _ => calls
  | .unanswered _ => calls

theorem dropOutbound_scope :
    session.dropOutbound =
      { session with outbound := [], calls := session.outbound.foldl droppedCalls session.calls } := by
  simp only [dropOutbound]
  -- The session changes with each frame, but its queue is the same until the end.
  generalize session.outbound = queue
  induction queue generalizing session with
  | nil => rfl
  | cons outgoing queue ih =>
      simp only [List.foldl_cons]
      cases outgoing with
      | unanswered frame => exact ih session
      | answered frame call =>
          simp only [droppedCalls]
          cases known : session.calls[call]? with
          | none => exact ih session
          | some state =>
              cases state with
              | queued => exact ih (session.setCall call (.finished (.error .cancelled)))
              | _ => exact ih session

variable {calls : List CallState} {number : Nat}

/-- A call stays as it is, or it has waited in the queue and ends as cancelled. -/
theorem droppedCalls_cases (calls : List CallState) (outgoing : Outgoing) (number : Nat) :
    (droppedCalls calls outgoing)[number]? = calls[number]? ∨
      (calls[number]? = some .queued ∧
        (droppedCalls calls outgoing)[number]? = some (.finished (.error .cancelled))) := by
  cases outgoing with
  | unanswered frame => exact .inl rfl
  | answered frame call =>
      simp only [droppedCalls]
      split
      · rename_i queued
        by_cases same : call = number
        · subst same
          have inside := (List.getElem?_eq_some_iff.1 queued).1
          exact .inr ⟨queued, List.getElem?_set_self inside⟩
        · exact .inl (List.getElem?_set_ne same)
      · exact .inl rfl

/-- Calls that do not wait in the queue are not concerned when it is dropped. -/
theorem foldl_droppedCalls_of_not_queued (queue : List Outgoing)
    (other : calls[number]? ≠ some CallState.queued) :
    (queue.foldl droppedCalls calls)[number]? = calls[number]? := by
  induction queue generalizing calls with
  | nil => rfl
  | cons outgoing queue ih =>
      rcases droppedCalls_cases calls outgoing number with same | ⟨queued, -⟩
      · rw [List.foldl_cons, ih (same ▸ other), same]
      · exact absurd queued other

/-- No other call ends when the queue is dropped. -/
theorem foldl_droppedCalls_cases (queue : List Outgoing) (calls : List CallState) (number : Nat) :
    (queue.foldl droppedCalls calls)[number]? = calls[number]? ∨
      (calls[number]? = some .queued ∧
        (queue.foldl droppedCalls calls)[number]? = some (.finished (.error .cancelled))) := by
  induction queue generalizing calls with
  | nil => exact .inl rfl
  | cons outgoing queue ih =>
      rw [List.foldl_cons]
      rcases droppedCalls_cases calls outgoing number with same | ⟨queued, cancelled⟩
      · rw [← same]
        exact ih (droppedCalls calls outgoing)
      · rw [foldl_droppedCalls_of_not_queued queue (by simp [cancelled]), cancelled]
        exact .inr ⟨queued, rfl⟩

/-- Calls that wait in the queue end as cancelled when it is dropped. -/
theorem foldl_droppedCalls_of_queued {queue : List Outgoing} {frame : Frame}
    (queued : calls[number]? = some .queued) (inside : .answered frame number ∈ queue) :
    (queue.foldl droppedCalls calls)[number]? = some (.finished (.error .cancelled)) := by
  induction queue generalizing calls with
  | nil => cases inside
  | cons outgoing queue ih =>
      rw [List.foldl_cons]
      rcases droppedCalls_cases calls outgoing number with same | ⟨-, cancelled⟩
      · rcases List.mem_cons.1 inside with rfl | later
        · simp only [droppedCalls, queued] at same
          rw [List.getElem?_set_self (List.getElem?_eq_some_iff.1 queued).1] at same
          cases same
        · exact ih (same.trans queued) later
      · rw [foldl_droppedCalls_of_not_queued queue (by simp [cancelled]), cancelled]

section Steps

variable {session next : Session}

theorem submit?_cases {number : Nat} (stepped : session.submit? number = some next) :
    ∃ outgoing, session.calls[number]? = some (.submitting outgoing) ∧
      ((session.isRunning = false ∧
          next = session.setCall number (.finished (.error .notConnected))) ∨
        (session.isRunning = true ∧ session.outbound.length < session.queueLimit ∧
          next = { session with
            outbound := session.outbound ++ [outgoing]
            calls := session.calls.set number (queuedState outgoing) })) := by
  simp only [submit?] at stepped
  split at stepped
  · rename_i outgoing submitting
    refine ⟨outgoing, submitting, ?_⟩
    cases running : session.isRunning with
    | false =>
        simp only [running, Bool.not_false, if_true, Option.some.injEq] at stepped
        exact .inl ⟨rfl, stepped.symm⟩
    | true =>
        simp only [running, Bool.not_true, Bool.false_eq_true, if_false] at stepped
        split at stepped
        · rename_i room
          exact .inr ⟨rfl, room, (Option.some.inj stepped).symm⟩
        · cases stepped
  · cases stepped

theorem collect?_cases {number : Nat} (stepped : session.collect? number = some next) :
    ∃ transaction outcome ledger, session.calls[number]? = some (.awaiting transaction) ∧
      session.ledger.takeReply transaction = (some outcome, ledger) ∧
        next = { session with
          ledger
          calls := session.calls.set number (.finished outcome) } := by
  simp only [collect?] at stepped
  split at stepped
  · rename_i transaction awaiting
    split at stepped
    · rename_i outcome ledger taken
      exact ⟨transaction, outcome, ledger, awaiting, taken, (Option.some.inj stepped).symm⟩
    · cases stepped
  · cases stepped

/-- The caller of a frame that has not been answered goes away, or nothing
happens. -/
theorem abandon_cases (session : Session) (number : Nat) :
    session.abandon number = session ∨
      ((∃ outgoing, session.calls[number]? = some (.submitting outgoing)) ∨
          session.calls[number]? = some .queued) ∧
        session.abandon number = session.setCall number .abandoned ∨
      ∃ transaction, session.calls[number]? = some (.awaiting transaction) ∧
        session.abandon number = { session with
          ledger := session.ledger.dropReply transaction
          calls := session.calls.set number .abandoned } := by
  simp only [abandon]
  split
  · rename_i outgoing submitting
    exact .inr (.inl ⟨.inl ⟨outgoing, submitting⟩, rfl⟩)
  · rename_i queued
    exact .inr (.inl ⟨.inr queued, rfl⟩)
  · rename_i transaction awaiting
    exact .inr (.inr ⟨transaction, awaiting, rfl⟩)
  · exact .inl rfl

theorem abandon_scope (session : Session) (number : Nat) :
    ∃ ledger calls, session.abandon number = { session with ledger, calls } := by
  rcases session.abandon_cases number with same | ⟨-, left⟩ | ⟨transaction, -, left⟩
  · exact ⟨_, _, same⟩
  · exact ⟨_, _, left⟩
  · exact ⟨_, _, left⟩

theorem forward?_cases {frame : Frame} (stepped : session.forward? frame = some next) :
    (session.isRunning = false ∧ next = { session with reader := .stopped }) ∨
      (session.isRunning = true ∧ session.inbound.length < session.queueLimit ∧
        next = { session with reader := .reading, inbound := session.inbound ++ [frame] }) := by
  cases running : session.isRunning with
  | false =>
      simp only [forward?, running, Bool.not_false, if_true, Option.some.injEq] at stepped
      exact .inl ⟨rfl, stepped.symm⟩
  | true =>
      simp only [forward?, running, Bool.not_true, Bool.false_eq_true, if_false] at stepped
      split at stepped
      · rename_i room
        exact .inr ⟨rfl, room, (Option.some.inj stepped).symm⟩
      · cases stepped

/-- The reader passes a frame on, or it looks for one and leaves the queues
alone. -/
theorem read?_cases (stepped : session.read? = some next) :
    (∃ frame, session.reader = .holding frame ∧ session.forward? frame = some next) ∨
      (session.reader = .reading ∧ ∃ buffer pipe reader dispatcher,
        next = { session with buffer, pipe, reader, dispatcher }) := by
  simp only [read?] at stepped
  split at stepped
  · cases stepped
  · rename_i frame holding
    exact .inl ⟨frame, holding, stepped⟩
  · rename_i reading
    split at stepped
    · cases stepped
    · obtain rfl := Option.some.inj stepped
      refine .inr ⟨reading, ?_⟩
      simp only [take]
      split
      · exact ⟨_, _, _, _, rfl⟩
      · split <;> exact ⟨_, _, _, _, rfl⟩
      · exact ⟨_, _, _, _, rfl⟩

theorem receive?_cases (stepped : session.receive? = some next) :
    session.engine = .idle ∧ ∃ frame rest, session.inbound = frame :: rest ∧
      next = { session with inbound := rest }.route frame := by
  simp only [receive?] at stepped
  split at stepped
  · rename_i frame rest idle inbound
    exact ⟨idle, frame, rest, inbound, (Option.some.inj stepped).symm⟩
  · cases stepped

theorem dequeue?_cases (stepped : session.dequeue? = some next) :
    session.engine = .idle ∧
      ((∃ frame call rest, session.outbound = .answered frame call :: rest ∧
          next = { session with outbound := rest }.accept frame call) ∨
        ∃ frame rest, session.outbound = .unanswered frame :: rest ∧
          next = { session with outbound := rest, engine := .writing frame none }) := by
  simp only [dequeue?] at stepped
  split at stepped
  · rename_i frame call rest idle outbound
    exact ⟨idle, .inl ⟨frame, call, rest, outbound, (Option.some.inj stepped).symm⟩⟩
  · rename_i frame rest idle outbound
    exact ⟨idle, .inr ⟨frame, rest, outbound, (Option.some.inj stepped).symm⟩⟩
  · cases stepped

theorem finishWrite?_cases (stepped : session.finishWrite? = some next) :
    ∃ frame transaction, session.engine = .writing frame transaction ∧
      ((∃ pipe, session.pipe.writeFrame frame = .ok pipe ∧
          next = { session with engine := .idle, pipe }) ∨
        ∃ cause, session.pipe.writeFrame frame = .error cause ∧
          next = { session with engine := .idle }.failWrite transaction cause) := by
  simp only [finishWrite?] at stepped
  split at stepped
  · rename_i frame transaction writing
    refine ⟨frame, transaction, writing, ?_⟩
    split at stepped
    · rename_i pipe written
      exact .inl ⟨pipe, written, (Option.some.inj stepped).symm⟩
    · rename_i cause failed
      exact .inr ⟨cause, failed, (Option.some.inj stepped).symm⟩
  · cases stepped

/-- The engine may stop: it has nothing to write, and it has been asked to stop
or no frame can arrive any more. -/
structure MayHalt (session : Session) : Prop where
  idle : session.engine = .idle
  cause : session.stopRequested = true ∨ (session.reader = .stopped ∧ session.inbound = [])

theorem halt?_eq_some_iff : session.halt? = some next ↔ session.MayHalt ∧ next = session.stop := by
  constructor
  · intro stepped
    simp only [halt?] at stepped
    split at stepped
    · rename_i idle stopped
      split at stepped
      · rename_i cause
        have ended := (Option.some.inj stepped).symm
        exact ⟨⟨idle, cause.imp id fun empty => ⟨stopped, empty⟩⟩, ended⟩
      · cases stepped
    · rename_i idle _
      split at stepped
      · rename_i requested
        exact ⟨⟨idle, .inl requested⟩, (Option.some.inj stepped).symm⟩
      · cases stepped
    · cases stepped
  · rintro ⟨⟨idle, requested | ⟨stopped, empty⟩⟩, rfl⟩
    · cases reader : session.reader <;> simp [halt?, idle, reader, requested]
    · simp [halt?, idle, stopped, empty]

end Steps

end ZigbeeHost.Session
