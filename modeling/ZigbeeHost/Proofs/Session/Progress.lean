import ZigbeeHost.Proofs.Session.Queueing
import ZigbeeHost.Proofs.Transaction.Cancellation

/-!
# What a turn does to calls and transactions

There are few ways in which a turn can change the calls and the ledger, and
`Course.Effect` lists them.  Only the engine begins transactions, one for each
request that it takes up, and only the engine that leaves cancels them.  A call
that has ended, or whose caller has gone away, is never changed again.
-/

namespace ZigbeeHost

/-- The outcome of a call is known, or its caller has gone away. -/
def CallState.Ended : CallState → Prop
  | .finished _ | .collected | .abandoned => True
  | _ => False

namespace Ledger

/-- A transaction begins, and it has not been cancelled. -/
structure Begins (ledger : Ledger) (latest : Transaction) (next : Ledger) : Prop where
  added : next.transactions = ledger.transactions ++ [latest]
  state : latest.state ≠ .cancelled

namespace Begins

variable {ledger next : Ledger} {latest : Transaction}

theorem keys (begins : ledger.Begins latest next) : next.keys = ledger.keys ++ [latest.key] := by
  rw [Ledger.keys, begins.added, List.map_append, List.map_singleton, Ledger.keys]

theorem cancelled (begins : ledger.Begins latest next) (number : Nat)
    (cancelled : next.stateOf number = some .cancelled) :
    ledger.stateOf number = some .cancelled := by
  obtain ⟨transaction, known, same⟩ := exists_of_look cancelled
  rw [begins.added, List.getElem?_append] at known
  split at known
  · rw [stateOf_of_known known, same]
  · obtain rfl := List.mem_singleton.1 (List.mem_of_getElem? known)
    exact absurd same begins.state

theorem replyOf_latest (begins : ledger.Begins latest next) :
    next.replyOf ledger.transactions.length = some latest.reply := by
  refine replyOf_of_known ?_
  rw [begins.added]
  exact List.getElem?_concat_length

theorem claimable (begins : ledger.Begins latest next) {number : Nat}
    (claimable : ledger.Claimable number) : next.Claimable number := by
  obtain ⟨reply, replied, unspent⟩ := claimable
  obtain ⟨transaction, known, same⟩ := exists_of_look replied
  have inside := (List.getElem?_eq_some_iff.1 known).1
  have still : next.transactions[number]? = some transaction := by
    rw [begins.added, List.getElem?_append_left inside, known]
  exact ⟨reply, by rw [replyOf_of_known still, same], unspent⟩

end Begins

end Ledger

namespace Session

variable (session : Session)

theorem proceeds_settleKey (key : CommandKey) {outcome : Outcome}
    (other : TransactionState.ofOutcome outcome ≠ .cancelled) (frame : Frame) :
    session.ledger.Proceeds (session.settleKey key outcome frame).ledger := by
  cases found : session.ledger.find? key with
  | none =>
      rw [settleKey_of_free found]
      exact .refl session.ledger
  | some number =>
      rw [settleKey_of_waiting found]
      have removed : session.ledger.Proceeds (session.ledger.remove key) := .of_transactions rfl
      exact removed.trans (Ledger.proceeds_resolve _ number other)

theorem proceeds_route (frame : Frame) :
    session.ledger.Proceeds (session.route frame).ledger := by
  simp only [route]
  split
  · split
    · simp only [routeDeviceError]
      split
      · exact .refl session.ledger
      · exact session.proceeds_settleKey _ (by simp [TransactionState.ofOutcome]) frame
    · exact session.proceeds_settleKey _ (by simp [TransactionState.ofOutcome]) frame
  · simp only [routeIndication]
    split <;> exact .refl session.ledger
  · exact .refl session.ledger

theorem proceeds_failWrite (transaction : Option Nat) (cause : TransportError) :
    session.ledger.Proceeds (session.failWrite transaction cause).ledger := by
  simp only [failWrite]
  split
  · exact .refl session.ledger
  · rename_i number
    split
    · exact .refl session.ledger
    · rename_i entry known
      split
      · rename_i expired ledger removed
        have same : session.ledger.Proceeds ledger :=
          .of_transactions (Ledger.expire_eq_some removed).2
        exact same.trans (ledger.proceeds_resolve expired (by simp [TransactionState.ofOutcome]))
      · exact .refl session.ledger

theorem proceeds_giveUp (number : Nat) :
    session.ledger.Proceeds (session.giveUp number).ledger := by
  simp only [giveUp]
  split
  · exact session.ledger.proceeds_timeOut number
  · exact .refl session.ledger

/-- A request that is taken up begins a transaction under its key.  Its outcome
will be there for a caller who waits. -/
theorem begins_accept (frame : Frame) (call : Nat) :
    ∃ latest, session.ledger.Begins latest (session.accept frame call).ledger ∧
      latest.key = frame.key ∧
        (session.calls[call]? = some .queued →
          latest.reply ≠ .taken ∧ latest.reply ≠ .dropped) := by
  have reply := session.newcomer_reply_of_queued frame call
  cases found : session.ledger.find? frame.key with
  | none =>
      obtain ⟨calls, accepted, -⟩ := session.accept_of_free frame call found
      rw [accepted]
      exact ⟨_, ⟨rfl, nofun⟩, rfl, fun queued => by simp [reply queued]⟩
  | some earlier =>
      obtain ⟨calls, refused, -⟩ := session.accept_of_waiting frame call found
      rw [refused]
      exact ⟨_, ⟨rfl, nofun⟩, rfl,
        fun queued => by simp [Transaction.settle, Reply.deliver, reply queued]⟩

/-- What becomes of a call that queues its frame. -/
def submitted (outgoing : Outgoing) : CallState :=
  if session.isRunning then queuedState outgoing else .finished (.error .notConnected)

end Session

namespace Course

/-- The request with a response that the engine takes up in a turn, and the
number of its call. -/
def takenUp (course : Course) : Turn → List (Frame × Nat)
  | .dequeue =>
      if course.phase = .serving ∧ course.session.dequeue?.isSome then
        match course.session.outbound with
        | .answered frame call :: _ => [(frame, call)]
        | _ => []
      else []
  | _ => []

/-- The requests with responses that the engine takes up, in this order. -/
def requests (course : Course) : List Turn → List (Frame × Nat)
  | [] => []
  | turn :: turns => course.takenUp turn ++ (course.step turn).requests turns

theorem requests_eq_along (course : Course) (turns : List Turn) :
    course.requests turns = course.along takenUp turns := by
  induction turns generalizing course with
  | nil => rfl
  | cons turn turns ih => rw [requests, along, ih]

theorem requests_append (course : Course) (earlier later : List Turn) :
    course.requests (earlier ++ later) =
      course.requests earlier ++ (course.run earlier).requests later := by
  simp only [requests_eq_along, along_append]

/-- What a turn does to the calls and to the ledger. -/
inductive Effect (course : Course) (turn : Turn) : Prop
  /-- The callers do nothing, and no transaction begins or is cancelled. -/
  | proceeds (nobody : course.takenUp turn = [])
      (calls : (course.step turn).session.calls = course.session.calls)
      (ledger : course.session.ledger.Proceeds (course.step turn).session.ledger)
  | asks (request : Request) (same : turn = .call request)
  | submits (number : Nat) (outgoing : Outgoing) (same : turn = .submit number)
      (known : course.session.calls[number]? = some (.submitting outgoing))
      (calls : (course.step turn).session.calls =
        course.session.calls.set number (course.session.submitted outgoing))
      (ledger : (course.step turn).session.ledger = course.session.ledger)
  /-- The caller of a frame that the engine has not seen goes away. -/
  | withdraws (number : Nat) (before : CallState) (same : turn = .abandon number)
      (known : course.session.calls[number]? = some before)
      (early : (∃ outgoing, before = .submitting outgoing) ∨ before = .queued)
      (calls : (course.step turn).session.calls = course.session.calls.set number .abandoned)
      (ledger : (course.step turn).session.ledger = course.session.ledger)
  /-- The caller of a transaction goes away. -/
  | leaves (number transaction : Nat) (same : turn = .abandon number)
      (known : course.session.calls[number]? = some (.awaiting transaction))
      (calls : (course.step turn).session.calls = course.session.calls.set number .abandoned)
      (ledger : (course.step turn).session.ledger = course.session.ledger.dropReply transaction)
  | collects (number transaction : Nat) (outcome : Outcome) (same : turn = .collect number)
      (known : course.session.calls[number]? = some (.awaiting transaction))
      (delivered : course.session.ledger.replyOf transaction = some (.delivered outcome))
      (calls : (course.step turn).session.calls =
        course.session.calls.set number (.finished outcome))
      (ledger : (course.step turn).session.ledger =
        (course.session.ledger.takeReply transaction).2)
  | begins (frame : Frame) (call : Nat) (rest : List Outgoing) (latest : Transaction)
      (serving : course.phase = .serving)
      (taken : course.takenUp turn = [(frame, call)])
      (oldest : course.session.outbound = .answered frame call :: rest)
      (calls : (course.step turn).session.calls =
        course.session.connectedCalls call course.session.ledger.transactions.length)
      (ledger : course.session.ledger.Begins latest (course.step turn).session.ledger)
      (key : latest.key = frame.key)
      (reply : course.session.calls[call]? = some .queued →
        latest.reply ≠ .taken ∧ latest.reply ≠ .dropped)
  | cancels (same : turn = .cancel) (leaving : course.phase = .leaving)
  | drops (same : turn = .drop) (cancelled : course.phase = .cancelled)

section Effects

variable {course : Course} {turn : Turn} {next : Option Session}

theorem Effect.of_same (nobody : course.takenUp turn = [])
    (same : (course.step turn).session = course.session) : course.Effect turn :=
  .proceeds nobody (by rw [same]) (.of_transactions (by rw [same]))

/-- Nothing has happened unless the attempt has succeeded. -/
theorem Effect.of_attempt (stepEq : course.step turn = course.attempt next)
    (nobody : course.takenUp turn = [])
    (happened : ∀ session, next = some session → (course.step turn).session = session →
      course.Effect turn) : course.Effect turn := by
  cases outcome : next with
  | none => exact .of_same nobody (by rw [stepEq, outcome]; rfl)
  | some session => exact happened session outcome (by rw [stepEq, outcome]; rfl)

theorem Effect.of_serve (stepEq : course.step turn = course.serve next)
    (nobody : course.takenUp turn = [])
    (happened : ∀ session, next = some session → (course.step turn).session = session →
      course.Effect turn) : course.Effect turn := by
  by_cases serving : course.phase = .serving
  · exact .of_attempt (by rw [stepEq, serve, if_pos serving]) nobody happened
  · exact .of_same nobody (by rw [stepEq, serve, if_neg serving])

end Effects

theorem effect_dequeue (course : Course) : course.Effect .dequeue := by
  by_cases served : course.phase = .serving ∧ course.session.dequeue?.isSome
  · obtain ⟨serving, possible⟩ := served
    obtain ⟨next, stepped⟩ := Option.isSome_iff_exists.1 possible
    have stepEq : (course.step .dequeue).session = next := by
      simp only [step, serve, if_pos serving, attempt, stepped, Option.getD_some]
    have taken : course.takenUp .dequeue = match course.session.outbound with
        | .answered frame call :: _ => [(frame, call)]
        | _ => [] := by
      simp only [takenUp, serving, possible, and_self, if_true]
    obtain ⟨-, ⟨frame, call, rest, oldest, accepted⟩ | ⟨frame, rest, oldest, written⟩⟩ :=
      Session.dequeue?_cases stepped
    · rw [oldest] at taken
      obtain ⟨ledger, engine, scope, -⟩ :=
        Session.accept_scope { course.session with outbound := rest } frame call
      obtain ⟨latest, begins, key, reply⟩ :=
        Session.begins_accept { course.session with outbound := rest } frame call
      refine .begins frame call rest latest serving taken oldest ?_ ?_ key reply
      · rw [stepEq, accepted, scope]
        rfl
      · rw [stepEq, accepted]
        exact begins
    · rw [oldest] at taken
      refine .proceeds taken ?_ ?_
      · rw [stepEq, written]
      · rw [stepEq, written]
        exact .refl course.session.ledger
  · refine .of_same ?_ ?_
    · simp only [takenUp, if_neg served]
    · simp only [step, serve, attempt]
      split
      · rename_i serving
        have nothing : course.session.dequeue? = none := by
          simpa [serving] using served
        rw [nothing]
        rfl
      · rfl

theorem effect (course : Course) (turn : Turn) : course.Effect turn := by
  have quiet {next : Session} (nobody : course.takenUp turn = [])
      (stepEq : (course.step turn).session = next)
      (calls : next.calls = course.session.calls)
      (ledger : course.session.ledger.Proceeds next.ledger) : course.Effect turn :=
    .proceeds nobody (stepEq ▸ calls) (stepEq ▸ ledger)
  cases turn with
  | call request => exact .asks request rfl
  | submit number =>
      refine .of_attempt rfl rfl fun next stepped stepEq => ?_
      obtain ⟨outgoing, known, ⟨running, refused⟩ | ⟨running, -, accepted⟩⟩ :=
        Session.submit?_cases stepped
      · refine .submits number outgoing rfl known ?_ ?_
        · rw [stepEq, refused, Session.submitted, running]
          rfl
        · rw [stepEq, refused]
          rfl
      · refine .submits number outgoing rfl known ?_ ?_
        · rw [stepEq, accepted, Session.submitted, running]
          rfl
        · rw [stepEq, accepted]
  | collect number =>
      refine .of_attempt rfl rfl fun next stepped stepEq => ?_
      obtain ⟨transaction, outcome, ledger, known, taken, collected⟩ :=
        Session.collect?_cases stepped
      refine .collects number transaction outcome rfl known ?_ ?_ ?_
      · rw [← Ledger.takeReply_eq_some_iff, taken]
      · rw [stepEq, collected]
      · rw [stepEq, collected, taken]
  | abandon number =>
      rcases course.session.abandon_cases number with
        same | ⟨early, left⟩ | ⟨transaction, known, left⟩
      · exact .of_same rfl same
      · rcases early with ⟨outgoing, known⟩ | known
        · refine .withdraws number _ rfl known (.inl ⟨outgoing, rfl⟩) ?_ ?_
          · simp only [step, left, Session.setCall]
          · simp only [step, left, Session.setCall]
        · refine .withdraws number _ rfl known (.inr rfl) ?_ ?_
          · simp only [step, left, Session.setCall]
          · simp only [step, left, Session.setCall]
      · refine .leaves number transaction rfl known ?_ ?_
        · simp only [step, left]
        · simp only [step, left]
  | read =>
      refine .of_attempt rfl rfl fun next stepped stepEq => ?_
      rcases Session.read?_cases stepped with ⟨frame, -, forwarded⟩ | ⟨-, _, _, _, _, rfl⟩
      · rcases Session.forward?_cases forwarded with ⟨-, rfl⟩ | ⟨-, -, rfl⟩
        · exact quiet rfl stepEq rfl (.refl course.session.ledger)
        · exact quiet rfl stepEq rfl (.refl course.session.ledger)
      · exact quiet rfl stepEq rfl (.refl course.session.ledger)
  | outside pipe dispatcher => exact quiet rfl rfl rfl (.refl course.session.ledger)
  | expiry timer =>
      exact quiet rfl rfl rfl (.of_transactions (course.session.ledger.transactions_wake timer))
  | giveUp number => exact quiet rfl rfl rfl (course.session.proceeds_giveUp number)
  | wait milliseconds => exact quiet rfl rfl rfl (.of_transactions rfl)
  | requestStop => exact quiet rfl rfl rfl (.refl course.session.ledger)
  | receive =>
      refine .of_serve rfl rfl fun next stepped stepEq => ?_
      obtain ⟨-, frame, rest, -, rfl⟩ := Session.receive?_cases stepped
      have proceeds := Session.proceeds_route { course.session with inbound := rest } frame
      obtain ⟨ledger, dispatcher, scope⟩ :=
        Session.route_scope { course.session with inbound := rest } frame
      exact quiet rfl stepEq (by rw [scope]) proceeds
  | dequeue => exact course.effect_dequeue
  | finishWrite =>
      refine .of_serve rfl rfl fun next stepped stepEq => ?_
      obtain ⟨frame, transaction, -, ⟨pipe, -, rfl⟩ | ⟨cause, -, rfl⟩⟩ :=
        Session.finishWrite?_cases stepped
      · exact quiet rfl stepEq rfl (.refl course.session.ledger)
      · have proceeds :=
          Session.proceeds_failWrite { course.session with engine := .idle } transaction cause
        obtain ⟨ledger, dispatcher, scope⟩ :=
          Session.failWrite_scope { course.session with engine := .idle } transaction cause
        exact quiet rfl stepEq (by rw [scope]) proceeds
  | leave =>
      refine .of_same rfl ?_
      simp only [step]
      split <;> rfl
  | cancel =>
      by_cases leaving : course.phase = .leaving
      · exact .cancels rfl leaving
      · exact .of_same rfl (by simp only [step, if_neg leaving])
  | drop =>
      by_cases cancelled : course.phase = .cancelled
      · exact .drops rfl cancelled
      · exact .of_same rfl (by simp only [step, if_neg cancelled])
  | dismiss =>
      by_cases gone : course.phase = .gone
      · refine .proceeds rfl ?_ ?_
        · simp only [step, if_pos gone]
        · simp only [step, if_pos gone]
          exact .refl course.session.ledger
      · exact .of_same rfl (by simp only [step, if_neg gone])

theorem takenUp_cases (course : Course) (turn : Turn) :
    course.takenUp turn = [] ∨ ∃ request, course.takenUp turn = [request] := by
  cases turn with
  | dequeue =>
      simp only [takenUp]
      split
      · split
        · exact .inr ⟨_, rfl⟩
        · exact .inl rfl
      · exact .inl rfl
  | _ => exact .inl rfl

theorem takenUp_of_not_serving {course : Course} (left : course.phase ≠ .serving) (turn : Turn) :
    course.takenUp turn = [] := by
  cases turn with
  | dequeue => simp only [takenUp, left, false_and, if_false]
  | _ => rfl

/-- Transactions begin for the requests that are taken up, and for nothing
else. -/
theorem keys_step (course : Course) (turn : Turn) :
    (course.step turn).session.ledger.keys =
      course.session.ledger.keys ++ (course.takenUp turn).map fun request => request.1.key := by
  have unchanged (nobody : course.takenUp turn = [])
      (same : (course.step turn).session.ledger.keys = course.session.ledger.keys) :
      (course.step turn).session.ledger.keys =
        course.session.ledger.keys ++ (course.takenUp turn).map fun request => request.1.key := by
    rw [same, nobody, List.map_nil, List.append_nil]
  cases course.effect turn with
  | proceeds nobody calls ledger => exact unchanged nobody ledger.keys
  | asks request same =>
      subst same
      exact unchanged rfl rfl
  | submits number outgoing same known calls ledger
  | withdraws number before same known early calls ledger =>
      subst same
      exact unchanged rfl (by rw [ledger])
  | leaves number transaction same known calls ledger =>
      subst same
      refine unchanged rfl ?_
      rw [ledger]
      exact (course.session.ledger.continues_dropReply transaction).keys
  | collects number transaction outcome same known delivered calls ledger =>
      subst same
      refine unchanged rfl ?_
      rw [ledger]
      exact (course.session.ledger.continues_takeReply transaction).keys
  | begins frame call rest latest serving taken oldest calls ledger key =>
      rw [taken, ledger.keys, key, List.map_singleton]
  | cancels same leaving =>
      subst same
      refine unchanged rfl ?_
      simp only [step, if_pos leaving]
      exact course.session.ledger.keys_cancelAll
  | drops same cancelled =>
      subst same
      refine unchanged rfl ?_
      rw [step_drop cancelled]

/-- Only the engine that has left its loop cancels transactions. -/
theorem cancelled_of_step {course : Course} {turn : Turn} {number : Nat}
    (cancelled : (course.step turn).session.ledger.stateOf number = some .cancelled) :
    course.session.ledger.stateOf number = some .cancelled ∨
      turn = .cancel ∧ course.phase = .leaving := by
  cases course.effect turn with
  | proceeds nobody calls ledger => exact .inl (ledger.cancelled number cancelled)
  | asks request same =>
      subst same
      exact .inl cancelled
  | submits number outgoing same known calls ledger
  | withdraws number before same known early calls ledger =>
      rw [ledger] at cancelled
      exact .inl cancelled
  | leaves call transaction same known calls ledger =>
      rw [ledger] at cancelled
      have continues := course.session.ledger.continues_dropReply transaction
      exact .inl (continues.cancelled number cancelled)
  | collects call transaction outcome same known delivered calls ledger =>
      rw [ledger] at cancelled
      have continues := course.session.ledger.continues_takeReply transaction
      exact .inl (continues.cancelled number cancelled)
  | begins frame call rest latest serving taken oldest calls ledger =>
      exact .inl (ledger.cancelled number cancelled)
  | cancels same leaving => exact .inr ⟨same, leaving⟩
  | drops same dropped =>
      subst same
      rw [step_drop dropped] at cancelled
      exact .inl cancelled

theorem calls_drop {course : Course} (cancelled : course.phase = .cancelled) :
    (course.step .drop).session.calls =
      course.session.outbound.foldl Session.droppedCalls course.session.calls := by
  rw [step_drop cancelled]

/-- A call that has ended, or whose caller has gone away, stays as it is. -/
theorem calls_step_of_ended {course : Course} {number : Nat} {state : CallState}
    (known : course.session.calls[number]? = some state) (ended : state.Ended) (turn : Turn) :
    (course.step turn).session.calls[number]? = some state := by
  have changed {other : Nat} {before after : CallState}
      (earlier : course.session.calls[other]? = some before) (going : ¬ before.Ended)
      (calls : (course.step turn).session.calls = course.session.calls.set other after) :
      (course.step turn).session.calls[number]? = some state := by
    rw [calls, List.getElem?_set_ne, known]
    rintro rfl
    rw [earlier] at known
    exact going (Option.some.inj known ▸ ended)
  have notQueued : course.session.calls[number]? ≠ some .queued := by
    rw [known]
    rintro same
    obtain rfl := Option.some.inj same
    exact ended
  cases course.effect turn with
  | proceeds nobody calls ledger => rw [calls, known]
  | asks request same =>
      subst same
      exact course.session.call_of_known known
  | submits other outgoing same earlier calls => exact changed earlier id calls
  | withdraws other before same earlier early calls =>
      refine changed earlier ?_ calls
      rcases early with ⟨outgoing, rfl⟩ | rfl
      · exact id
      · exact id
  | leaves other transaction same earlier calls => exact changed earlier id calls
  | collects other transaction outcome same earlier delivered calls =>
      exact changed earlier id calls
  | begins frame call rest latest serving taken oldest calls =>
      rw [calls, Session.connectedCalls_of_not_queued _ _ _ notQueued, known]
  | cancels same leaving =>
      subst same
      simp only [step, if_pos leaving]
      exact known
  | drops same cancelled =>
      subst same
      rw [calls_drop cancelled, Session.foldl_droppedCalls_of_not_queued _ notQueued, known]

theorem calls_run_of_ended {course : Course} {number : Nat} {state : CallState}
    (known : course.session.calls[number]? = some state) (ended : state.Ended)
    (turns : List Turn) : (course.run turns).session.calls[number]? = some state := by
  induction turns generalizing course with
  | nil => exact known
  | cons turn turns ih => exact ih (calls_step_of_ended known ended turn)

/-- The engine goes from one phase to the next, and never back. -/
theorem phase_step (course : Course) (turn : Turn) :
    (course.step turn).phase = course.phase ∨
      (turn = .leave ∧ course.phase = .serving ∧ (course.step turn).phase = .leaving) ∨
      (turn = .cancel ∧ course.phase = .leaving ∧ (course.step turn).phase = .cancelled) ∨
      (turn = .drop ∧ course.phase = .cancelled ∧ (course.step turn).phase = .gone) := by
  cases turn with
  | receive => exact .inl (phase_serve _ _)
  | dequeue => exact .inl (phase_serve _ _)
  | finishWrite => exact .inl (phase_serve _ _)
  | leave =>
      simp only [step]
      split
      · rename_i leaves
        exact .inr (.inl ⟨trivial, leaves.1, rfl⟩)
      · exact .inl rfl
  | cancel =>
      simp only [step]
      split
      · rename_i leaving
        exact .inr (.inr (.inl ⟨trivial, leaving, rfl⟩))
      · exact .inl rfl
  | drop =>
      simp only [step]
      split
      · rename_i cancelled
        exact .inr (.inr (.inr ⟨trivial, cancelled, rfl⟩))
      · exact .inl rfl
  | dismiss =>
      simp only [step]
      split <;> exact .inl rfl
  | _ => exact .inl rfl

theorem ne_gone_of_step {course : Course} {turn : Turn} (there : (course.step turn).phase ≠ .gone) :
    course.phase ≠ .gone := by
  rcases course.phase_step turn with same | ⟨-, before, -⟩ | ⟨-, before, -⟩ | ⟨-, -, goes⟩
  · exact same ▸ there
  · simp [before]
  · simp [before]
  · exact absurd goes there

/-- What enters a queue leaves it in the same order, if each turn takes from its front
and adds to its end.  The engine that has gone leaves the rest behind. -/
theorem exists_queued {α : Type} {enters leaves : Course → Turn → List α}
    {queue : Session → List α} {course : Course} (empty : queue course.session = [])
    (moves : ∀ earlier turn, ((course.run earlier).step turn).phase ≠ .gone →
      queue (course.run earlier).session ++ enters (course.run earlier) turn =
        leaves (course.run earlier) turn ++ queue ((course.run earlier).step turn).session)
    (ends : ∀ earlier turn, ((course.run earlier).step turn).phase = .gone →
      leaves (course.run earlier) turn = []) (turns : List Turn) :
    ∃ rest, course.along enters turns = course.along leaves turns ++ rest ∧
      ((course.run turns).phase ≠ .gone → queue (course.run turns).session = rest) := by
  induction turns using List.reverseRecOn with
  | nil => exact ⟨[], rfl, fun _ => empty⟩
  | append_singleton turns turn ih =>
      obtain ⟨rest, whole, same⟩ := ih
      rw [along_concat, along_concat, run_concat, whole]
      by_cases gone : ((course.run turns).step turn).phase = .gone
      · rw [ends turns turn gone, List.append_nil, List.append_assoc]
        exact ⟨_, rfl, fun there => absurd gone there⟩
      · refine ⟨_, ?_, fun _ => rfl⟩
        rw [← same (ne_gone_of_step gone), List.append_assoc, moves turns turn gone,
          List.append_assoc]

end Course

end ZigbeeHost
