import ZigbeeHost.Proofs.Session.Progress

/-!
# Each request has one outcome, and its caller gets it

A request that the engine takes up begins a transaction, which has at most one
outcome.  Until then the call of the request waits for this transaction and no
other, unless its caller goes away; afterwards the outcome is there for it, or
the call has ended with it.
-/

namespace ZigbeeHost

namespace Life

variable {state : Option TransactionState} {reply : Option Reply}
variable {wins received : List Outcome}

theorem state_of_delivered {outcome : Outcome}
    (life : Life state (some (.delivered outcome)) wins received) :
    state = some (.ofOutcome outcome) := by
  cases life with
  | delivered => rfl

/-- The outcome of a settled transaction has been delivered, unless its caller has
taken it or has gone away. -/
theorem delivered_of_settled {settled : TransactionState} {reply : Reply}
    (life : Life (some settled) (some reply) wins received) (terminal : settled ≠ .pending)
    (untaken : reply ≠ .taken) (stays : reply ≠ .dropped) :
    ∃ outcome, reply = .delivered outcome := by
  generalize known : some settled = state at life
  cases life with
  | waiting => exact absurd (Option.some.inj known) terminal
  | delivered outcome => exact ⟨outcome, rfl⟩
  | taken outcome => exact absurd rfl untaken
  | abandoned | unread outcome | finished outcome => exact absurd rfl stays

end Life

namespace Session

/-- The session follows a race. -/
def Traced (session : Session) : Prop :=
  ∃ moves, session.Follows (Race.run {} moves)

namespace Traced

variable {session next : Session} {number : Nat} {state : TransactionState}

theorem advance (traced : session.Traced) (advances : session.Advances next) : next.Traced := by
  obtain ⟨moves, follows⟩ := traced
  obtain ⟨more, later⟩ := advances moves follows
  exact ⟨moves ++ more, later⟩

theorem orderly (traced : session.Traced) : session.Orderly := by
  obtain ⟨moves, follows⟩ := traced
  exact follows.orderly (Race.sound_start.run moves)

/-- What has had its outcome keeps it. -/
theorem stateOf (traced : session.Traced) (advances : session.Advances next)
    (settled : session.ledger.stateOf number = some state) (terminal : state ≠ .pending) :
    next.ledger.stateOf number = some state := by
  obtain ⟨moves, follows⟩ := traced
  obtain ⟨more, later⟩ := advances moves follows
  rw [← follows.ledger] at settled
  rw [← later.ledger, Race.run, List.foldl_append]
  exact Race.stateOf_run settled terminal more

theorem stateOf_of_delivered (traced : session.Traced) {outcome : Outcome}
    (delivered : session.ledger.replyOf number = some (.delivered outcome)) :
    session.ledger.stateOf number = some (.ofOutcome outcome) := by
  obtain ⟨moves, follows⟩ := traced
  have life := (Race.sound_start.run moves).lives number
  rw [follows.ledger, delivered] at life
  exact life.state_of_delivered

/-- A caller who still waits for a settled transaction can take its outcome. -/
theorem delivered (traced : session.Traced)
    (settled : session.ledger.stateOf number = some state) (terminal : state ≠ .pending)
    (claimable : session.ledger.Claimable number) :
    ∃ outcome, session.ledger.replyOf number = some (.delivered outcome) ∧
      state = .ofOutcome outcome := by
  obtain ⟨reply, replied, untaken, stays⟩ := claimable
  have delivered : ∃ outcome, reply = .delivered outcome := by
    obtain ⟨moves, follows⟩ := traced
    have life := (Race.sound_start.run moves).lives number
    rw [follows.ledger, settled, replied] at life
    exact life.delivered_of_settled terminal untaken stays
  obtain ⟨outcome, rfl⟩ := delivered
  refine ⟨outcome, replied, ?_⟩
  have same := traced.stateOf_of_delivered replied
  rw [settled] at same
  exact Option.some.inj same

end Traced

end Session

/-- The outcome that a state tells of, if it does. -/
def TransactionState.outcomes : Option TransactionState → List TransactionState
  | none => []
  | some .pending => []
  | some state => [state]

theorem TransactionState.eq_of_mem_outcomes {known : Option TransactionState}
    {state : TransactionState} (inside : state ∈ outcomes known) : known = some state := by
  match known, inside with
  | some .resolved, inside | some .failed, inside | some .timedOut, inside
  | some .cancelled, inside => rw [List.mem_singleton.1 inside]

theorem TransactionState.outcomes_of_settled {state : TransactionState}
    (terminal : state ≠ .pending) : outcomes (some state) = [state] := by
  cases state with
  | pending => exact absurd rfl terminal
  | _ => rfl

namespace Course

/-- The outcomes that a transaction has in some turns, in this order. -/
def outcomes (course : Course) (number : Nat) : List Turn → List TransactionState
  | [] => []
  | turn :: turns =>
      let before := course.session.ledger.stateOf number
      let after := (course.step turn).session.ledger.stateOf number
      (if after = before then [] else TransactionState.outcomes after) ++
        (course.step turn).outcomes number turns

/-- A transaction has had at most one outcome, the one that its state tells of. -/
theorem outcomes_run {course : Course} (traced : course.session.Traced) (number : Nat)
    (turns : List Turn) :
    TransactionState.outcomes (course.session.ledger.stateOf number) ++
        course.outcomes number turns =
      TransactionState.outcomes ((course.run turns).session.ledger.stateOf number) := by
  induction turns generalizing course with
  | nil => exact List.append_nil _
  | cons turn turns ih =>
      have advances := course.advances_step turn
      have later := ih (traced.advance advances)
      refine Eq.trans ?_ later
      rw [outcomes, ← List.append_assoc]
      congr 1
      by_cases same : (course.step turn).session.ledger.stateOf number =
          course.session.ledger.stateOf number
      · rw [if_pos same, same, List.append_nil]
      · -- Only a transaction that has had no outcome can have one now.
        have fresh : TransactionState.outcomes (course.session.ledger.stateOf number) = [] := by
          cases known : course.session.ledger.stateOf number with
          | none => rfl
          | some state =>
              by_cases pending : state = .pending
              · rw [pending]
                rfl
              · exact absurd ((traced.stateOf advances known pending).trans known.symm) same
        rw [if_neg same, fresh, List.nil_append]

end Course

namespace Session

/-- How the call of a request that has been taken up stands: its outcome is that
of the transaction. -/
inductive Served (session : Session) (number call : Nat) : Prop
  | awaits (awaiting : session.calls[call]? = some (.awaiting number))
      (claimable : session.ledger.Claimable number)
  | finished (outcome : Outcome)
      (finished : session.calls[call]? = some (.finished outcome))
      (settled : session.ledger.stateOf number = some (.ofOutcome outcome))
  | abandoned (abandoned : session.calls[call]? = some .abandoned)

namespace Served

variable {session next : Session} {number call : Nat}

theorem exists_state (served : session.Served number call) :
    ∃ state, session.calls[call]? = some state := by
  cases served with
  | awaits known | finished _ known | abandoned known => exact ⟨_, known⟩

theorem not_submitting (served : session.Served number call) (outgoing : Outgoing) :
    session.calls[call]? ≠ some (.submitting outgoing) := by
  cases served with
  | awaits known | finished _ known | abandoned known => simp [known]

theorem not_queued (served : session.Served number call) :
    session.calls[call]? ≠ some .queued := by
  cases served with
  | awaits known | finished _ known | abandoned known => simp [known]

/-- Nothing happens to the call, and its outcome, if there is one, stays. -/
theorem of_same (served : session.Served number call)
    (settled : ∀ state, session.ledger.stateOf number = some state → state ≠ .pending →
      next.ledger.stateOf number = some state)
    (calls : next.calls[call]? = session.calls[call]?)
    (claimable : session.ledger.Claimable number → next.ledger.Claimable number) :
    next.Served number call := by
  cases served with
  | awaits awaiting waits => exact .awaits (calls.trans awaiting) (claimable waits)
  | finished outcome finished state =>
      exact .finished outcome (calls.trans finished)
        (settled _ state (Transaction.ofOutcome_ne_pending outcome))
  | abandoned abandoned => exact .abandoned (calls.trans abandoned)

end Served

theorem collect_of_delivered {session : Session} {number call : Nat} {outcome : Outcome}
    (awaiting : session.calls[call]? = some (.awaiting number))
    (delivered : session.ledger.replyOf number = some (.delivered outcome)) :
    ∃ next, session.collect? call = some next ∧
      next.calls[call]? = some (.finished outcome) := by
  obtain ⟨ledger, taken⟩ : ∃ ledger, session.ledger.takeReply number = (some outcome, ledger) :=
    ⟨_, Prod.ext ((session.ledger.takeReply_eq_some_iff number).2 delivered) rfl⟩
  refine ⟨{ session with ledger }.setCall call (.finished outcome), ?_, ?_⟩
  · simp only [collect?, awaiting, taken]
  · exact List.getElem?_set_self (List.getElem?_eq_some_iff.1 awaiting).1

/-- The caller of a transaction learns its outcome, unless it has gone away: the
call has ended with the outcome, or does so as soon as it takes it. -/
def Informs (session : Session) (call : Nat) (state : TransactionState) : Prop :=
  session.calls[call]? = some .abandoned ∨
    ∃ outcome, state = .ofOutcome outcome ∧
      (session.calls[call]? = some (.finished outcome) ∨
        ∃ next, session.collect? call = some next ∧ next.calls[call]? = some (.finished outcome))

theorem Served.informs {session : Session} {number call : Nat} {state : TransactionState}
    (served : session.Served number call) (traced : session.Traced)
    (settled : session.ledger.stateOf number = some state) (terminal : state ≠ .pending) :
    session.Informs call state := by
  cases served with
  | awaits awaiting claimable =>
      obtain ⟨outcome, delivered, same⟩ := traced.delivered settled terminal claimable
      exact .inr ⟨outcome, same, .inr (collect_of_delivered awaiting delivered)⟩
  | finished outcome finished same =>
      rw [settled] at same
      exact .inr ⟨outcome, Option.some.inj same, .inl finished⟩
  | abandoned abandoned => exact .inl abandoned

/-- The transactions belong to the requests that have been taken up, and so do the
calls that wait for them. -/
structure Linked (session : Session) (taken : List (Frame × Nat)) : Prop where
  keys : session.ledger.keys = taken.map fun request => request.1.key
  served : ∀ (number : Nat) frame call, taken[number]? = some (frame, call) →
    session.Served number call
  awaited : ∀ call number : Nat, session.calls[call]? = some (.awaiting number) →
    ∃ frame, taken[number]? = some (frame, call)

theorem Linked.length {session : Session} {taken : List (Frame × Nat)}
    (linked : session.Linked taken) : taken.length = session.ledger.transactions.length := by
  have same := congrArg List.length linked.keys
  simpa [Ledger.keys] using same.symm

end Session

namespace Course

variable {course : Course} {taken : List (Frame × Nat)}

theorem served_step (linked : course.session.Linked taken) (traced : course.session.Traced)
    {number call : Nat} {frame : Frame} (known : taken[number]? = some (frame, call))
    (turn : Turn) : (course.step turn).session.Served number call := by
  have served := linked.served number frame call known
  have settled (state : TransactionState)
      (state_eq : course.session.ledger.stateOf number = some state) (terminal : state ≠ .pending) :=
    traced.stateOf (course.advances_step turn) state_eq terminal
  -- Another call waits for another transaction.
  have alone {other transaction : Nat} (different : call ≠ other)
      (awaiting : course.session.calls[other]? = some (.awaiting transaction)) :
      number ≠ transaction := by
    rintro rfl
    obtain ⟨otherFrame, same⟩ := linked.awaited other number awaiting
    rw [known] at same
    exact different (Prod.mk.inj (Option.some.inj same)).2
  cases course.effect turn with
  | proceeds nobody calls ledger =>
      exact served.of_same settled (by rw [calls]) (ledger.claimable number)
  | asks request same =>
      subst same
      refine served.of_same settled ?_ id
      obtain ⟨state, known⟩ := served.exists_state
      rw [known]
      exact course.session.call_of_known known
  | submits other outgoing same submitting calls ledger =>
      have different : other ≠ call := by
        rintro rfl
        exact served.not_submitting outgoing submitting
      refine served.of_same settled ?_ ?_
      · rw [calls, List.getElem?_set_ne different]
      · rw [ledger]
        exact id
  | withdraws other before same earlier early calls ledger =>
      have different : other ≠ call := by
        rintro rfl
        rcases early with ⟨outgoing, rfl⟩ | rfl
        · exact served.not_submitting outgoing earlier
        · exact served.not_queued earlier
      refine served.of_same settled ?_ ?_
      · rw [calls, List.getElem?_set_ne different]
      · rw [ledger]
        exact id
  | leaves other transaction same awaiting calls ledger =>
      by_cases own : call = other
      · subst own
        refine .abandoned ?_
        rw [calls, List.getElem?_set_self (List.getElem?_eq_some_iff.1 awaiting).1]
      · refine served.of_same settled ?_ ?_
        · rw [calls, List.getElem?_set_ne (Ne.symm own)]
        · rw [ledger]
          exact Ledger.claimable_dropReply _ _ (alone own awaiting)
  | collects other transaction outcome same awaiting delivered calls ledger =>
      by_cases own : call = other
      · -- The call takes the outcome of its own transaction.
        subst own
        obtain rfl : number = transaction := by
          cases served with
          | awaits again => simpa [awaiting] using again.symm
          | finished outcome again | abandoned again => simp [awaiting] at again
        refine .finished outcome ?_ ?_
        · rw [calls, List.getElem?_set_self (List.getElem?_eq_some_iff.1 awaiting).1]
        · exact settled _ (traced.stateOf_of_delivered delivered)
            (Transaction.ofOutcome_ne_pending outcome)
      · refine served.of_same settled ?_ ?_
        · rw [calls, List.getElem?_set_ne (Ne.symm own)]
        · rw [ledger]
          exact Ledger.claimable_takeReply _ _ (alone own awaiting)
  | begins otherFrame other rest latest serving taken oldest calls ledger =>
      refine served.of_same settled ?_ ledger.claimable
      rw [calls, Session.connectedCalls_of_not_queued _ _ _ served.not_queued]
  | cancels same leaving =>
      subst same
      refine served.of_same settled ?_ ?_
      · simp only [step, if_pos leaving]
      · simp only [step, if_pos leaving]
        exact Ledger.claimable_cancelAll _
  | drops same cancelled =>
      subst same
      refine served.of_same settled ?_ ?_
      · rw [calls_drop cancelled,
          Session.foldl_droppedCalls_of_not_queued _ served.not_queued]
      · rw [step_drop cancelled]
        exact id

/-- The call of a request that has just been taken up waits for its transaction,
unless its caller has gone away. -/
theorem served_begins (queues : course.session.Queues) {turn : Turn} {frame : Frame} {call : Nat}
    (taken : course.takenUp turn = [(frame, call)]) :
    (course.step turn).session.Served course.session.ledger.transactions.length call := by
  cases course.effect turn with
  | begins frame other rest latest serving begun oldest calls ledger key reply =>
      rw [taken] at begun
      obtain ⟨rfl, rfl⟩ := Prod.mk.inj (List.singleton_inj.1 begun)
      rcases queues.waits frame call (by simp [oldest]) with queued | abandoned
      · refine .awaits ?_ ⟨latest.reply, ledger.replyOf_latest, reply queued⟩
        rw [calls]
        simp only [Session.connectedCalls, queued]
        exact List.getElem?_set_self (List.getElem?_eq_some_iff.1 queued).1
      · refine .abandoned ?_
        rw [calls, Session.connectedCalls_of_not_queued _ _ _ (by simp [abandoned]), abandoned]
  | proceeds nobody => simp [taken] at nobody
  | submits number outgoing same | withdraws number before same | leaves number transaction same
  | collects number transaction outcome same | asks request same | cancels same | drops same =>
      subst same
      cases taken

theorem awaited_step (linked : course.session.Linked taken) (turn : Turn) {call number : Nat}
    (awaiting : (course.step turn).session.calls[call]? = some (.awaiting number)) :
    ∃ frame, (taken ++ course.takenUp turn)[number]? = some (frame, call) := by
  have earlier (already : course.session.calls[call]? = some (.awaiting number)) :
      ∃ frame, (taken ++ course.takenUp turn)[number]? = some (frame, call) := by
    obtain ⟨frame, known⟩ := linked.awaited call number already
    exact ⟨frame, by rw [List.getElem?_append_left (List.getElem?_eq_some_iff.1 known).1, known]⟩
  have changed {other : Nat} {before after : CallState}
      (known : course.session.calls[other]? = some before) (elsewhere : after ≠ .awaiting number)
      (calls : (course.step turn).session.calls = course.session.calls.set other after) :
      ∃ frame, (taken ++ course.takenUp turn)[number]? = some (frame, call) := by
    rw [calls, getElem?_set_of_known known] at awaiting
    split at awaiting
    · exact absurd (Option.some.inj awaiting) elsewhere
    · exact earlier awaiting
  cases course.effect turn with
  | proceeds nobody calls ledger => exact earlier (by rwa [calls] at awaiting)
  | asks request same =>
      subst same
      rcases course.session.call_cases awaiting with already | ⟨-, first⟩
      · exact earlier already
      · simp only [Session.firstState] at first
        split at first <;> cases first
  | submits other outgoing same known calls =>
      refine changed known ?_ calls
      simp only [Session.submitted]
      split
      · cases outgoing <;> simp [Session.queuedState]
      · simp
  | withdraws other before same known early calls => exact changed known (by simp) calls
  | leaves other transaction same known calls => exact changed known (by simp) calls
  | collects other transaction outcome same known delivered calls =>
      exact changed known (by simp) calls
  | begins frame other rest latest serving begun oldest calls =>
      rw [calls] at awaiting
      rcases course.session.connectedCalls_cases other _ call with same | ⟨rfl, -, connected⟩
      · exact earlier (same.symm.trans awaiting)
      · rw [connected, Option.some.injEq, CallState.awaiting.injEq, ← linked.length] at awaiting
        rw [begun, ← awaiting]
        exact ⟨frame, List.getElem?_concat_length⟩
  | cancels same leaving =>
      subst same
      simp only [step, if_pos leaving] at awaiting
      exact earlier awaiting
  | drops same cancelled =>
      subst same
      rw [calls_drop cancelled] at awaiting
      rcases Session.foldl_droppedCalls_cases course.session.outbound course.session.calls call with
        same | ⟨-, ended⟩
      · exact earlier (same.symm.trans awaiting)
      · rw [ended] at awaiting
        cases awaiting

theorem linked_step (linked : course.session.Linked taken) (traced : course.session.Traced)
    (queues : course.session.Queues) (turn : Turn) :
    (course.step turn).session.Linked (taken ++ course.takenUp turn) where
  keys := by rw [keys_step, linked.keys, List.map_append]
  served number frame call known := by
    -- The request has been taken up earlier, or in this turn.
    rw [List.getElem?_append] at known
    split at known
    · exact served_step linked traced known turn
    · rename_i beyond
      rcases course.takenUp_cases turn with nobody | ⟨request, begun⟩
      · rw [nobody] at known
        cases known
      · rw [begun] at known
        obtain ⟨inside, same⟩ := List.getElem?_eq_some_iff.1 known
        have last : number = course.session.ledger.transactions.length := by
          have length := linked.length
          rw [List.length_singleton] at inside
          omega
        obtain rfl : request = (frame, call) := by simpa using same
        subst last
        exact served_begins queues begun
  awaited call number := awaited_step linked turn

theorem linked_run (linked : course.session.Linked taken) (traced : course.session.Traced)
    (queues : course.session.Queues) (turns : List Turn) :
    (course.run turns).session.Linked (taken ++ course.requests turns) := by
  induction turns generalizing course taken with
  | nil =>
      rw [requests, List.append_nil]
      exact linked
  | cons turn turns ih =>
      rw [requests, ← List.append_assoc]
      exact ih (linked_step linked traced queues turn)
        (traced.advance (course.advances_step turn)) (queues_step queues turn)

/-- What is known of a session from its start on, with the requests that have been
taken up so far. -/
structure Kept (course : Course) (taken : List (Frame × Nat)) : Prop where
  traced : course.session.Traced
  steady : course.Steady
  queues : course.session.Queues
  linked : course.session.Linked taken

theorem kept_start (config : SessionConfig) (prototypes : PrototypeTable) :
    (start config prototypes).Kept [] where
  traced := ⟨[], Session.follows_start config prototypes⟩
  steady := steady_start config prototypes
  queues := queues_start config prototypes
  linked := ⟨rfl, fun _ _ _ => nofun, fun _ _ => nofun⟩

theorem Kept.run (kept : course.Kept taken) (turns : List Turn) :
    (course.run turns).Kept (taken ++ course.requests turns) where
  traced := kept.traced.advance (course.advances_run turns)
  steady := kept.steady.run turns
  queues := queues_run kept.queues turns
  linked := linked_run kept.linked kept.traced kept.queues turns

section Requested

variable {config : SessionConfig} {prototypes : PrototypeTable} {turns : List Turn}
variable {number call : Nat} {frame : Frame} {state : TransactionState}

theorem stateOf_ne_none_of_request
    (known : ((start config prototypes).requests turns)[number]? = some (frame, call)) :
    ((start config prototypes).run turns).session.ledger.stateOf number ≠ none := by
  have linked := ((kept_start config prototypes).run turns).linked
  intro unknown
  rw [Ledger.stateOf_eq_none_iff, linked.keys, List.length_map] at unknown
  exact absurd (List.getElem?_eq_some_iff.1 known).1 (Nat.not_lt.2 unknown)

/-- The outcomes since the start are what the state tells of. -/
theorem outcomes_start (config : SessionConfig) (prototypes : PrototypeTable) (number : Nat)
    (turns : List Turn) : (start config prototypes).outcomes number turns =
      TransactionState.outcomes
        (((start config prototypes).run turns).session.ledger.stateOf number) :=
  outcomes_run (kept_start config prototypes).traced number turns

/-- A request that has had its outcome never gets another one. -/
theorem outcomes_append_of_settled
    (settled : ((start config prototypes).run turns).session.ledger.stateOf number = some state)
    (terminal : state ≠ .pending) (later : List Turn) :
    (start config prototypes).outcomes number (turns ++ later) = [state] := by
  have traced := ((kept_start config prototypes).run turns).traced
  rw [outcomes_start, run_append, traced.stateOf (advances_run _ later) settled terminal,
    TransactionState.outcomes_of_settled terminal]

/-- Its caller learns the outcome. -/
theorem informs_of_request
    (known : ((start config prototypes).requests turns)[number]? = some (frame, call))
    (settled : ((start config prototypes).run turns).session.ledger.stateOf number = some state)
    (terminal : state ≠ .pending) :
    ((start config prototypes).run turns).session.Informs call state := by
  have kept := (kept_start config prototypes).run turns
  exact (kept.linked.served number frame call known).informs kept.traced settled terminal

end Requested

end Course

end ZigbeeHost
