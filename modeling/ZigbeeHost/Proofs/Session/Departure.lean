import ZigbeeHost.Proofs.Session.Overdue

/-!
# What the engine leaves behind

A request can be in five places when the engine leaves its loop.  It may have
been taken up; then its transaction has had its outcome, or it is in the table
and is cancelled with the others, or it is overdue.  The engine does not find an
overdue one and cannot wait for it, so the request is still pending when the
engine has gone, and times out later.  It may wait in the queue; then it ends as
cancelled when the queue is dropped, however late it has got there.  It may not
have been queued yet, or not even been made; then it cannot be queued any more,
and ends as not connected.  Whatever order the last steps take, each request is
in one of these places, and none is forgotten.
-/

namespace ZigbeeHost

namespace Course

/-- Everything that waited in the table has been cancelled. -/
structure Closed (course : Course) : Prop where
  traced : course.session.Traced
  phase : course.phase = .cancelled ∨ course.phase = .gone
  waiting : course.session.ledger.waiting = []

namespace Closed

variable {course : Course} {number : Nat}

theorem of_cancel (traced : course.session.Traced) (leaving : course.phase = .leaving) :
    (course.step .cancel).Closed := by
  refine ⟨traced.advance (course.advances_step .cancel), ?_, ?_⟩
  · simp only [step, if_pos leaving, true_or]
  · simp only [step, if_pos leaving]
    exact course.session.ledger.waiting_cancelAll

theorem not_serving (closed : course.Closed) : course.phase ≠ .serving := by
  rcases closed.phase with cancelled | gone
  · simp [cancelled]
  · simp [gone]

theorem not_leaving (closed : course.Closed) : course.phase ≠ .leaving := by
  rcases closed.phase with cancelled | gone
  · simp [cancelled]
  · simp [gone]

theorem notMem_table (closed : course.Closed) : number ∉ course.session.ledger.table := by
  rw [Ledger.table, closed.waiting]
  exact List.not_mem_nil

/-- Every transaction that has begun has had its outcome or is overdue. -/
theorem left (closed : course.Closed) (known : course.session.ledger.stateOf number ≠ none) :
    course.session.Left number :=
  (closed.traced.orderly.mem_table_or_left known).resolve_left closed.notMem_table

theorem keys_step (closed : course.Closed) (turn : Turn) :
    (course.step turn).session.ledger.keys = course.session.ledger.keys := by
  rw [Course.keys_step, takenUp_of_not_serving closed.not_serving, List.map_nil, List.append_nil]

theorem waiting_step (closed : course.Closed) (turn : Turn) :
    (course.step turn).session.ledger.waiting = [] := by
  have next := (closed.traced.advance (course.advances_step turn)).orderly
  have empty : (course.step turn).session.ledger.table = [] := by
    -- Nothing begins any more, and what has left the table does not get back.
    apply List.eq_nil_iff_forall_not_mem.2
    intro number inside
    have known : (course.step turn).session.ledger.stateOf number ≠ none := by
      simp [(next.pending_iff number).2 (.inl inside)]
    have left := closed.left (Ledger.stateOf_ne_none_of_keys (closed.keys_step turn) known)
    exact next.notMem_table_of_left (left_step closed.traced left turn) inside
  exact List.map_eq_nil_iff.1 empty

theorem step (closed : course.Closed) (turn : Turn) : (course.step turn).Closed where
  traced := closed.traced.advance (course.advances_step turn)
  phase := by
    rcases course.phase_step turn with
      same | ⟨-, serving, -⟩ | ⟨-, leaving, -⟩ | ⟨-, -, gone⟩
    · rw [same]
      exact closed.phase
    · exact absurd serving closed.not_serving
    · exact absurd leaving closed.not_leaving
    · exact .inr gone
  waiting := closed.waiting_step turn

theorem run (closed : course.Closed) (turns : List Turn) :
    (course.run turns).Closed ∧
      (course.run turns).session.ledger.keys = course.session.ledger.keys := by
  induction turns generalizing course with
  | nil => exact ⟨closed, rfl⟩
  | cons turn turns ih =>
      obtain ⟨later, keys⟩ := ih (closed.step turn)
      exact ⟨later, keys.trans (closed.keys_step turn)⟩

theorem ne_pending (closed : course.Closed) (inTime : number ∉ course.session.overdue) :
    course.session.ledger.stateOf number ≠ some .pending := by
  intro pending
  rcases (closed.traced.orderly.pending_iff number).1 pending with inside | overdue
  · exact closed.notMem_table inside
  · exact inTime overdue

/-- No more transactions become overdue. -/
theorem mem_overdue_of_run (closed : course.Closed) {turns : List Turn}
    (overdue : number ∈ (course.run turns).session.overdue) :
    number ∈ course.session.overdue := by
  obtain ⟨later, keys⟩ := closed.run turns
  have pending := (later.traced.orderly.pending_iff number).2 (.inr overdue)
  have known : (course.run turns).session.ledger.stateOf number ≠ none := by simp [pending]
  rcases closed.left (Ledger.stateOf_ne_none_of_keys keys known) with
    ⟨state, settled, terminal⟩ | already
  · have same := closed.traced.stateOf (course.advances_run turns) settled terminal
    rw [pending] at same
    exact absurd (Option.some.inj same).symm terminal
  · exact already

end Closed

/-- The engine has not cancelled anything. -/
def Early (course : Course) : Prop :=
  course.phase = .serving ∨ course.phase = .leaving

theorem early_of_step {course : Course} {turn : Turn} (early : (course.step turn).Early) :
    course.Early := by
  rcases course.phase_step turn with
    same | ⟨-, serving, -⟩ | ⟨-, leaving, -⟩ | ⟨-, -, gone⟩
  · rwa [Early, ← same]
  · exact .inl serving
  · exact .inr leaving
  · simp [Early, gone] at early

theorem not_cancelled_run (course : Course)
    (before : ∀ number, course.session.ledger.stateOf number ≠ some .cancelled)
    (turns : List Turn) (early : (course.run turns).Early) (number : Nat) :
    (course.run turns).session.ledger.stateOf number ≠ some .cancelled := by
  induction turns using List.reverseRecOn with
  | nil => exact before number
  | append_singleton turns turn ih =>
      rw [run_append] at early ⊢
      change ((course.run turns).step turn).Early at early
      intro cancelled
      rcases cancelled_of_step cancelled with already | ⟨rfl, leaving⟩
      · exact ih (early_of_step early) already
      · simp [Early, step, leaving] at early

/-- A phase that is reached is reached in some turn. -/
theorem exists_turn {course : Course} {phase : Phase} (first : course.phase ≠ phase)
    {turns : List Turn} (reached : (course.run turns).phase = phase) :
    ∃ before turn after, turns = before ++ turn :: after ∧ (course.run before).phase ≠ phase ∧
      ((course.run before).step turn).phase = phase := by
  induction turns using List.reverseRecOn with
  | nil => exact absurd reached first
  | append_singleton turns turn ih =>
      by_cases already : (course.run turns).phase = phase
      · obtain ⟨before, change, after, rfl, other, changed⟩ := ih already
        exact ⟨before, change, after ++ [turn], by simp, other, changed⟩
      · rw [run_append] at reached
        exact ⟨turns, turn, [], rfl, already, reached⟩

/-- Before the engine is gone it has cancelled everything, and before that it has
left its loop. -/
theorem exists_exit {course : Course} (serving : course.phase = .serving) {turns : List Turn}
    (gone : (course.run turns).phase = .gone) :
    ∃ before between after, turns = before ++ .cancel :: between ++ .drop :: after ∧
      (course.run before).phase = .leaving ∧
        (course.run (before ++ .cancel :: between)).phase = .cancelled := by
  -- Each phase can only be entered from the one before it, by the one turn.
  obtain ⟨earlier, turn, after, rfl, notGone, dropped⟩ :=
    exists_turn (by simp [serving]) gone
  obtain ⟨rfl, cancelled⟩ : turn = .drop ∧ (course.run earlier).phase = .cancelled := by
    rcases (course.run earlier).phase_step turn with
      same | ⟨-, -, leaves⟩ | ⟨-, -, cancels⟩ | ⟨drops, cancelled, -⟩
    · exact absurd (same.symm.trans dropped) notGone
    · simp [dropped] at leaves
    · simp [dropped] at cancels
    · exact ⟨drops, cancelled⟩
  obtain ⟨before, turn, between, rfl, notCancelled, changed⟩ :=
    exists_turn (by simp [serving]) cancelled
  obtain ⟨rfl, leaving⟩ : turn = .cancel ∧ (course.run before).phase = .leaving := by
    rcases (course.run before).phase_step turn with
      same | ⟨-, -, leaves⟩ | ⟨cancels, leaving, -⟩ | ⟨-, -, goes⟩
    · exact absurd (same.symm.trans changed) notCancelled
    · simp [changed] at leaves
    · exact ⟨cancels, leaving⟩
    · simp [changed] at goes
  exact ⟨before, between, after, rfl, leaving, cancelled⟩

/-- The engine has gone: all that waited has been cancelled, and the queues are
empty. -/
structure Gone (course : Course) : Prop where
  closed : course.Closed
  phase : course.phase = .gone
  steady : course.Steady
  queues : course.session.Queues

/-- A call has not handed in its frame, or it is not connected, or its caller has
gone away. -/
inductive Refusal (number : Nat) (turns : List Turn) : Option CallState → Prop
  | submitting (outgoing : Outgoing) (not_yet : .submit number ∉ turns) :
      Refusal number turns (some (.submitting outgoing))
  | refused : Refusal number turns (some (.finished (.error .notConnected)))
  | abandoned (left : .abandon number ∈ turns) : Refusal number turns (some .abandoned)

namespace Gone

variable {course : Course}

theorem stopped (gone : course.Gone) : course.session.engine = .stopped := by
  have steady := gone.steady
  simp only [Steady, gone.phase] at steady
  exact steady.1

theorem outbound_eq_nil (gone : course.Gone) : course.session.outbound = [] := by
  have steady := gone.steady
  simp only [Steady, gone.phase] at steady
  exact steady.2.2

theorem not_queued (gone : course.Gone) (call : Nat) :
    course.session.calls[call]? ≠ some .queued := by
  intro queued
  obtain ⟨frame, waiting⟩ := gone.queues.listed call queued
  rw [gone.outbound_eq_nil] at waiting
  cases waiting

theorem step (gone : course.Gone) (turn : Turn) : (course.step turn).Gone where
  closed := gone.closed.step turn
  phase := by
    rcases course.phase_step turn with
      same | ⟨-, serving, -⟩ | ⟨-, leaving, -⟩ | ⟨-, -, again⟩
    · rw [same, gone.phase]
    · exact absurd serving gone.closed.not_serving
    · exact absurd leaving gone.closed.not_leaving
    · exact again
  steady := gone.steady.step turn
  queues := queues_step gone.queues turn

theorem run (gone : course.Gone) (turns : List Turn) : (course.run turns).Gone := by
  induction turns generalizing course with
  | nil => exact gone
  | cons turn turns ih => exact ih (gone.step turn)

/-- A call that hands in its frame now is not connected. -/
theorem step_submit (gone : course.Gone) {number : Nat} {outgoing : Outgoing}
    (submitting : course.session.calls[number]? = some (.submitting outgoing)) :
    (course.step (.submit number)).session.calls[number]? =
      some (.finished (.error .notConnected)) := by
  have refused : course.session.submit? number =
      some (course.session.setCall number (.finished (.error .notConnected))) := by
    simp [Session.submit?, submitting, Session.isRunning, gone.stopped]
  simp only [Course.step, attempt, refused, Option.getD_some]
  exact List.getElem?_set_self (List.getElem?_eq_some_iff.1 submitting).1

theorem refusal_step (gone : course.Gone) {number : Nat} {outgoing : Outgoing}
    (submitting : course.session.calls[number]? = some (.submitting outgoing)) (turn : Turn) :
    Refusal number [turn] (course.step turn).session.calls[number]? := by
  by_cases submits : turn = .submit number
  · rw [submits, gone.step_submit submitting]
    exact .refused
  · -- Nobody else can make the call end, except that its caller goes away.
    have same (unchanged : (course.step turn).session.calls[number]? =
        course.session.calls[number]?) :
        Refusal number [turn] (course.step turn).session.calls[number]? := by
      rw [unchanged, submitting]
      exact .submitting outgoing (by simpa using Ne.symm submits)
    have other {call : Nat} {after : CallState} (different : call ≠ number)
        (calls : (course.step turn).session.calls = course.session.calls.set call after) :
        Refusal number [turn] (course.step turn).session.calls[number]? :=
      same (by rw [calls, List.getElem?_set_ne different])
    have notQueued : course.session.calls[number]? ≠ some .queued := by simp [submitting]
    cases course.effect turn with
    | proceeds nobody calls => exact same (by rw [calls])
    | asks request turn_eq =>
        subst turn_eq
        exact same ((course.session.call_of_known submitting).trans submitting.symm)
    | submits call pending turn_eq known calls =>
        refine other ?_ calls
        rintro rfl
        exact submits turn_eq
    | withdraws call before turn_eq known early calls =>
        by_cases own : call = number
        · subst own
          rw [calls, List.getElem?_set_self (List.getElem?_eq_some_iff.1 known).1]
          exact .abandoned (by simp [turn_eq])
        · exact other own calls
    | leaves call transaction turn_eq known calls
    | collects call transaction outcome turn_eq known delivered calls =>
        refine other ?_ calls
        rintro rfl
        simp [submitting] at known
    | begins frame call rest latest serving => exact absurd serving gone.closed.not_serving
    | cancels turn_eq leaving => exact absurd leaving gone.closed.not_leaving
    | drops turn_eq cancelled => simp [gone.phase] at cancelled

theorem refusal_run (gone : course.Gone) {number : Nat} {outgoing : Outgoing}
    (submitting : course.session.calls[number]? = some (.submitting outgoing))
    (turns : List Turn) :
    Refusal number turns (course.run turns).session.calls[number]? := by
  induction turns generalizing course outgoing with
  | nil =>
      rw [Course.run, List.foldl_nil, submitting]
      exact .submitting outgoing List.not_mem_nil
  | cons turn turns ih =>
      have refusal := gone.refusal_step submitting turn
      generalize known : (course.step turn).session.calls[number]? = state at refusal
      change Refusal number (turn :: turns) ((course.step turn).run turns).session.calls[number]?
      -- The later turns matter only as long as the call has not ended.
      cases refusal with
      | submitting pending not_yet =>
          have later := ih (gone.step turn) known
          generalize ((course.step turn).run turns).session.calls[number]? = last at later ⊢
          cases later with
          | submitting pending still => exact .submitting pending (by simp_all)
          | refused => exact .refused
          | abandoned left => exact .abandoned (List.mem_cons_of_mem _ left)
      | refused =>
          rw [calls_run_of_ended known trivial]
          exact .refused
      | abandoned left =>
          rw [calls_run_of_ended known trivial]
          exact .abandoned (by simp_all)

end Gone

/-- A call can only end as not connected.  It does so when it hands in its frame,
unless its caller goes away. -/
structure Refuses (course : Course) (number : Nat) : Prop where
  ends : ∀ turns, .submit number ∈ turns → .abandon number ∉ turns →
    (course.run turns).session.calls[number]? = some (.finished (.error .notConnected))
  only : ∀ turns outcome, (course.run turns).session.calls[number]? = some (.finished outcome) →
    outcome = .error .notConnected

theorem Gone.refuses {course : Course} (gone : course.Gone) {number : Nat} {outgoing : Outgoing}
    (submitting : course.session.calls[number]? = some (.submitting outgoing)) :
    course.Refuses number where
  ends turns submits stays := by
    have refusal := gone.refusal_run submitting turns
    generalize (course.run turns).session.calls[number]? = state at refusal ⊢
    cases refusal with
    | submitting pending not_yet => exact absurd submits not_yet
    | refused => rfl
    | abandoned left => exact absurd left stays
  only turns outcome finished := by
    have refusal := gone.refusal_run submitting turns
    rw [finished] at refusal
    cases refusal with
    | refused => rfl

/-- A call that is made now passes its own checks or fails by them; if it passes,
it can only end as not connected. -/
theorem Gone.refuses_call {course : Course} (gone : course.Gone) {request : Request}
    {frame : Frame} (accepted : request.frame = .ok frame) :
    (course.step (.call request)).Refuses course.session.calls.length := by
  have latest := course.session.call_latest request
  simp only [Session.firstState, accepted] at latest
  exact (gone.step (.call request)).refuses latest

section Exits

variable {course : Course}

/-- The requests that wait in the queue when it is dropped end as cancelled. -/
theorem cancelled_of_drop (queues : course.session.Queues) (cancelled : course.phase = .cancelled)
    {frame : Frame} {call : Nat} (waiting : .answered frame call ∈ course.session.outbound)
    (after : List Turn) :
    (course.session.calls[call]? = some .queued ∧
        ((course.step .drop).run after).session.calls[call]? =
          some (.finished (.error .cancelled))) ∨
      course.session.calls[call]? = some .abandoned := by
  refine (queues.waits frame call waiting).imp_left fun queued => ⟨queued, ?_⟩
  have ended : (course.step .drop).session.calls[call]? =
      some (.finished (.error .cancelled)) := by
    rw [calls_drop cancelled]
    exact Session.foldl_droppedCalls_of_queued queued waiting
  exact calls_run_of_ended ended trivial after

/-- The transactions that are in the table at the exit are cancelled, and no others
are. -/
theorem cancelled_iff_waits (traced : course.session.Traced) (leaving : course.phase = .leaving)
    {number : Nat} (fresh : course.session.ledger.stateOf number ≠ some .cancelled)
    {turns : List Turn} {state : TransactionState}
    (settled : ((course.step .cancel).run turns).session.ledger.stateOf number = some state)
    (terminal : state ≠ .pending) :
    state = .cancelled ↔ course.session.ledger.stateOf number = some .pending ∧
      number ∉ course.session.overdue := by
  have closed := Closed.of_cancel traced leaving
  have before : course.session.ledger.stateOf number ≠ none := by
    refine Ledger.stateOf_ne_none_of_keys ?_ (Option.ne_none_iff_exists'.2 ⟨state, settled⟩)
    rw [(closed.run turns).2]
    simp only [step, if_pos leaving, Ledger.keys_cancelAll]
  rcases traced.orderly.mem_table_or_left before with inside | left
  · -- It is cancelled with the others, and keeps this outcome.
    have pending := (traced.orderly.pending_iff number).2 (.inl inside)
    have cancelled : (course.step .cancel).session.ledger.stateOf number = some .cancelled := by
      simp only [step, if_pos leaving]
      rw [Ledger.stateOf_cancelAll, if_pos ⟨inside, pending⟩]
    rw [closed.traced.stateOf (advances_run _ turns) cancelled (by decide)] at settled
    refine iff_of_true (Option.some.inj settled).symm ⟨pending, fun overdue => ?_⟩
    exact traced.orderly.notMem_table_of_overdue overdue inside
  · rcases left with ⟨earlier, already, ended⟩ | overdue
    · have kept := traced.stateOf (course.advances_run (.cancel :: turns)) already ended
      obtain rfl := Option.some.inj (kept.symm.trans settled)
      refine iff_of_false (fun same => fresh (same ▸ already)) fun both => ?_
      rw [already] at both
      exact ended (Option.some.inj both.1)
    · obtain rfl := eq_timedOut_of_settled traced overdue (.cancel :: turns) settled terminal
      exact iff_of_false (by decide) fun both => both.2 overdue

variable {config : SessionConfig} {prototypes : PrototypeTable} {before rest : List Turn}
variable {number call : Nat} {frame : Frame}

theorem closed_since_cancel (leaving : ((start config prototypes).run before).phase = .leaving) :
    ((start config prototypes).run (before ++ .cancel :: rest)).Closed := by
  have traced := ((kept_start config prototypes).run before).traced
  rw [run_cut]
  exact ((Closed.of_cancel traced leaving).run rest).1

/-- Since everything has been cancelled, each request that has been taken up has had one
outcome, unless a timer still has to give it up. -/
theorem outcome_since_cancel (leaving : ((start config prototypes).run before).phase = .leaving)
    (known : ((start config prototypes).requests (before ++ .cancel :: rest))[number]? =
      some (frame, call))
    (inTime : number ∉ ((start config prototypes).run (before ++ .cancel :: rest)).session.overdue) :
    ∃ state, (∀ later, (start config prototypes).outcomes number
          (before ++ .cancel :: rest ++ later) = [state]) ∧
      (state = .cancelled ↔
        ((start config prototypes).run before).session.ledger.stateOf number = some .pending ∧
          number ∉ ((start config prototypes).run before).session.overdue) ∧
      (number ∈ ((start config prototypes).run before).session.overdue → state = .timedOut) ∧
      ((start config prototypes).run (before ++ .cancel :: rest)).session.Informs call state := by
  obtain ⟨state, settled⟩ := Option.ne_none_iff_exists'.1 (stateOf_ne_none_of_request known)
  have terminal : state ≠ .pending := fun same =>
    (closed_since_cancel leaving).ne_pending inTime (same ▸ settled)
  have traced := ((kept_start config prototypes).run before).traced
  refine ⟨state, outcomes_append_of_settled settled terminal, ?_, fun overdue => ?_,
    informs_of_request known settled terminal⟩
  · rw [run_cut] at settled
    refine cancelled_iff_waits traced leaving ?_ settled terminal
    exact not_cancelled_run _ (fun _ => by simp [start, Session.start, Ledger.look]) before
      (.inr leaving) number
  · rw [run_append] at settled
    exact eq_timedOut_of_settled traced overdue (.cancel :: rest) settled terminal

/-- A timer that still has to give a request up has taken it out before. -/
theorem overdue_before_cancel (leaving : ((start config prototypes).run before).phase = .leaving)
    (overdue : number ∈
      ((start config prototypes).run (before ++ .cancel :: rest)).session.overdue) :
    number ∈ ((start config prototypes).run before).session.overdue := by
  have traced := ((kept_start config prototypes).run before).traced
  rw [run_cut] at overdue
  have earlier := (Closed.of_cancel traced leaving).mem_overdue_of_run overdue
  simpa only [step, if_pos leaving] using earlier

end Exits

/-- What the engine leaves behind when it has gone.  It has cancelled the
transactions at the exit, and dropped its ends of the queues afterwards. -/
structure Exit (initial exit dropping last : Course) (turns : List Turn) : Prop where
  /-- It has been asked to stop, or no frame could arrive any more. -/
  cause : exit.session.MayHalt
  /-- The registry is empty, and nothing is registered any more. -/
  registry : ∀ later, (last.run later).session.ledger.waiting = [] ∧
    (last.run later).session.ledger.keys = (initial.requests turns).map fun request => request.1.key
  /-- A request that has been taken up, and that no timer still has to give up, has
  had one outcome.  It keeps this outcome, and its caller learns it.  The request has
  been cancelled if and only if it was pending at the exit and no timer had taken it
  out of the table. -/
  outcome : ∀ (number : Nat) frame call, (initial.requests turns)[number]? = some (frame, call) →
    number ∉ last.session.overdue →
      ∃ state, (∀ later, initial.outcomes number (turns ++ later) = [state]) ∧
        (state = .cancelled ↔ exit.session.ledger.stateOf number = some .pending ∧
          number ∉ exit.session.overdue) ∧
        (number ∈ exit.session.overdue → state = .timedOut) ∧ last.session.Informs call state
  /-- A request that a timer still has to give up was overdue at the exit.  It has no
  outcome until this timer gives it up; then it has timed out, and its caller learns
  it. -/
  overdue : ∀ (number : Nat) frame call, (initial.requests turns)[number]? = some (frame, call) →
    number ∈ last.session.overdue →
      number ∈ exit.session.overdue ∧ ∀ later,
        (.giveUp number ∉ later → initial.outcomes number (turns ++ later) = []) ∧
        (.giveUp number ∈ later → initial.outcomes number (turns ++ later) = [.timedOut] ∧
          (last.run later).session.Informs call .timedOut)
  /-- Every request in the queue ends as cancelled, unless its caller has gone
  away. -/
  queued : ∀ frame call, .answered frame call ∈ dropping.session.outbound →
    (dropping.session.calls[call]? = some .queued ∧
        last.session.calls[call]? = some (.finished (.error .cancelled))) ∨
      dropping.session.calls[call]? = some .abandoned
  not_queued : ∀ call : Nat, last.session.calls[call]? ≠ some .queued
  submitting : ∀ (number : Nat) outgoing,
    last.session.calls[number]? = some (.submitting outgoing) → last.Refuses number
  refused : ∀ earlier request frame, request.frame = .ok frame →
    ((last.run earlier).step (.call request)).Refuses (last.run earlier).session.calls.length
  /-- A timer that goes off now finds nothing to take out, and changes nothing. -/
  timers : ∀ later timer,
    ((last.run later).step (.expiry timer)).session.overdue = (last.run later).session.overdue ∧
      ((last.run later).step (.expiry timer)).session.ledger.transactions =
        (last.run later).session.ledger.transactions

/-- When the engine has gone, it has left nothing pending but what was overdue at its
exit, whatever else has happened and whatever may happen. -/
theorem settled_or_overdue_of_gone {config : SessionConfig} {prototypes : PrototypeTable}
    {turns : List Turn} (gone : ((start config prototypes).run turns).phase = .gone) :
    ∃ before between after, turns = before ++ .cancel :: between ++ .drop :: after ∧
      Exit (start config prototypes) ((start config prototypes).run before)
        ((start config prototypes).run (before ++ .cancel :: between))
        ((start config prototypes).run turns) turns := by
  obtain ⟨before, between, after, rfl, leaving, cancelled⟩ := exists_exit rfl gone
  refine ⟨before, between, after, rfl, ?_⟩
  have kept := (kept_start config prototypes).run
  have sinceCancel : before ++ .cancel :: between ++ .drop :: after =
      before ++ .cancel :: (between ++ .drop :: after) := by
    rw [List.append_assoc, List.cons_append]
  have last : ((start config prototypes).run
      (before ++ .cancel :: between ++ .drop :: after)).Gone := by
    refine ⟨?_, gone, (kept _).steady, (kept _).queues⟩
    rw [sinceCancel]
    exact closed_since_cancel leaving
  have linked := (kept (before ++ .cancel :: between ++ .drop :: after)).linked
  rw [List.nil_append] at linked
  exact {
    cause := by
      have steady := (kept before).steady
      simpa only [Steady, leaving] using steady
    registry := by
      intro later
      obtain ⟨stillClosed, keys⟩ := last.closed.run later
      exact ⟨stillClosed.waiting, keys.trans linked.keys⟩
    outcome := by
      rw [sinceCancel]
      exact fun number frame call known => outcome_since_cancel leaving known
    overdue := by
      intro number frame call known overdue
      refine ⟨?_, fun later => ⟨outcomes_append_of_resting overdue, fun given => ?_⟩⟩
      · rw [sinceCancel] at overdue
        exact overdue_before_cancel leaving overdue
      · rw [← run_append]
        exact timedOut_of_given known overdue given
    queued := by
      intro frame call waiting
      rw [run_cut _ (before ++ .cancel :: between)]
      exact cancelled_of_drop (kept _).queues cancelled waiting after
    not_queued := last.not_queued
    submitting := fun _ _ submitting => last.refuses submitting
    refused := fun earlier _ _ accepted => (last.run earlier).refuses_call accepted
    timers := by
      intro later timer
      have nothing := Ledger.wake_of_empty _ timer (last.run later).closed.waiting
      exact ⟨by simp only [step, Session.goOff, nothing, Option.toList_none, List.nil_append],
        Ledger.transactions_wake _ timer⟩ }

/-- The radio hangs up, or the engine is asked to stop, while one request is pending
and another one is overdue.  In both cases a last request is queued after everything
has been cancelled.  The overdue request is given up before the engine leaves, or after
it has gone. -/
theorem settled_or_overdue_of_gone_of_both_causes :
    let ping : Request := { isAnswered := true, key := ⟨.system, 1⟩, payload := .ok [] }
    let version : Request := { isAnswered := true, key := ⟨.system, 2⟩, payload := .ok [] }
    let sent : List Turn := [.call ping, .submit 0, .dequeue, .finishWrite, .wait 5000, .expiry 0,
      .call version, .submit 1, .dequeue, .finishWrite]
    let hungUp : List Turn :=
      sent ++ [.giveUp 0, .outside { toHost := [.ended] } (.ofCapacities 1 1), .read, .call ping,
        .submit 2, .leave, .cancel, .call ping, .submit 3, .drop, .call ping, .submit 4]
    let asked : List Turn := sent ++ [.requestStop, .leave, .cancel, .call ping, .submit 2, .drop,
      .wait 5000, .expiry 1]
    let fresh := start {} {}
    ((fresh.run hungUp).phase = .gone ∧
      (∃ before between after, hungUp = before ++ .cancel :: between ++ .drop :: after ∧
        Exit fresh (fresh.run before) (fresh.run (before ++ .cancel :: between))
          (fresh.run hungUp) hungUp) ∧
      fresh.outcomes 0 hungUp = [.timedOut] ∧ fresh.outcomes 1 hungUp = [.cancelled]) ∧
    ((fresh.run asked).phase = .gone ∧
      (∃ before between after, asked = before ++ .cancel :: between ++ .drop :: after ∧
        Exit fresh (fresh.run before) (fresh.run (before ++ .cancel :: between))
          (fresh.run asked) asked) ∧
      (fresh.run asked).session.overdue = [0] ∧ fresh.outcomes 0 asked = [] ∧
      fresh.outcomes 0 (asked ++ [.giveUp 0]) = [.timedOut] ∧
      fresh.outcomes 1 asked = [.cancelled]) := by
  intro ping version sent hungUp asked fresh
  have goneAfterHangUp : (fresh.run hungUp).phase = .gone := by decide
  have goneAfterRequest : (fresh.run asked).phase = .gone := by decide
  refine ⟨⟨goneAfterHangUp, settled_or_overdue_of_gone goneAfterHangUp, ?_, ?_⟩,
    goneAfterRequest, settled_or_overdue_of_gone goneAfterRequest, ?_, ?_, ?_, ?_⟩
  · decide
  · decide
  · decide
  · decide
  · decide
  · decide

/-- The engine can have gone while a request that it has taken up has no outcome. -/
theorem not_forall_outcome_of_gone :
    ¬ ∀ turns, ((start {} {}).run turns).phase = .gone →
      ∀ (number : Nat) request, ((start {} {}).requests turns)[number]? = some request →
        ∃ state, (start {} {}).outcomes number turns = [state] := by
  intro everything
  let ping : Request := { isAnswered := true, key := ⟨.system, 1⟩, payload := .ok [] }
  -- The timer goes off before the exit, and gives the request up only after it.
  let turns : List Turn := [.call ping, .submit 0, .dequeue, .finishWrite, .wait 5000, .expiry 0,
    .requestStop, .leave, .cancel, .drop]
  have taken : ((start {} {}).requests turns)[0]? = some (⟨.syncRequest, .system, 1, []⟩, 0) := by
    decide
  obtain ⟨state, once⟩ := everything turns (by decide) 0 _ taken
  have nothing : (start {} {}).outcomes 0 turns = [] := by decide
  rw [nothing] at once
  cases once

end Course

end ZigbeeHost
