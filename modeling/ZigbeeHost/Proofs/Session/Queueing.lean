import ZigbeeHost.Proofs.Session.Turns

/-!
# Who waits in the queue

A request that waits in the queue belongs to one call, and that call knows it:
it waits as well, unless its caller has gone away.  The turns of a session keep
this, so no call is forgotten when the queue is dropped.
-/

namespace ZigbeeHost

/-- The call to which the outcome of a frame goes. -/
def Outgoing.caller : Outgoing → Option Nat
  | .answered _ call => some call
  | .unanswered _ => none

theorem mem_filterMap_caller {queue : List Outgoing} {call : Nat} :
    call ∈ queue.filterMap Outgoing.caller ↔ ∃ frame, .answered frame call ∈ queue := by
  simp only [List.mem_filterMap]
  constructor
  · rintro ⟨outgoing, inside, same⟩
    cases outgoing with
    | answered frame other =>
        obtain rfl := Option.some.inj same
        exact ⟨frame, inside⟩
    | unanswered frame => cases same
  · rintro ⟨frame, inside⟩
    exact ⟨_, inside, rfl⟩

theorem getElem?_set_of_known {calls : List CallState} {number : Nat} {before : CallState}
    (known : calls[number]? = some before) (after : CallState) (other : Nat) :
    (calls.set number after)[other]? = if other = number then some after else calls[other]? := by
  have inside := (List.getElem?_eq_some_iff.1 known).1
  rw [List.getElem?_set]
  by_cases same : number = other
  · simp [same, same ▸ inside]
  · simp [same, Ne.symm same]

/-- A call that waits for nothing in the queue. -/
def CallState.Outside (state : CallState) : Prop :=
  state ≠ .queued ∧ ∀ frame call, state ≠ .submitting (.answered frame call)

/-- What becomes of a call when the queue is dropped. -/
def CallState.dropped : CallState → CallState
  | .queued => .finished (.error .cancelled)
  | other => other

namespace Session

/-- The requests in the queue belong to different calls, which wait in the queue
or have been abandoned, and no other call waits in the queue. -/
structure Queues (session : Session) : Prop where
  own : ∀ (number : Nat) frame call,
    session.calls[number]? = some (.submitting (.answered frame call)) → call = number
  waits : ∀ frame call, .answered frame call ∈ session.outbound →
    session.calls[call]? = some .queued ∨ session.calls[call]? = some .abandoned
  listed : ∀ call : Nat, session.calls[call]? = some .queued →
    ∃ frame, .answered frame call ∈ session.outbound
  distinct : (session.outbound.filterMap Outgoing.caller).Nodup

namespace Queues

variable {session next : Session}

theorem of_same (queues : session.Queues) (calls : next.calls = session.calls)
    (outbound : next.outbound = session.outbound) : next.Queues where
  own := by
    rw [calls]
    exact queues.own
  waits := by
    rw [calls, outbound]
    exact queues.waits
  listed := by
    rw [calls, outbound]
    exact queues.listed
  distinct := by
    rw [outbound]
    exact queues.distinct

/-- A call that does not wait in the queue gets another state, or one that does
is abandoned. -/
theorem of_set (queues : session.Queues) {number : Nat} {before after : CallState}
    (known : session.calls[number]? = some before) (outside : after.Outside)
    (leaves : after = .abandoned ∨ before ≠ .queued ∧ before ≠ .abandoned)
    (calls : next.calls = session.calls.set number after)
    (outbound : next.outbound = session.outbound) : next.Queues := by
  have states := getElem?_set_of_known known after
  rw [← calls] at states
  refine ⟨?_, ?_, ?_, ?_⟩
  · intro other frame call submitting
    rw [states] at submitting
    split at submitting
    · exact absurd (Option.some.inj submitting) (outside.2 frame call)
    · exact queues.own other frame call submitting
  · intro frame call waiting
    rw [outbound] at waiting
    have earlier := queues.waits frame call waiting
    rw [states]
    split
    · rename_i same
      subst same
      rcases leaves with rfl | ⟨notQueued, notAbandoned⟩
      · exact .inr rfl
      · rw [known, Option.some.injEq, Option.some.injEq] at earlier
        exact (earlier.elim notQueued notAbandoned).elim
    · exact earlier
  · intro call queued
    rw [states] at queued
    rw [outbound]
    split at queued
    · exact absurd (Option.some.inj queued) outside.1
    · exact queues.listed call queued
  · rw [outbound]
    exact queues.distinct

theorem call (queues : session.Queues) (request : Request) : (session.call request).Queues := by
  refine ⟨?_, ?_, ?_, queues.distinct⟩
  · intro number frame call submitting
    rcases session.call_cases submitting with earlier | ⟨-, first⟩
    · exact queues.own number frame call earlier
    · simp only [firstState] at first
      split at first
      · cases first
      · split at first
        · cases first
          rfl
        · cases first
  · intro frame call waiting
    exact (queues.waits frame call waiting).imp session.call_of_known session.call_of_known
  · intro call queued
    rcases session.call_cases queued with earlier | ⟨-, first⟩
    · exact queues.listed call earlier
    · simp only [firstState] at first
      split at first <;> cases first

theorem submit (queues : session.Queues) {number : Nat}
    (stepped : session.submit? number = some next) : next.Queues := by
  obtain ⟨outgoing, submitting, ⟨-, refused⟩ | ⟨-, -, accepted⟩⟩ := submit?_cases stepped
  · subst refused
    exact queues.of_set submitting ⟨by simp, by simp⟩ (.inr ⟨by simp, by simp⟩) rfl rfl
  · subst accepted
    have states := getElem?_set_of_known submitting (queuedState outgoing)
    cases outgoing with
    | unanswered frame =>
        -- The call is finished, and nobody waits for the frame.
        have finished : { session with
            calls := session.calls.set number (.finished (.ok [])) }.Queues :=
          queues.of_set submitting ⟨by simp, by simp⟩ (.inr ⟨by simp, by simp⟩) rfl rfl
        refine ⟨finished.own, ?_, ?_, ?_⟩
        · intro other call waiting
          exact finished.waits other call (by simpa using waiting)
        · intro call queued
          obtain ⟨other, waiting⟩ := finished.listed call queued
          exact ⟨other, List.mem_append_left _ waiting⟩
        · have nobody : [Outgoing.unanswered frame].filterMap Outgoing.caller = [] := rfl
          rw [List.filterMap_append, nobody, List.append_nil]
          exact queues.distinct
    | answered frame call =>
        obtain rfl := queues.own _ _ _ submitting
        have fresh (other : Frame) : .answered other call ∉ session.outbound := by
          intro waiting
          have known := queues.waits other call waiting
          rw [submitting] at known
          simp at known
        refine ⟨?_, ?_, ?_, ?_⟩
        · intro number other caller waits
          rw [states] at waits
          split at waits
          · cases waits
          · exact queues.own number other caller waits
        · intro other caller waiting
          rw [states]
          split
          · exact .inl rfl
          · rename_i different
            rcases List.mem_append.1 waiting with earlier | last
            · exact queues.waits other caller earlier
            · cases List.mem_singleton.1 last
              exact absurd rfl different
        · intro caller queued
          rw [states] at queued
          split at queued
          · rename_i same
            exact ⟨frame, by simp [same]⟩
          · obtain ⟨other, waiting⟩ := queues.listed caller queued
            exact ⟨other, List.mem_append_left _ waiting⟩
        · have last : [Outgoing.answered frame call].filterMap Outgoing.caller = [call] := rfl
          rw [List.filterMap_append, last, List.perm_append_comm.nodup_iff]
          refine List.nodup_cons.2 ⟨fun inside => ?_, queues.distinct⟩
          obtain ⟨other, waiting⟩ := mem_filterMap_caller.1 inside
          exact fresh other waiting

/-- The oldest request leaves the queue, and its call waits for a transaction. -/
theorem connect (queues : session.Queues) {frame : Frame} {call : Nat} {rest : List Outgoing}
    (oldest : session.outbound = .answered frame call :: rest) (transaction : Nat)
    (calls : next.calls = session.connectedCalls call transaction)
    (outbound : next.outbound = rest) : next.Queues := by
  have callers : session.outbound.filterMap Outgoing.caller =
      call :: rest.filterMap Outgoing.caller := by
    rw [oldest]
    rfl
  have distinct := queues.distinct
  rw [callers, List.nodup_cons] at distinct
  obtain ⟨once, distinct⟩ := distinct
  have otherCall {frame : Frame} {caller : Nat} (waiting : .answered frame caller ∈ rest) :
      caller ≠ call := by
    rintro rfl
    exact once (mem_filterMap_caller.2 ⟨frame, waiting⟩)
  have stillListed {caller : Nat} (queued : session.calls[caller]? = some .queued)
      (different : caller ≠ call) : ∃ frame, .answered frame caller ∈ rest := by
    obtain ⟨frame, waiting⟩ := queues.listed caller queued
    rw [oldest] at waiting
    refine ⟨frame, (List.mem_cons.1 waiting).resolve_left ?_⟩
    rintro same
    cases same
    exact different rfl
  have stillWaits (frame : Frame) (caller : Nat) (waiting : .answered frame caller ∈ rest) :=
    queues.waits frame caller (oldest ▸ List.mem_cons_of_mem _ waiting)
  rw [← outbound] at distinct otherCall stillListed stillWaits
  -- If the caller has gone away, the request is taken up all the same.
  rcases queues.waits frame call (by simp [oldest]) with queued | abandoned
  · have states := getElem?_set_of_known queued (.awaiting transaction)
    simp only [connectedCalls, queued] at calls
    rw [← calls] at states
    refine ⟨?_, ?_, ?_, distinct⟩
    · intro number other caller submitting
      rw [states] at submitting
      split at submitting
      · cases submitting
      · exact queues.own number other caller submitting
    · intro other caller waiting
      rw [states, if_neg (otherCall waiting)]
      exact stillWaits other caller waiting
    · intro caller stillQueued
      rw [states] at stillQueued
      split at stillQueued
      · cases stillQueued
      · rename_i different
        exact stillListed stillQueued different
  · simp only [connectedCalls, abandoned] at calls
    rw [← calls] at abandoned stillListed stillWaits
    refine ⟨calls ▸ queues.own, stillWaits, ?_, distinct⟩
    intro caller queued
    refine stillListed queued ?_
    rintro rfl
    rw [abandoned] at queued
    cases queued

theorem dequeue (queues : session.Queues) (stepped : session.dequeue? = some next) :
    next.Queues := by
  obtain ⟨-, ⟨frame, call, rest, oldest, accepted⟩ | ⟨frame, rest, oldest, written⟩⟩ :=
    dequeue?_cases stepped
  · obtain ⟨ledger, engine, scope, -⟩ :=
      accept_scope { session with outbound := rest } frame call
    rw [scope] at accepted
    subst accepted
    exact queues.connect oldest session.ledger.transactions.length rfl rfl
  · subst written
    refine ⟨queues.own, ?_, ?_, ?_⟩
    · intro other call waiting
      exact queues.waits other call (oldest ▸ List.mem_cons_of_mem _ waiting)
    · intro call queued
      obtain ⟨other, waiting⟩ := queues.listed call queued
      rw [oldest] at waiting
      exact ⟨other, (List.mem_cons.1 waiting).resolve_left nofun⟩
    · have distinct := queues.distinct
      rwa [oldest] at distinct

/-- When the queue is dropped, the calls that wait in it end as cancelled, and
no other call is concerned. -/
theorem calls_dropOutbound (queues : session.Queues) (number : Nat) :
    session.dropOutbound.calls[number]? = session.calls[number]?.map CallState.dropped := by
  rw [dropOutbound_scope]
  by_cases queued : session.calls[number]? = some .queued
  · obtain ⟨frame, waiting⟩ := queues.listed number queued
    rw [queued]
    exact foldl_droppedCalls_of_queued queued waiting
  · refine (foldl_droppedCalls_of_not_queued session.outbound queued).trans ?_
    cases known : session.calls[number]? with
    | none => rfl
    | some state =>
        cases state with
        | queued => exact absurd known queued
        | _ => rfl

theorem dropOutbound (queues : session.Queues) : session.dropOutbound.Queues := by
  have empty : session.dropOutbound.outbound = [] := by rw [dropOutbound_scope]
  refine ⟨?_, ?_, ?_, ?_⟩
  · intro number frame call submitting
    rw [queues.calls_dropOutbound] at submitting
    obtain ⟨before, known, same⟩ := Option.map_eq_some_iff.1 submitting
    cases before with
    | submitting outgoing =>
        cases same
        exact queues.own number frame call known
    | _ => cases same
  · intro frame call waiting
    rw [empty] at waiting
    cases waiting
  · intro call queued
    rw [queues.calls_dropOutbound] at queued
    obtain ⟨before, -, same⟩ := Option.map_eq_some_iff.1 queued
    cases before <;> cases same
  · rw [empty]
    exact List.nodup_nil

theorem collect (queues : session.Queues) {number : Nat}
    (stepped : session.collect? number = some next) : next.Queues := by
  obtain ⟨transaction, outcome, ledger, awaiting, -, rfl⟩ := collect?_cases stepped
  exact queues.of_set awaiting ⟨by simp, by simp⟩ (.inr ⟨by simp, by simp⟩) rfl rfl

theorem abandon (queues : session.Queues) (number : Nat) : (session.abandon number).Queues := by
  have outside : CallState.abandoned.Outside := ⟨by simp, by simp⟩
  rcases session.abandon_cases number with
    same | ⟨⟨outgoing, submitting⟩ | queued, left⟩ | ⟨transaction, awaiting, left⟩
  · rwa [same]
  · rw [left]
    exact queues.of_set submitting outside (.inl rfl) rfl rfl
  · rw [left]
    exact queues.of_set queued outside (.inl rfl) rfl rfl
  · rw [left]
    exact queues.of_set awaiting outside (.inl rfl) rfl rfl

theorem read (queues : session.Queues) (stepped : session.read? = some next) : next.Queues := by
  rcases read?_cases stepped with ⟨frame, -, forwarded⟩ | ⟨-, _, _, _, _, rfl⟩
  · rcases forward?_cases forwarded with ⟨-, rfl⟩ | ⟨-, -, rfl⟩
    · exact queues.of_same rfl rfl
    · exact queues.of_same rfl rfl
  · exact queues.of_same rfl rfl

theorem receive (queues : session.Queues) (stepped : session.receive? = some next) :
    next.Queues := by
  obtain ⟨-, frame, rest, -, rfl⟩ := receive?_cases stepped
  obtain ⟨ledger, dispatcher, scope⟩ := route_scope { session with inbound := rest } frame
  rw [scope]
  exact queues.of_same rfl rfl

theorem finishWrite (queues : session.Queues) (stepped : session.finishWrite? = some next) :
    next.Queues := by
  obtain ⟨frame, transaction, -, ⟨pipe, -, rfl⟩ | ⟨cause, -, rfl⟩⟩ := finishWrite?_cases stepped
  · exact queues.of_same rfl rfl
  · obtain ⟨ledger, dispatcher, scope⟩ :=
      failWrite_scope { session with engine := .idle } transaction cause
    rw [scope]
    exact queues.of_same rfl rfl

end Queues

end Session

namespace Course

theorem queues_start (config : SessionConfig) (prototypes : PrototypeTable) :
    (start config prototypes).session.Queues where
  own _ _ _ := nofun
  waits _ _ := nofun
  listed _ := nofun
  distinct := List.nodup_nil

theorem queues_step {course : Course} (queues : course.session.Queues) (turn : Turn) :
    (course.step turn).session.Queues := by
  have tried {next : Option Session}
      (kept : ∀ session, next = some session → session.Queues) :
      (course.attempt next).session.Queues :=
    attempt_induction (motive := fun later => later.session.Queues) queues kept
  have served {next : Option Session}
      (kept : ∀ session, next = some session → session.Queues) :
      (course.serve next).session.Queues :=
    serve_induction (motive := fun later => later.session.Queues) queues
      fun session _ => kept session
  cases turn with
  | call request => exact queues.call request
  | submit number => exact tried fun _ => queues.submit
  | collect number => exact tried fun _ => queues.collect
  | abandon number => exact queues.abandon number
  | read => exact tried fun _ => queues.read
  | outside pipe dispatcher => exact queues.of_same rfl rfl
  | expiry timer => exact queues.of_same rfl rfl
  | giveUp number => exact queues.of_same rfl rfl
  | wait milliseconds => exact queues.of_same rfl rfl
  | requestStop => exact queues.of_same rfl rfl
  | receive => exact served fun _ => queues.receive
  | dequeue => exact served fun _ => queues.dequeue
  | finishWrite => exact served fun _ => queues.finishWrite
  | leave =>
      simp only [step]
      split <;> exact queues
  | cancel =>
      simp only [step]
      split
      · exact queues.of_same rfl rfl
      · exact queues
  | drop =>
      simp only [step]
      split
      · have stopped : { course.session with engine := .stopped, inbound := [] }.Queues :=
          queues.of_same rfl rfl
        exact stopped.dropOutbound
      · exact queues
  | dismiss =>
      simp only [step]
      split
      · exact queues.of_same rfl rfl
      · exact queues

theorem queues_run {course : Course} (queues : course.session.Queues) (turns : List Turn) :
    (course.run turns).session.Queues := by
  induction turns generalizing course with
  | nil => exact queues
  | cons turn turns ih => exact ih (queues_step queues turn)

end Course

end ZigbeeHost
