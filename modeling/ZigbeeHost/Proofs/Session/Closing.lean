import ZigbeeHost.Proofs.Session.Departure
import ZigbeeHost.Proofs.Session.Intake
import ZigbeeHost.Proofs.Session.Routing

/-!
# The end of the stream does not overtake frames

The radio hangs up, or the stream breaks, while frames wait for the engine.  The reader
stops at once, but the engine does not: as long as it has not been asked to stop, it
leaves its loop only when the reader has stopped and the queue between them is empty.
Since frames leave this queue in the order in which they have got into it, the engine
has then handled everything that the reader has forwarded.  In particular, a request
whose response has been forwarded ends with this response, and is not cancelled.
-/

namespace ZigbeeHost

theorem Session.stateOf_route_of_pending (session : Session) {response : Frame} {number : Nat}
    {transaction : Transaction} (kind : response.kind = .syncResponse)
    (ordinary : response.key ≠ .deviceError)
    (found : session.ledger.find? response.key = some number)
    (known : session.ledger.transactions[number]? = some transaction)
    (same : transaction.key = response.key) (pending : transaction.state = .pending) :
    (session.route response).ledger.stateOf number = some .resolved := by
  have ends := ends_settleKey_of_pending found known same pending (.ok response.payload) response
  obtain ⟨settled, alike, -, -, changed, -⟩ := ends.settled
  simp only [route, kind, if_neg ordinary]
  rw [Ledger.stateOf_set alike changed, if_pos rfl]
  rfl

namespace Course

section Handling

variable {course : Course} {turn : Turn} {response : Frame} {number : Nat}

/-- A response that has been handled leaves no transaction waiting under its key. -/
theorem left_of_handled (traced : course.session.Traced)
    (inside : response ∈ course.handled turn) (kind : response.kind = .syncResponse)
    (ordinary : response.key ≠ .deviceError)
    (key : course.session.ledger.keys[number]? = some response.key) :
    (course.step turn).session.Left number := by
  obtain ⟨transaction, known, same⟩ : ∃ transaction,
      course.session.ledger.transactions[number]? = some transaction ∧
        transaction.key = response.key := by
    simpa [Ledger.keys] using key
  have begun : course.session.ledger.stateOf number ≠ none := by
    simp [Ledger.stateOf_of_known known]
  rcases traced.orderly.mem_table_or_left begun with waits | left
  · -- The response ends the transaction that it finds.
    have found := traced.orderly.wellKeyed.find?_of_mem_table waits known
    have pending := (traced.orderly.pending_iff number).2 (.inl waits)
    rw [Ledger.stateOf_of_known known, Option.some.injEq] at pending
    rw [same] at found
    cases course.brings turn with
    | handles frame rest turn_eq serving taken oldest routed =>
        rw [taken, List.mem_singleton] at inside
        subst inside
        have answered := Session.stateOf_route_of_pending { course.session with inbound := rest }
          kind ordinary found known same pending
        exact .inl ⟨.resolved, by rw [routed, answered], by decide⟩
    | rests nobody nothing =>
        rw [nothing] at inside
        cases inside
    | looks turn_eq | forwards frame turn_eq | drops turn_eq | dismisses turn_eq =>
        rw [turn_eq] at inside
        cases inside
  · exact left_step traced left turn

theorem keys_run (course : Course) (turns : List Turn) :
    (course.run turns).session.ledger.keys =
      course.session.ledger.keys ++ (course.requests turns).map fun request => request.1.key := by
  induction turns generalizing course with
  | nil => exact (List.append_nil _).symm
  | cons turn turns ih =>
      rw [requests, List.map_append, ← List.append_assoc, ← keys_step]
      exact ih (course.step turn)

/-- It makes no difference what happens between the request and its response, and after
that. -/
theorem left_of_handled_in_run (traced : course.session.Traced) {turns : List Turn}
    (inside : response ∈ course.along handled turns) (kind : response.kind = .syncResponse)
    (ordinary : response.key ≠ .deviceError)
    (key : course.session.ledger.keys[number]? = some response.key) :
    (course.run turns).session.Left number := by
  obtain ⟨earlier, turn, later, rfl, now⟩ := exists_of_mem_along handled inside
  have before : (course.run earlier).session.Traced :=
    traced.advance (course.advances_run earlier)
  have still : (course.run earlier).session.ledger.keys[number]? = some response.key := by
    rw [keys_run, List.getElem?_append_left (List.getElem?_eq_some_iff.1 key).1, key]
  rw [run_cut]
  exact left_run (before.advance ((course.run earlier).advances_step turn))
    (left_of_handled before now kind ordinary still) later

end Handling

section Leaving

variable {course : Course}

/-- The engine leaves its loop in one turn. -/
theorem exists_leave (serving : course.phase = .serving) {turns : List Turn}
    (left : (course.run turns).phase ≠ .serving) :
    ∃ before after, turns = before ++ .leave :: after ∧ (course.run before).phase = .serving ∧
      (course.run before).session.MayHalt := by
  induction turns using List.reverseRecOn with
  | nil => exact absurd serving left
  | append_singleton turns turn ih =>
      by_cases still : (course.run turns).phase = .serving
      · rw [run_concat] at left
        obtain rfl : turn = .leave := by
          rcases (course.run turns).phase_step turn with
            same | ⟨leaves, -⟩ | ⟨-, leaving, -⟩ | ⟨-, cancelled, -⟩
          · exact absurd (same.trans still) left
          · exact leaves
          · simp [still] at leaving
          · simp [still] at cancelled
        refine ⟨turns, [], rfl, still, ?_⟩
        simp only [step] at left
        split at left
        · rename_i leaves
          obtain ⟨next, halted⟩ := Option.isSome_iff_exists.1 leaves.2
          exact (Session.halt?_eq_some_iff.1 halted).1
        · exact absurd still left
      · obtain ⟨before, after, rfl, rest⟩ := ih still
        exact ⟨before, after ++ [turn], by simp, rest⟩

/-- The engine has cancelled what was in the table when it has left its loop. -/
theorem exists_cancel {number : Nat}
    (fresh : course.session.ledger.stateOf number ≠ some .cancelled) {turns : List Turn}
    (cancelled : (course.run turns).session.ledger.stateOf number = some .cancelled) :
    ∃ before after, turns = before ++ .cancel :: after ∧ (course.run before).phase = .leaving ∧
      number ∈ (course.run before).session.ledger.table := by
  induction turns using List.reverseRecOn with
  | nil => exact absurd cancelled fresh
  | append_singleton turns turn ih =>
      by_cases already : (course.run turns).session.ledger.stateOf number = some .cancelled
      · obtain ⟨before, after, rfl, rest⟩ := ih already
        exact ⟨before, after ++ [turn], by simp, rest⟩
      · rw [run_concat] at cancelled
        rcases cancelled_of_step cancelled with before | ⟨rfl, leaving⟩
        · exact absurd before already
        · refine ⟨turns, [], rfl, leaving, ?_⟩
          simp only [step, if_pos leaving] at cancelled
          rw [Ledger.stateOf_cancelAll] at cancelled
          split at cancelled
          · rename_i waits
            exact waits.1
          · exact absurd cancelled already

theorem stopRequested_run (course : Course) {turns : List Turn} (alive : .requestStop ∉ turns) :
    (course.run turns).session.stopRequested = course.session.stopRequested := by
  induction turns generalizing course with
  | nil => rfl
  | cons turn turns ih =>
      rw [List.mem_cons, not_or] at alive
      exact (ih (course.step turn) alive.2).trans
        ((course.brings turn).stopRequested_eq (Ne.symm alive.1))

theorem forwarded_run_of_stopped (stopped : course.session.reader = .stopped) (turns : List Turn) :
    course.along forwarded turns = [] := by
  induction turns generalizing course with
  | nil => rfl
  | cons turn turns ih =>
      obtain ⟨nobody, still⟩ := (course.brings turn).of_stopped stopped
      rw [along, nobody, ih still]
      rfl

theorem Steady.isRunning (steady : course.Steady) (there : course.phase ≠ .gone) :
    course.session.isRunning = true := by
  have going : course.session.engine ≠ .stopped := by
    cases phase : course.phase with
    | serving => simpa only [Steady, phase] using steady
    | leaving | cancelled =>
        simp only [Steady, phase] at steady
        simp [steady.idle]
    | gone => exact absurd phase there
  cases engine : course.session.engine with
  | stopped => exact absurd engine going
  | idle | writing => simp only [Session.isRunning, engine]

/-- The reader that has stopped has met an error that ends the stream, unless the engine
has gone, and has forwarded nothing since then. -/
theorem exists_failure (steady : course.Steady) (going : course.session.reader ≠ .stopped)
    {turns : List Turn} (stopped : (course.run turns).session.reader = .stopped)
    (there : (course.run turns).phase ≠ .gone) :
    ∃ before cause after, turns = before ++ .read :: after ∧
      (course.run before).session.handing = [.error cause] ∧ cause.isFatal = true ∧
        ∀ later, course.along forwarded (before ++ .read :: later) =
          course.along forwarded before := by
  induction turns using List.reverseRecOn with
  | nil => exact absurd stopped going
  | append_singleton turns turn ih =>
      rw [run_concat] at stopped there
      have still := ne_gone_of_step there
      have earlier (before : (course.run turns).session.reader = .stopped) :
          ∃ before cause after, turns ++ [turn] = before ++ .read :: after ∧
            (course.run before).session.handing = [.error cause] ∧ cause.isFatal = true ∧
              ∀ later, course.along forwarded (before ++ .read :: later) =
                course.along forwarded before := by
        obtain ⟨first, cause, after, rfl, rest⟩ := ih before still
        exact ⟨first, cause, after ++ [turn], by simp, rest⟩
      cases (course.run turns).brings turn with
      | rests nobody nothing inbound reader => exact earlier (reader.symm.trans stopped)
      | handles frame rest same serving taken oldest routed inbound reader =>
          exact earlier (reader.symm.trans stopped)
      | forwards frame same begins passed inbound reader =>
          rw [reader] at stopped
          cases stopped
      | drops same gone => exact absurd gone there
      | dismisses same gone => exact absurd gone still
      | looks same begins nobody inbound cause =>
          obtain ⟨error, handing, fatal⟩ :=
            cause stopped ((steady.run turns).isRunning still)
          refine ⟨turns, error, [], by rw [same], handing, fatal, fun later => ?_⟩
          subst same
          rw [along_append, along, nobody, forwarded_run_of_stopped stopped]
          exact List.append_nil _

end Leaving

section Reached

variable (config : SessionConfig) (prototypes : PrototypeTable)

/-- The frames that have been forwarded have been handled in this order, or wait in the
queue, unless the engine has gone. -/
theorem exists_unhandled (turns : List Turn) :
    ∃ waiting, (start config prototypes).along forwarded turns =
        (start config prototypes).along handled turns ++ waiting ∧
      (((start config prototypes).run turns).phase ≠ .gone →
        ((start config prototypes).run turns).session.inbound = waiting) :=
  exists_queued rfl (fun _ turn => (brings _ turn).inbound_eq)
    (fun _ turn => (brings _ turn).handled_of_gone) turns

/-- The engine that leaves its loop unasked has handled everything that has been
forwarded. -/
theorem exists_closing {turns : List Turn} (alive : .requestStop ∉ turns)
    (left : ((start config prototypes).run turns).phase ≠ .serving) :
    ∃ before cause between after, turns = before ++ .read :: between ++ .leave :: after ∧
      ((start config prototypes).run before).session.handing = [.error cause] ∧
      cause.isFatal = true ∧
      ((start config prototypes).run (before ++ .read :: between)).phase = .serving ∧
      (start config prototypes).along handled (before ++ .read :: between) =
        (start config prototypes).along forwarded before ∧
      ∀ later, (start config prototypes).along forwarded (before ++ .read :: later) =
        (start config prototypes).along forwarded before := by
  obtain ⟨earlier, after, rfl, serving, mayHalt⟩ := exists_leave rfl left
  have unasked : ((start config prototypes).run earlier).session.stopRequested = false :=
    stopRequested_run _ fun asked => alive (List.mem_append_left _ asked)
  obtain ⟨stopped, empty⟩ := mayHalt.cause.resolve_left (by simp [unasked])
  have there : ((start config prototypes).run earlier).phase ≠ .gone := by simp [serving]
  obtain ⟨before, cause, between, rfl, handing, fatal, last⟩ :=
    exists_failure (steady_start config prototypes) (by simp [start, Session.start]) stopped there
  refine ⟨before, cause, between, after, rfl, handing, fatal, serving, ?_, last⟩
  obtain ⟨waiting, whole, same⟩ := exists_unhandled config prototypes (before ++ .read :: between)
  rw [← last between, whole, ← same there, empty, List.append_nil]

/-- Nothing is forwarded any more when the engine has left its loop, and nothing has been
left unhandled. -/
theorem handled_eq_forwarded_of_left {turns : List Turn} (alive : .requestStop ∉ turns)
    (left : ((start config prototypes).run turns).phase ≠ .serving) (later : List Turn) :
    (start config prototypes).along handled turns =
      (start config prototypes).along forwarded (turns ++ later) := by
  obtain ⟨before, cause, between, after, rfl, -, -, -, complete, last⟩ :=
    exists_closing config prototypes alive left
  obtain ⟨waiting, whole, -⟩ :=
    exists_unhandled config prototypes (before ++ .read :: between ++ .leave :: after)
  have since (later : List Turn) : (start config prototypes).along forwarded
      (before ++ .read :: between ++ .leave :: after ++ later) =
        (start config prototypes).along forwarded before := by
    rw [List.append_assoc, List.append_assoc, List.cons_append]
    exact last _
  have now := since []
  rw [List.append_nil, whole, along_append, complete, List.append_assoc,
    List.append_right_eq_self, List.append_eq_nil_iff] at now
  rw [since, along_append, complete, now.1, List.append_nil]

variable {config prototypes}

/-- A request whose response has been forwarded, and had not been handled when the request
was taken up, is not cancelled. -/
theorem not_cancelled_of_forwarded {before between : List Turn}
    (alive : .requestStop ∉ before ++ between) {number call position : Nat}
    {asked response : Frame}
    (taken : ((start config prototypes).requests before)[number]? = some (asked, call))
    (arrived : ((start config prototypes).along forwarded (before ++ between))[position]? =
      some response)
    (later : ((start config prototypes).along handled before).length ≤ position)
    (kind : response.kind = .syncResponse) (ordinary : response.key ≠ .deviceError)
    (matching : response.key = asked.key) :
    ((start config prototypes).run (before ++ between)).session.ledger.stateOf number ≠
      some .cancelled := by
  intro cancelled
  have traced (turns : List Turn) := ((kept_start config prototypes).run turns).traced
  obtain ⟨exit, rest, split, leaving, waits⟩ :=
    exists_cancel (by simp [start, Session.start, Ledger.look]) cancelled
  have complete : (start config prototypes).along handled exit =
      (start config prototypes).along forwarded (before ++ between) := by
    rw [split]
    refine handled_eq_forwarded_of_left config prototypes ?_ (by simp [leaving]) _
    exact fun asked => alive (split ▸ List.mem_append_left _ asked)
  rw [← complete] at arrived
  -- The response has been handled at the exit, so the request came before it.
  rcases List.append_eq_append_iff.1 split with ⟨mid, rfl, -⟩ | ⟨mid, rfl, -⟩
  · rw [along_append, List.getElem?_append_right later] at arrived
    have known : ((start config prototypes).run before).session.ledger.keys[number]? =
        some response.key := by
      have keys := (start config prototypes).keys_run before
      rw [keys, matching]
      change (List.map _ _)[number]? = _
      rw [List.getElem?_map, taken]
      rfl
    have left := left_of_handled_in_run (traced before) (List.mem_of_getElem? arrived) kind
      ordinary known
    rw [← run_append] at left
    exact (traced (before ++ mid)).orderly.notMem_table_of_left left waits
  · have inside := (List.getElem?_eq_some_iff.1 arrived).1
    rw [along_append, List.length_append] at later
    omega

/-- The queue between the reader and the engine. -/
structure Closing (initial last : Course) (turns : List Turn) : Prop where
  in_order : initial.along handled turns <+: initial.along forwarded turns
  waiting : last.phase ≠ .gone →
    initial.along forwarded turns = initial.along handled turns ++ last.session.inbound
  /-- The engine leaves its loop after the reader has met an error that ends the stream,
  and after it has handled everything that the reader had forwarded by then.  The reader
  forwards nothing more. -/
  closed : last.phase ≠ .serving →
    ∃ before cause between after, turns = before ++ .read :: between ++ .leave :: after ∧
      (initial.run before).session.handing = [.error cause] ∧ cause.isFatal = true ∧
      (initial.run (before ++ .read :: between)).phase = .serving ∧
      initial.along handled (before ++ .read :: between) = initial.along forwarded before ∧
      initial.along forwarded turns = initial.along forwarded before
  /-- A request is not cancelled if its response has been forwarded and was not handled
  before the request was taken up. -/
  answered : ∀ before between (number : Nat) asked call (position : Nat) response,
    turns = before ++ between →
    (initial.requests before)[number]? = some (asked, call) →
    (initial.along forwarded turns)[position]? = some response →
    (initial.along handled before).length ≤ position →
    response.kind = .syncResponse → response.key ≠ .deviceError → response.key = asked.key →
      .cancelled ∉ initial.outcomes number turns ∧
        last.session.calls[call]? ≠ some (.finished (.error .cancelled))

/-- As long as nobody asks the engine to stop, the end of the stream does not overtake
what has been read before it, whatever else happens. -/
theorem closing_run {turns : List Turn} (alive : .requestStop ∉ turns) :
    Closing (start config prototypes) ((start config prototypes).run turns) turns where
  in_order := by
    obtain ⟨waiting, whole, -⟩ := exists_unhandled config prototypes turns
    exact ⟨waiting, whole.symm⟩
  waiting there := by
    obtain ⟨waiting, whole, same⟩ := exists_unhandled config prototypes turns
    rw [whole, same there]
  closed left := by
    obtain ⟨before, cause, between, after, rfl, handing, fatal, serving, complete, last⟩ :=
      exists_closing config prototypes alive left
    refine ⟨before, cause, between, after, rfl, handing, fatal, serving, complete, ?_⟩
    rw [List.append_assoc, List.cons_append]
    exact last _
  answered before between number asked call position response split taken arrived later kind
      ordinary matching := by
    subst split
    have kept := (kept_start config prototypes).run (before ++ between)
    have other := not_cancelled_of_forwarded alive taken arrived later kind ordinary matching
    constructor
    · intro cancelled
      have once := outcomes_run (kept_start config prototypes).traced number (before ++ between)
      have inside : .cancelled ∈ TransactionState.outcomes
          (((start config prototypes).run (before ++ between)).session.ledger.stateOf number) := by
        rw [← once]
        exact List.mem_append_right _ cancelled
      exact other (TransactionState.eq_of_mem_outcomes inside)
    · intro ended
      have still : ((start config prototypes).requests (before ++ between))[number]? =
          some (asked, call) := by
        rw [requests_eq_along] at taken ⊢
        rw [along_append, List.getElem?_append_left (List.getElem?_eq_some_iff.1 taken).1, taken]
      cases kept.linked.served number asked call still with
      | awaits awaiting => simp [ended] at awaiting
      | abandoned abandoned => simp [ended] at abandoned
      | finished outcome finished settled =>
          rw [ended] at finished
          cases finished
          exact other settled

/-- The radio answers a ping and hangs up.  The reader has stopped before the engine looks
for a frame, and the engine does not leave before it has handled the answer. -/
theorem closing_run_of_hang_up_after_answer :
    let ping : Request := { isAnswered := true, key := ⟨.system, 1⟩, payload := .ok [] }
    let answer : Frame := ⟨.syncResponse, .system, 1, [0x79, 0x07]⟩
    let asked : List Turn := [.call ping, .submit 0, .dequeue, .finishWrite]
    let ended : List Turn :=
      [.outside { toHost := [.data answer.wireForm, .ended] } (.ofCapacities 1 1), .read, .read,
        .read, .leave, .receive, .leave, .cancel, .drop]
    let fresh := start {} {}
    .requestStop ∉ asked ++ ended ∧ Closing fresh (fresh.run (asked ++ ended)) (asked ++ ended) ∧
      (fresh.run (asked ++ ended)).phase = .gone ∧
      fresh.along forwarded (asked ++ ended) = [answer] ∧
      fresh.outcomes 0 (asked ++ ended) = [.resolved] := by
  intro ping answer asked ended fresh
  have alive : .requestStop ∉ asked ++ ended := by simp [asked, ended]
  refine ⟨alive, closing_run alive, ?_, ?_, ?_⟩
  · decide
  · decide
  · decide

end Reached

end Course

end ZigbeeHost
