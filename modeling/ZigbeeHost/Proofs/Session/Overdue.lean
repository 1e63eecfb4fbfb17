import ZigbeeHost.Proofs.Session.Settlement

/-!
# What has left the table

A timer that goes off takes its transaction out of the table, and later it gives
the transaction up.  In between the transaction is overdue: it has no outcome,
whatever else happens, and then it has timed out.  A transaction that has left
the table, because it is overdue or because it has had its outcome, never gets
back.
-/

namespace ZigbeeHost

namespace Session

/-- A transaction has left the table: it has had its outcome, or it is overdue. -/
def Left (session : Session) (number : Nat) : Prop :=
  (∃ state, session.ledger.stateOf number = some state ∧ state ≠ .pending) ∨
    number ∈ session.overdue

namespace Orderly

variable {session : Session} {number : Nat}

theorem notMem_table_of_left (orderly : session.Orderly) (left : session.Left number) :
    number ∉ session.ledger.table := by
  rcases left with ⟨state, settled, terminal⟩ | overdue
  · intro inside
    have pending := (orderly.pending_iff number).2 (.inl inside)
    rw [settled] at pending
    exact terminal (Option.some.inj pending)
  · exact orderly.notMem_table_of_overdue overdue

/-- A transaction that has begun is in the table, or it has left it. -/
theorem mem_table_or_left (orderly : session.Orderly)
    (known : session.ledger.stateOf number ≠ none) :
    number ∈ session.ledger.table ∨ session.Left number := by
  obtain ⟨state, stateEq⟩ := Option.ne_none_iff_exists'.1 known
  by_cases pending : state = .pending
  · subst pending
    exact ((orderly.pending_iff number).1 stateEq).imp_right .inr
  · exact .inr (.inl ⟨state, stateEq, pending⟩)

end Orderly

end Session

namespace Course

variable {course : Course} {turn : Turn} {number : Nat}

/-- Only timers concern the overdue transactions. -/
theorem overdue_cases (course : Course) (turn : Turn) :
    (∃ timer, turn = .expiry timer) ∨ (∃ number, turn = .giveUp number) ∨
      (course.step turn).session.overdue = course.session.overdue := by
  have tried {next : Option Session}
      (same : ∀ session, next = some session → session.overdue = course.session.overdue) :
      (course.attempt next).session.overdue = course.session.overdue :=
    attempt_induction (motive := fun later => later.session.overdue = course.session.overdue) rfl
      same
  have served {next : Option Session}
      (same : ∀ session, next = some session → session.overdue = course.session.overdue) :
      (course.serve next).session.overdue = course.session.overdue :=
    serve_induction (motive := fun later => later.session.overdue = course.session.overdue) rfl
      fun session _ => same session
  cases turn with
  | expiry timer => exact .inl ⟨timer, rfl⟩
  | giveUp number => exact .inr (.inl ⟨number, rfl⟩)
  | call | outside | wait | requestStop => exact .inr (.inr rfl)
  | submit number =>
      refine .inr (.inr (tried fun next stepped => ?_))
      obtain ⟨outgoing, -, ⟨-, rfl⟩ | ⟨-, -, rfl⟩⟩ := Session.submit?_cases stepped <;> rfl
  | collect number =>
      refine .inr (.inr (tried fun next stepped => ?_))
      obtain ⟨transaction, outcome, ledger, -, -, rfl⟩ := Session.collect?_cases stepped
      rfl
  | abandon number =>
      obtain ⟨ledger, calls, left⟩ := course.session.abandon_scope number
      exact .inr (.inr (by simp only [step, left]))
  | read =>
      refine .inr (.inr (tried fun next stepped => ?_))
      rcases Session.read?_cases stepped with ⟨frame, -, forwarded⟩ | ⟨-, _, _, _, _, rfl⟩
      · rcases Session.forward?_cases forwarded with ⟨-, rfl⟩ | ⟨-, -, rfl⟩ <;> rfl
      · rfl
  | receive =>
      refine .inr (.inr (served fun next stepped => ?_))
      obtain ⟨-, frame, rest, -, rfl⟩ := Session.receive?_cases stepped
      obtain ⟨ledger, dispatcher, scope⟩ :=
        Session.route_scope { course.session with inbound := rest } frame
      rw [scope]
  | dequeue =>
      refine .inr (.inr (served fun next stepped => ?_))
      obtain ⟨-, ⟨frame, call, rest, -, rfl⟩ | ⟨frame, rest, -, rfl⟩⟩ :=
        Session.dequeue?_cases stepped
      · obtain ⟨ledger, engine, scope, -⟩ :=
          Session.accept_scope { course.session with outbound := rest } frame call
        rw [scope]
      · rfl
  | finishWrite =>
      refine .inr (.inr (served fun next stepped => ?_))
      obtain ⟨frame, transaction, -, ⟨pipe, -, rfl⟩ | ⟨cause, -, rfl⟩⟩ :=
        Session.finishWrite?_cases stepped
      · rfl
      · obtain ⟨ledger, dispatcher, scope⟩ :=
          Session.failWrite_scope { course.session with engine := .idle } transaction cause
        rw [scope]
  | leave | cancel | dismiss =>
      refine .inr (.inr ?_)
      simp only [step]
      split <;> rfl
  | drop =>
      refine .inr (.inr ?_)
      simp only [step]
      split
      · rw [Session.dropOutbound_scope]
      · rfl

theorem mem_overdue_step (overdue : number ∈ course.session.overdue)
    (other : turn ≠ .giveUp number) : number ∈ (course.step turn).session.overdue := by
  rcases course.overdue_cases turn with ⟨timer, rfl⟩ | ⟨given, rfl⟩ | same
  · exact List.mem_append_right _ overdue
  · have different : number ≠ given := fun same => other (same ▸ rfl)
    exact (List.mem_erase_of_ne different).2 overdue
  · rwa [same]

/-- As long as its timer rests, a transaction stays overdue. -/
theorem mem_overdue_run (overdue : number ∈ course.session.overdue) {turns : List Turn}
    (resting : .giveUp number ∉ turns) : number ∈ (course.run turns).session.overdue := by
  induction turns generalizing course with
  | nil => exact overdue
  | cons turn turns ih =>
      rw [List.mem_cons, not_or] at resting
      exact ih (mem_overdue_step overdue (Ne.symm resting.1)) resting.2

theorem timedOut_step (traced : course.session.Traced)
    (overdue : number ∈ course.session.overdue) :
    (course.step (.giveUp number)).session.ledger.stateOf number = some .timedOut := by
  simp only [step, Session.giveUp, if_pos overdue]
  exact Ledger.stateOf_timeOut _ _ ((traced.orderly.pending_iff number).2 (.inr overdue))

/-- Once its timer has given it up, an overdue transaction has timed out. -/
theorem timedOut_run (traced : course.session.Traced) (overdue : number ∈ course.session.overdue)
    {turns : List Turn} (given : .giveUp number ∈ turns) :
    (course.run turns).session.ledger.stateOf number = some .timedOut := by
  induction turns generalizing course with
  | nil => cases given
  | cons turn turns ih =>
      have next := traced.advance (course.advances_step turn)
      by_cases now : turn = .giveUp number
      · subst now
        exact next.stateOf (advances_run _ turns) (timedOut_step traced overdue) (by decide)
      · have later := (List.mem_cons.1 given).resolve_left (Ne.symm now)
        exact ih next (mem_overdue_step overdue now) later

/-- The only outcome that an overdue transaction can have. -/
theorem eq_timedOut_of_settled (traced : course.session.Traced)
    (overdue : number ∈ course.session.overdue) (turns : List Turn) {state : TransactionState}
    (settled : (course.run turns).session.ledger.stateOf number = some state)
    (terminal : state ≠ .pending) : state = .timedOut := by
  by_cases given : .giveUp number ∈ turns
  · rw [timedOut_run traced overdue given] at settled
    exact (Option.some.inj settled).symm
  · have later := (traced.advance (course.advances_run turns)).orderly
    have pending := (later.pending_iff number).2 (.inr (mem_overdue_run overdue given))
    rw [settled] at pending
    exact absurd (Option.some.inj pending) terminal

/-- What has left the table stays outside. -/
theorem left_step (traced : course.session.Traced) (left : course.session.Left number)
    (turn : Turn) : (course.step turn).session.Left number := by
  rcases left with ⟨state, settled, terminal⟩ | overdue
  · exact .inl ⟨state, traced.stateOf (course.advances_step turn) settled terminal, terminal⟩
  · by_cases given : turn = .giveUp number
    · subst given
      exact .inl ⟨.timedOut, timedOut_step traced overdue, by decide⟩
    · exact .inr (mem_overdue_step overdue given)

theorem left_run (traced : course.session.Traced) (left : course.session.Left number)
    (turns : List Turn) : (course.run turns).session.Left number := by
  induction turns generalizing course with
  | nil => exact left
  | cons turn turns ih =>
      exact ih (traced.advance (course.advances_step turn)) (left_step traced left turn)

section Requested

variable {config : SessionConfig} {prototypes : PrototypeTable} {turns later : List Turn}

/-- As long as its timer rests, an overdue request has no outcome. -/
theorem outcomes_append_of_resting
    (overdue : number ∈ ((start config prototypes).run turns).session.overdue)
    (resting : .giveUp number ∉ later) :
    (start config prototypes).outcomes number (turns ++ later) = [] := by
  have still := mem_overdue_run overdue resting
  rw [← run_append] at still
  have traced := ((kept_start config prototypes).run (turns ++ later)).traced
  rw [outcomes_start, (traced.orderly.pending_iff number).2 (.inr still)]
  rfl

/-- Once its timer has given it up, the request has timed out, and its caller learns
it. -/
theorem timedOut_of_given {frame : Frame} {call : Nat}
    (known : ((start config prototypes).requests turns)[number]? = some (frame, call))
    (overdue : number ∈ ((start config prototypes).run turns).session.overdue)
    (given : .giveUp number ∈ later) :
    (start config prototypes).outcomes number (turns ++ later) = [.timedOut] ∧
      ((start config prototypes).run (turns ++ later)).session.Informs call .timedOut := by
  have settled :=
    timedOut_run ((kept_start config prototypes).run turns).traced overdue given
  rw [← run_append] at settled
  have still : ((start config prototypes).requests (turns ++ later))[number]? =
      some (frame, call) := by
    rw [requests_append, List.getElem?_append_left (List.getElem?_eq_some_iff.1 known).1, known]
  have once := outcomes_append_of_settled settled (by decide) []
  rw [List.append_nil] at once
  exact ⟨once, informs_of_request still settled (by decide)⟩

end Requested

end Course

end ZigbeeHost
