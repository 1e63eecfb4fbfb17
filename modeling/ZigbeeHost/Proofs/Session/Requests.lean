import ZigbeeHost.Proofs.Transaction.ExactlyOnce
import ZigbeeHost.Proofs.Transaction.Waning
import ZigbeeHost.Session.Engine

/-!
# Taking a request up

A request begins a transaction.  What becomes of the session then depends on the
key alone: if another transaction waits under it, the new one fails at once;
otherwise it is registered and gets its timer, and its frame is to be written.
The two equations below say so for the session as a whole.
-/

namespace ZigbeeHost

theorem Reply.Unspent.ne_delivered {reply : Reply} (unspent : reply.Unspent) (outcome : Outcome) :
    reply ≠ .delivered outcome := by
  rintro rfl
  rcases unspent with waiting | dropped
  · cases waiting
  · cases dropped

namespace Ledger

variable {ledger next : Ledger}

theorem find?_concat {key : CommandKey} {number : Nat} (free : ledger.find? key = none)
    (waiting : next.waiting = ledger.waiting ++ [(key, number)]) :
    next.find? key = some number := by
  simp only [find?, Option.map_eq_none_iff] at free
  simp [find?, waiting, List.find?_append, free]

/-- The ledger with one more transaction, which nobody has registered. -/
def adding (ledger : Ledger) (latest : Transaction) : Ledger :=
  { ledger with transactions := ledger.transactions ++ [latest] }

section Adding

variable (ledger : Ledger) (latest : Transaction)

theorem adding_latest :
    (ledger.adding latest).transactions[ledger.transactions.length]? = some latest :=
  List.getElem?_concat_length

theorem set_adding (later : Transaction) :
    (ledger.adding latest).transactions.set ledger.transactions.length later =
      (ledger.adding later).transactions := by
  simp only [adding, List.set_append_right _ _ (Nat.le_refl _), Nat.sub_self, List.set_cons_zero]

theorem dropReply_adding :
    (ledger.adding latest).dropReply ledger.transactions.length =
      ledger.adding { latest with reply := .dropped } := by
  rw [dropReply_of_known _ _ (ledger.adding_latest latest), set_adding]
  rfl

theorem register_adding_of_waiting {latest : Transaction} {earlier : Nat}
    (taken : ledger.find? latest.key = some earlier) :
    (ledger.adding latest).register ledger.transactions.length =
      .error (.duplicateTransaction latest.key) := by
  have stillTaken : (ledger.adding latest).find? latest.key = some earlier := taken
  simp only [register, adding_latest, stillTaken]

theorem register_adding_of_free {latest : Transaction}
    (free : ledger.find? latest.key = none) :
    (ledger.adding latest).register ledger.transactions.length =
      .ok (adding
        { ledger with
          waiting := ledger.waiting ++ [(latest.key, ledger.transactions.length)] } latest) := by
  have stillFree : (ledger.adding latest).find? latest.key = none := free
  simp only [register, adding_latest, stillFree]
  rfl

theorem resolve_adding {latest : Transaction} (pending : latest.state = .pending)
    (unarmed : latest.timer = none) (outcome : Outcome) :
    ((ledger.adding latest).resolve ledger.transactions.length outcome).2 =
      ledger.adding (latest.settle outcome) := by
  simp only [resolve, adding_latest, if_pos pending, unarmed, set_adding]
  rfl

theorem keepTimer_adding {latest : Transaction} (pending : latest.state = .pending)
    (timer : Nat) :
    (ledger.adding latest).keepTimer ledger.transactions.length timer =
      ledger.adding { latest with timer := some timer } := by
  simp only [keepTimer, adding_latest, if_pos pending, set_adding]
  rfl

/-- A transaction that has just been registered gets a timer of its own. -/
theorem arm_adding {latest : Transaction} (pending : latest.state = .pending) :
    (ledger.adding latest).arm ledger.transactions.length =
      adding
        { ledger with
          timers := ledger.timers ++
            [{ key := latest.key, transaction := ledger.transactions.length,
               deadline := latest.deadline }] }
        { latest with timer := some ledger.timers.length } := by
  simp only [arm, adding_latest]
  exact keepTimer_adding
    { ledger with
      timers := ledger.timers ++
        [{ key := latest.key, transaction := ledger.transactions.length,
           deadline := latest.deadline }] } pending ledger.timers.length

end Adding

end Ledger

namespace Session

/-- The transaction that a request begins. The outcome of a call that has been
abandoned goes nowhere. -/
def newcomer (session : Session) (frame : Frame) (call : Nat) : Transaction where
  key := frame.key
  limit := session.config.limit
  deadline := session.ledger.now + session.config.limit
  reply :=
    match session.calls[call]? with
    | some .queued => .waiting
    | _ => .dropped

section Taken

variable (session : Session) (frame : Frame) (call : Nat)

theorem newcomer_unspent : (session.newcomer frame call).reply.Unspent := by
  simp only [newcomer]
  split
  · exact .inl rfl
  · exact .inr rfl

theorem newcomer_reply_of_queued (queued : session.calls[call]? = some .queued) :
    (session.newcomer frame call).reply = .waiting := by
  simp only [newcomer, queued]

/-- A call waits for the transaction that its request has begun. -/
theorem connectCall_create :
    ∃ calls, { session with
        ledger := (session.ledger.create frame.key session.config.limit).2 }.connectCall call
          session.ledger.transactions.length =
        { session with calls, ledger := session.ledger.adding (session.newcomer frame call) } ∧
      (session.calls[call]? = some .queued →
        calls[call]? = some (.awaiting session.ledger.transactions.length)) := by
  by_cases queued : session.calls[call]? = some .queued
  · refine ⟨session.calls.set call (.awaiting session.ledger.transactions.length), ?_, ?_⟩
    · simp only [connectCall, queued, setCall, newcomer, Ledger.create, Ledger.adding]
    · intro _
      exact List.getElem?_set_self (List.getElem?_eq_some_iff.1 queued).1
  · refine ⟨session.calls, ?_, fun known => absurd known queued⟩
    have dropped := session.ledger.dropReply_adding
      { key := frame.key, limit := session.config.limit,
        deadline := session.ledger.now + session.config.limit }
    simp only [connectCall, newcomer, ← dropped]
    rfl

/-- A request whose key is taken begins a transaction that fails at once. -/
theorem accept_of_waiting {earlier : Nat} (taken : session.ledger.find? frame.key = some earlier) :
    ∃ calls, session.accept frame call =
        { session with
          calls
          ledger := session.ledger.adding
            ((session.newcomer frame call).settle
              (.error (.duplicateTransaction frame.key))) } ∧
      (session.calls[call]? = some .queued →
        calls[call]? = some (.awaiting session.ledger.transactions.length)) := by
  obtain ⟨calls, connected, awaited⟩ := session.connectCall_create frame call
  refine ⟨calls, ?_, awaited⟩
  have number : (session.ledger.create frame.key session.config.limit).1 =
      session.ledger.transactions.length := rfl
  have refused : (session.ledger.adding (session.newcomer frame call)).register
      session.ledger.transactions.length = .error (.duplicateTransaction frame.key) :=
    session.ledger.register_adding_of_waiting taken
  simp only [accept, number, connected, refused]
  rw [session.ledger.resolve_adding rfl rfl]

/-- A request whose key is free is registered, gets its timer and is written
next. -/
theorem accept_of_free (free : session.ledger.find? frame.key = none) :
    ∃ calls, session.accept frame call =
        { session with
          calls
          engine := .writing frame (some session.ledger.transactions.length)
          ledger := Ledger.adding
            { session.ledger with
              waiting := session.ledger.waiting ++
                [(frame.key, session.ledger.transactions.length)]
              timers := session.ledger.timers ++
                [{ key := frame.key, transaction := session.ledger.transactions.length,
                   deadline := (session.newcomer frame call).deadline }] }
            { session.newcomer frame call with timer := some session.ledger.timers.length } } ∧
      (session.calls[call]? = some .queued →
        calls[call]? = some (.awaiting session.ledger.transactions.length)) := by
  obtain ⟨calls, connected, awaited⟩ := session.connectCall_create frame call
  refine ⟨calls, ?_, awaited⟩
  have number : (session.ledger.create frame.key session.config.limit).1 =
      session.ledger.transactions.length := rfl
  have registered : (session.ledger.adding (session.newcomer frame call)).register
      session.ledger.transactions.length =
        .ok (Ledger.adding
          { session.ledger with
            waiting := session.ledger.waiting ++
              [(frame.key, session.ledger.transactions.length)] }
          (session.newcomer frame call)) :=
    session.ledger.register_adding_of_free free
  simp only [accept, number, connected, registered]
  rw [Ledger.arm_adding
    { session.ledger with
      waiting := session.ledger.waiting ++ [(frame.key, session.ledger.transactions.length)] }
    rfl]
  rfl

end Taken

end Session

end ZigbeeHost
