import ZigbeeHost.Proofs.Session.Occurrences
import ZigbeeHost.Proofs.Session.Requests
import Mathlib.Data.List.Induction

/-!
# Requests are registered before they are written

A request is registered if its key is free, and the engine goes on to write the
frame; if another transaction waits under the key, the request is refused, and
nothing is ever written for it.  Whatever takes a transaction out of the table
leaves its key free, be it a response, a failed write, or a timer that still has
to give the transaction up.
-/

namespace ZigbeeHost.Session

section Steps

variable {session : Session} {occurrence : Occurrence}

theorem settleKey_of_waiting {key : CommandKey} {number : Nat}
    (found : session.ledger.find? key = some number) (outcome : Outcome) (frame : Frame) :
    session.settleKey key outcome frame =
      { session with ledger := ((session.ledger.remove key).resolve number outcome).2 } := by
  simp only [settleKey, Ledger.unregister, found]

theorem settleKey_of_free {key : CommandKey} (free : session.ledger.find? key = none)
    (outcome : Outcome) (frame : Frame) :
    session.settleKey key outcome frame = session.report (.unmatchedResponse frame) := by
  simp only [settleKey, Ledger.unregister, free]

theorem wanes_settleKey (key : CommandKey) (error : Error) (frame : Frame) :
    session.ledger.Wanes (session.settleKey key (.error error) frame).ledger := by
  cases found : session.ledger.find? key with
  | none =>
      rw [settleKey_of_free found]
      exact .refl session.ledger
  | some number =>
      rw [settleKey_of_waiting found]
      exact Ledger.wanes_resolve_of_removes _ (.found found) error

/-- Only a response on the key of a pending transaction answers anybody. -/
theorem wanes_route (frame : Frame) :
    session.ledger.Wanes (session.route frame).ledger ∨
      ∃ number, frame.kind = .syncResponse ∧ frame.key ≠ .deviceError ∧
        session.ledger.find? frame.key = some number := by
  cases kind : frame.kind with
  | syncResponse =>
      by_cases reported : frame.key = .deviceError
      · left
        simp only [route, kind, if_pos reported, routeDeviceError]
        split
        · exact .refl session.ledger
        · exact wanes_settleKey _ _ frame
      · cases found : session.ledger.find? frame.key with
        | some number => exact .inr ⟨number, rfl, reported, rfl⟩
        | none =>
            left
            simp only [route, kind, if_neg reported, settleKey_of_free found]
            exact .refl session.ledger
  | asyncRequest =>
      left
      simp only [route, kind, routeIndication]
      split <;> exact .refl session.ledger
  | syncRequest =>
      left
      simp only [route, kind]
      exact .refl session.ledger

theorem wanes_failWrite (session : Session) (transaction : Option Nat) (cause : TransportError) :
    session.ledger.Wanes (session.failWrite transaction cause).ledger := by
  simp only [failWrite]
  split
  · exact .refl session.ledger
  · rename_i number
    split
    · exact .refl session.ledger
    · rename_i entry known
      have removes := session.ledger.removes_expire entry.key number
      split
      · rename_i expired ledger removed
        rw [removed] at removes
        exact session.ledger.wanes_resolve_of_removes removes _
      · exact .refl session.ledger

theorem wanes_stop : session.ledger.Wanes session.stop.ledger := by
  rw [stop, (dropOutbound_same _).1]
  exact session.ledger.wanes_cancelAll

theorem wanes_giveUp (session : Session) (number : Nat) :
    session.ledger.Wanes (session.giveUp number).ledger := by
  simp only [giveUp]
  split
  · exact session.ledger.wanes_timeOut number
  · exact .refl session.ledger

/-- A request is registered, a response answers one, or neither. -/
theorem happen_cases (session : Session) (occurrence : Occurrence) :
    session.ledger.Wanes (session.happen occurrence).ledger ∨
      (∃ frame call, occurrence = .request frame call ∧ session.engine = .idle ∧
        session.ledger.find? frame.key = none) ∨
      ∃ frame number, occurrence = .arrival frame ∧ session.engine = .idle ∧
        frame.kind = .syncResponse ∧ frame.key ≠ .deviceError ∧
          session.ledger.find? frame.key = some number := by
  cases occurrence with
  | request frame call =>
      by_cases idle : session.engine = .idle
      · cases found : session.ledger.find? frame.key with
        | none => exact .inr (.inl ⟨frame, call, rfl, idle, found⟩)
        | some earlier =>
            obtain ⟨calls, refused, -⟩ := session.accept_of_waiting frame call found
            left
            simp only [happen, if_pos idle, refused]
            refine .of_concat rfl rfl fun payload => ?_
            rcases session.newcomer_unspent frame call with waiting | dropped
            · simp [Transaction.settle, waiting, Reply.deliver]
            · simp [Transaction.settle, dropped, Reply.deliver]
      · left
        simp only [happen, if_neg idle]
        exact .refl session.ledger
  | arrival frame =>
      by_cases idle : session.engine = .idle
      · simp only [happen, if_pos idle]
        rcases session.wanes_route frame with wanes | ⟨number, kind, ordinary, found⟩
        · exact .inl wanes
        · exact .inr (.inr ⟨frame, number, rfl, idle, kind, ordinary, found⟩)
      · left
        simp only [happen, if_neg idle]
        exact .refl session.ledger
  | notice frame =>
      left
      simp only [happen]
      split <;> exact .refl session.ledger
  | written =>
      left
      simp only [happen]
      split <;> exact .refl session.ledger
  | refused cause =>
      left
      simp only [happen]
      split
      · exact wanes_failWrite { session with engine := .idle } _ cause
      · exact .refl session.ledger
  | expiry timer => exact .inl (session.ledger.wanes_wake timer)
  | giveUp number => exact .inl (session.wanes_giveUp number)
  | wait milliseconds => exact .inl (.of_transactions (.refl _) rfl)
  | collect transaction => exact .inl (session.ledger.wanes_takeReply transaction)
  | leave transaction => exact .inl (session.ledger.wanes_dropReply transaction)
  | surround surroundings => exact .inl (.refl session.ledger)
  | stop => exact .inl wanes_stop

/-- What is in the table after an occurrence has been there before, or has just
been registered under a key that was free. -/
theorem find?_happen (orderly : session.Orderly) {key : CommandKey} {number : Nat}
    (found : (session.happen occurrence).ledger.find? key = some number) :
    session.ledger.find? key = some number ∨
      ∃ frame call, occurrence = .request frame call ∧ session.engine = .idle ∧
        frame.key = key ∧ session.ledger.find? key = none ∧
          number = session.ledger.transactions.length := by
  have waits := Ledger.mem_waiting_of_find? found
  -- Only registering adds to the table.
  have earlier (fewer : (session.happen occurrence).ledger.waiting.Sublist
      session.ledger.waiting) : session.ledger.find? key = some number :=
    Ledger.find?_of_mem_waiting orderly.wellKeyed (fewer.subset waits)
  rcases session.happen_cases occurrence with
    wanes | ⟨frame, call, rfl, idle, free⟩ | ⟨frame, answered, rfl, idle, kind, ordinary, waiting⟩
  · exact .inl (earlier wanes.waiting)
  · obtain ⟨calls, accepted, -⟩ := session.accept_of_free frame call free
    simp only [happen, if_pos idle, accepted, Ledger.adding, List.mem_append,
      List.mem_singleton, Prod.mk.injEq] at waits
    rcases waits with before | ⟨rfl, latest⟩
    · exact .inl (Ledger.find?_of_mem_waiting orderly.wellKeyed before)
    · exact .inr ⟨frame, call, rfl, idle, rfl, free, latest⟩
  · refine .inl (earlier ?_)
    have routed : (session.route frame).ledger.waiting =
        (session.ledger.remove frame.key).waiting := by
      simp only [route, kind, if_neg ordinary, settleKey_of_waiting waiting]
      exact Ledger.waiting_resolve _ _ _
    simp only [happen, if_pos idle, routed]
    exact List.filter_sublist

theorem engine_route (session : Session) (frame : Frame) :
    (session.route frame).engine = session.engine := by
  have settled (key : CommandKey) (outcome : Outcome) :
      (session.settleKey key outcome frame).engine = session.engine := by
    simp only [settleKey]
    split <;> rfl
  simp only [route]
  split
  · split
    · simp only [routeDeviceError]
      split
      · rfl
      · exact settled _ _
    · exact settled _ _
  · simp only [routeIndication]
    split <;> rfl
  · rfl

/-- The engine begins to write the frame of a request only as it registers it. -/
theorem engine_happen {frame : Frame} {number : Nat}
    (writing : (session.happen occurrence).engine = .writing frame (some number)) :
    session.engine = .writing frame (some number) ∨
      ∃ call, occurrence = .request frame call ∧ session.engine = .idle ∧
        session.ledger.find? frame.key = none ∧
          number = session.ledger.transactions.length := by
  cases occurrence with
  | request asked call =>
      by_cases idle : session.engine = .idle
      · simp only [happen, if_pos idle] at writing
        cases found : session.ledger.find? asked.key with
        | some earlier =>
            obtain ⟨calls, refused, -⟩ := session.accept_of_waiting asked call found
            simp [refused, idle] at writing
        | none =>
            obtain ⟨calls, accepted, -⟩ := session.accept_of_free asked call found
            simp only [accepted, EngineState.writing.injEq, Option.some.injEq] at writing
            obtain ⟨rfl, rfl⟩ := writing
            exact .inr ⟨call, rfl, idle, found, rfl⟩
      · simp only [happen, if_neg idle] at writing
        exact .inl writing
  | notice noticed =>
      simp only [happen] at writing
      split at writing
      · simp at writing
      · exact .inl writing
  | arrival arrived =>
      simp only [happen] at writing
      split at writing
      · rw [engine_route] at writing
        exact .inl writing
      · exact .inl writing
  | written =>
      simp only [happen] at writing
      split at writing
      · cases writing
      · exact .inl writing
  | refused cause =>
      simp only [happen] at writing
      split at writing
      · rw [engine_failWrite] at writing
        cases writing
      · exact .inl writing
  | expiry timer => exact .inl writing
  | giveUp number => exact .inl writing
  | wait milliseconds => exact .inl writing
  | collect transaction => exact .inl writing
  | leave transaction => exact .inl writing
  | surround surroundings => exact .inl writing
  | stop =>
      simp only [happen, stop, (dropOutbound_same _).2] at writing
      cases writing

end Steps

/-- A request is refused: a transaction is added that has failed already, whose
caller gets the reason, and nothing else changes.  Nothing is ever written for
it. -/
structure Refuses (session next : Session) (frame : Frame) (call : Nat) : Prop where
  ledger : ∃ refused, next.ledger = session.ledger.adding refused ∧
    refused.key = frame.key ∧ refused.state = .failed
  answered : session.calls[call]? = some .queued →
    next.calls[call]? = some (.awaiting session.ledger.transactions.length) ∧
      next.ledger.replyOf session.ledger.transactions.length =
        some (.delivered (.error (.duplicateTransaction frame.key)))
  engine : next.engine = .idle
  pipe : next.pipe = session.pipe
  unwritten : ∀ later written, (next.run later).engine ≠
    .writing written (some session.ledger.transactions.length)

/-- A request is registered: a pending transaction is added, waits under the key
and has a timer, and its frame is to be written. -/
structure Admits (session next : Session) (frame : Frame) (call : Nat) : Prop where
  ledger : ∃ admitted timer, admitted.key = frame.key ∧ admitted.state = .pending ∧
    admitted.reply.Unspent ∧ timer.transaction = session.ledger.transactions.length ∧
      next.ledger = Ledger.adding
        { session.ledger with
          waiting :=
            session.ledger.waiting ++ [(frame.key, session.ledger.transactions.length)]
          timers := session.ledger.timers ++ [timer] } admitted
  found : next.ledger.find? frame.key = some session.ledger.transactions.length
  awaited : session.calls[call]? = some .queued →
    next.calls[call]? = some (.awaiting session.ledger.transactions.length) ∧
      next.ledger.replyOf session.ledger.transactions.length = some .waiting
  engine : next.engine = .writing frame (some session.ledger.transactions.length)
  pipe : next.pipe = session.pipe

/-- The table holds the pending transactions under their keys, except those that
are overdue, and a request is registered exactly when its key is free, as it is
once the transaction under it has ended or is overdue. -/
structure Registers (session : Session) : Prop where
  entry : ∀ entry ∈ session.ledger.waiting, ∃ transaction,
    session.ledger.transactions[entry.2]? = some transaction ∧ transaction.key = entry.1 ∧
      transaction.state = .pending ∧ transaction.reply.Unspent
  listed : ∀ number transaction, session.ledger.transactions[number]? = some transaction →
    transaction.state = .pending → number ∉ session.overdue →
      session.ledger.find? transaction.key = some number
  overdue : ∀ number ∈ session.overdue, ∃ transaction,
    session.ledger.transactions[number]? = some transaction ∧ transaction.state = .pending ∧
      transaction.reply.Unspent ∧ ∀ key, session.ledger.find? key ≠ some number
  refused : ∀ frame call earlier, session.engine = .idle →
    session.ledger.find? frame.key = some earlier →
      session.Refuses (session.happen (.request frame call)) frame call
  admitted : ∀ frame call, session.engine = .idle → session.ledger.find? frame.key = none →
    session.Admits (session.happen (.request frame call)) frame call
  freed : ∀ occurrence number transaction,
    session.ledger.transactions[number]? = some transaction →
      session.ledger.find? transaction.key = some number →
      ((session.happen occurrence).ledger.stateOf number ≠ some .pending ∨
          number ∈ (session.happen occurrence).overdue) →
        (session.happen occurrence).ledger.find? transaction.key = none ∧
          ∀ frame call, (session.happen occurrence).engine = .idle →
            frame.key = transaction.key →
              (session.happen occurrence).Admits
                ((session.happen occurrence).happen (.request frame call)) frame call

theorem Orderly.reply_unspent {session : Session} (orderly : session.Orderly) {number : Nat}
    {transaction : Transaction}
    (known : session.ledger.transactions[number]? = some transaction)
    (pending : transaction.state = .pending) : transaction.reply.Unspent := by
  have state : session.ledger.stateOf number = some .pending := by
    rw [Ledger.stateOf_of_known known, pending]
  obtain ⟨reply, replied, unspent⟩ := orderly.unspent number state
  rw [Ledger.replyOf_of_known known] at replied
  obtain rfl := Option.some.inj replied
  exact unspent

theorem Orderly.entry {session : Session} (orderly : session.Orderly)
    {entry : CommandKey × Nat} (waits : entry ∈ session.ledger.waiting) :
    ∃ transaction, session.ledger.transactions[entry.2]? = some transaction ∧
      transaction.key = entry.1 ∧ transaction.state = .pending ∧
        transaction.reply.Unspent := by
  obtain ⟨transaction, known, key⟩ :=
    Ledger.exists_of_look (orderly.wellKeyed.keyed entry waits)
  have pending := (orderly.pending_iff entry.2).2 (.inl (List.mem_map_of_mem waits))
  rw [Ledger.stateOf_of_known known, Option.some.injEq] at pending
  exact ⟨transaction, known, key, pending, orderly.reply_unspent known pending⟩

theorem Orderly.listed {session : Session} (orderly : session.Orderly) {number : Nat}
    {transaction : Transaction}
    (known : session.ledger.transactions[number]? = some transaction)
    (pending : transaction.state = .pending) (inTime : number ∉ session.overdue) :
    session.ledger.find? transaction.key = some number := by
  have state : session.ledger.stateOf number = some .pending := by
    rw [Ledger.stateOf_of_known known, pending]
  have inside := ((orderly.pending_iff number).1 state).resolve_right inTime
  exact orderly.wellKeyed.find?_of_mem_table inside known

/-- Nobody finds an overdue transaction. -/
theorem Orderly.find?_ne_of_overdue {session : Session} (orderly : session.Orderly) {number : Nat}
    (overdue : number ∈ session.overdue) (key : CommandKey) :
    session.ledger.find? key ≠ some number := fun found =>
  orderly.notMem_table_of_overdue overdue
    (List.mem_map_of_mem (Ledger.mem_waiting_of_find? found))

theorem Orderly.overdue {session : Session} (orderly : session.Orderly) {number : Nat}
    (overdue : number ∈ session.overdue) : ∃ transaction,
      session.ledger.transactions[number]? = some transaction ∧ transaction.state = .pending ∧
        transaction.reply.Unspent ∧ ∀ key, session.ledger.find? key ≠ some number := by
  obtain ⟨transaction, known, pending⟩ :=
    Ledger.exists_of_look ((orderly.pending_iff number).2 (.inr overdue))
  exact ⟨transaction, known, pending, orderly.reply_unspent known pending,
    orderly.find?_ne_of_overdue overdue⟩

theorem admits_of_free {session : Session} {frame : Frame} (call : Nat)
    (idle : session.engine = .idle) (free : session.ledger.find? frame.key = none) :
    session.Admits (session.happen (.request frame call)) frame call := by
  obtain ⟨calls, accepted, awaited⟩ := session.accept_of_free frame call free
  simp only [happen, if_pos idle, accepted]
  refine ⟨⟨_, _, ?_, ?_, ?_, ?_, rfl⟩, Ledger.find?_concat free rfl,
    fun queued => ⟨awaited queued, ?_⟩, rfl, rfl⟩
  · rfl
  · rfl
  · exact session.newcomer_unspent frame call
  · rfl
  · rw [Ledger.replyOf_of_known (Ledger.adding_latest _ _),
      session.newcomer_reply_of_queued frame call queued]

/-- Nobody else comes to wait under the key of a transaction as it leaves the
table. -/
theorem free_of_left {session : Session} {occurrence : Occurrence} (orderly : session.Orderly)
    {key : CommandKey} {number : Nat} (found : session.ledger.find? key = some number)
    (left : (session.happen occurrence).ledger.find? key ≠ some number) :
    (session.happen occurrence).ledger.find? key = none := by
  cases after : (session.happen occurrence).ledger.find? key with
  | none => rfl
  | some other =>
      -- It is the same transaction, or one registered under a key that was taken.
      rcases find?_happen orderly after with before | ⟨frame, call, -, -, -, free, -⟩
      · rw [found] at before
        exact absurd (after.trans before.symm) left
      · rw [found] at free
        cases free

section Reached

variable (config : SessionConfig) (prototypes : PrototypeTable) (history : List Occurrence)

/-- What is not being written when it is known is never written. -/
theorem never_writes (number : Nat)
    (known : number < ((start config prototypes).run history).ledger.transactions.length)
    (quiet : ∀ written, ((start config prototypes).run history).engine ≠
      .writing written (some number)) (later : List Occurrence) :
    ∀ written, (((start config prototypes).run history).run later).engine ≠
      .writing written (some number) := by
  induction later generalizing history with
  | nil => exact quiet
  | cons occurrence later ih =>
      have grown := (grows_happen config prototypes history occurrence).length_le
      have next := ih (history ++ [occurrence])
      rw [run_concat] at next
      refine next (Nat.lt_of_lt_of_le known grown) ?_
      intro written writing
      -- The engine begins to write for new transactions only.
      rcases engine_happen writing with already | ⟨call, -, -, -, latest⟩
      · exact quiet written already
      · exact absurd latest (Nat.ne_of_lt known)

theorem refuses_of_waiting {frame : Frame} {earlier : Nat} (call : Nat)
    (idle : ((start config prototypes).run history).engine = .idle)
    (taken : ((start config prototypes).run history).ledger.find? frame.key = some earlier) :
    ((start config prototypes).run history).Refuses
      (((start config prototypes).run history).happen (.request frame call)) frame call := by
  have unwritten := never_writes config prototypes (history ++ [.request frame call])
    ((start config prototypes).run history).ledger.transactions.length
  rw [run_concat] at unwritten
  generalize (start config prototypes).run history = session at *
  obtain ⟨calls, refused, awaited⟩ := session.accept_of_waiting frame call taken
  simp only [happen, if_pos idle, refused] at unwritten ⊢
  refine ⟨⟨_, rfl, rfl, rfl⟩, fun queued => ⟨awaited queued, ?_⟩, idle, rfl, ?_⟩
  · rw [Ledger.replyOf_of_known (Ledger.adding_latest _ _)]
    simp only [Transaction.settle, session.newcomer_reply_of_queued frame call queued,
      Reply.deliver]
  · refine unwritten ?_ ?_
    · simp [Ledger.adding]
    · simp [idle]

/-- However requests, frames, deadlines and writes follow one another, the table
is in order, requests are refused or registered by their keys, and the engine
writes the frame of a request only after it has registered it. -/
theorem registers_run :
    ((start config prototypes).run history).Registers ∧
      ∀ frame number, ((start config prototypes).run history).engine =
          .writing frame (some number) →
        ∃ earlier call later, history = earlier ++ .request frame call :: later ∧
          ((start config prototypes).run earlier).engine = .idle ∧
          number = ((start config prototypes).run earlier).ledger.transactions.length ∧
          ((start config prototypes).run earlier).Admits
            ((start config prototypes).run (earlier ++ [.request frame call])) frame call := by
  have orderly := orderly_run config prototypes
  constructor
  · refine ⟨fun _ => (orderly history).entry, fun _ _ => (orderly history).listed,
      fun _ => (orderly history).overdue,
      fun _ call _ => refuses_of_waiting config prototypes history call,
      fun _ call => admits_of_free call, ?_⟩
    intro occurrence number transaction known found ended
    have later := orderly (history ++ [occurrence])
    rw [run_concat] at later
    have free := free_of_left (orderly history) found fun still =>
      -- What is in the table is pending and not overdue.
      ended.elim
        (fun settled => settled ((later.pending_iff number).2
          (.inl (List.mem_map_of_mem (Ledger.mem_waiting_of_find? still)))))
        fun overdue => later.find?_ne_of_overdue overdue _ still
    exact ⟨free, fun frame call idle key => admits_of_free call idle (key ▸ free)⟩
  · induction history using List.reverseRecOn with
    | nil => intro frame number writing; cases writing
    | append_singleton history occurrence ih =>
        intro frame number writing
        rw [run_concat] at writing
        rcases engine_happen writing with already | ⟨call, rfl, idle, free, latest⟩
        · obtain ⟨earlier, call, later, rfl, begun⟩ := ih frame number already
          exact ⟨earlier, call, later ++ [occurrence], by simp, begun⟩
        · refine ⟨history, call, [], rfl, idle, latest, ?_⟩
          rw [run_concat]
          exact admits_of_free call idle free

end Reached

/-- While a ping waits, a second one is refused; once the first one has been
answered, is overdue, has timed out or could not be written, the second one is
registered. -/
theorem registers_run_of_repeated_ping :
    let ping : Frame := ⟨.syncRequest, .system, 1, []⟩
    let answer : Frame := ⟨.syncResponse, .system, 1, [0x79, 0x07]⟩
    let callers : Session := { start {} {} with calls := [.queued, .queued] }
    let asked : List Occurrence := [.surround callers, .request ping 0]
    let waiting := (start {} {}).run (asked ++ [.written])
    let late := (start {} {}).run (asked ++ [.written, .wait 5000])
    waiting.engine = .idle ∧ waiting.ledger.find? ping.key = some 0 ∧
      waiting.Refuses (waiting.happen (.request ping 1)) ping 1 ∧
      (waiting.happen (.arrival answer)).Admits
        ((waiting.happen (.arrival answer)).happen (.request ping 1)) ping 1 ∧
      (late.happen (.expiry 0)).Admits
        ((late.happen (.expiry 0)).happen (.request ping 1)) ping 1 ∧
      ((late.happen (.expiry 0)).happen (.giveUp 0)).Admits
        (((late.happen (.expiry 0)).happen (.giveUp 0)).happen (.request ping 1)) ping 1 ∧
      (((start {} {}).run asked).happen (.refused .closed)).Admits
        ((((start {} {}).run asked).happen (.refused .closed)).happen (.request ping 1))
          ping 1 := by
  intro ping answer callers asked waiting late
  have idle : waiting.engine = .idle := by decide
  have taken : waiting.ledger.find? ping.key = some 0 := by decide
  have registers (history : List Occurrence) := (registers_run {} {} history).1
  refine ⟨idle, taken, (registers _).refused ping 1 0 idle taken, ?_, ?_, ?_, ?_⟩
  · exact ((registers _).freed (.arrival answer) 0 _ rfl (by decide) (.inl (by decide))).2
      ping 1 (by decide) rfl
  · exact ((registers _).freed (.expiry 0) 0 _ rfl (by decide) (.inr (by decide))).2
      ping 1 (by decide) rfl
  · exact (registers (asked ++ [.written, .wait 5000, .expiry 0, .giveUp 0])).admitted ping 1
      (by decide) (by decide)
  · exact ((registers _).freed (.refused .closed) 0 _ rfl (by decide) (.inl (by decide))).2
      ping 1 (by decide) rfl

end ZigbeeHost.Session
