import ZigbeeHost.Proofs.Session.Scopes
import ZigbeeHost.Proofs.Transaction.Activities

/-!
# Sessions race for transactions

What the engine of a session and the timers do to the ledger, they do in the
steps of a race.  Two kinds of tasks are left between two of these things: the
write that the engine has begun, and the overdue transactions, which the timers
that have taken them out of the table have still to give up.  Therefore the
pending transactions are those in the table and those that are overdue, each in
one of the two.
-/

namespace ZigbeeHost.Session

/-- The write that the engine has begun for a transaction. -/
def begun (session : Session) : List Task :=
  match session.engine with
  | .writing _ (some number) => [.write number]
  | _ => []

theorem begun_of_idle {session : Session} (idle : session.engine = .idle) :
    session.begun = [] := by
  rw [begun, idle]

/-- The race has the ledger of the session, and its tasks are the write that the
engine has begun and those that are due. -/
structure Mirrors (session : Session) (due : List Task) (race : Race) : Prop where
  ledger : race.ledger = session.ledger
  tasks : race.tasks.Perm (session.begun ++ due)

/-- The race has the ledger of the session, and no tasks but the write that the
engine has begun and the overdue transactions. -/
structure Follows (session : Session) (race : Race) : Prop where
  ledger : race.ledger = session.ledger
  tasks : ∃ due, List.Forall₂ session.ledger.GivesUp session.overdue due ∧
    race.tasks.Perm (session.begun ++ due)

/-- The table of a session is in order: transactions wait under their own keys, each
pending one is either in the table or overdue, and none has had an outcome. -/
structure Orderly (session : Session) : Prop where
  wellKeyed : session.ledger.WellKeyed
  owned : ∀ number, session.ledger.table.count number + session.overdue.count number =
    if session.ledger.stateOf number = some .pending then 1 else 0
  unspent : ∀ number, session.ledger.stateOf number = some .pending →
    ∃ reply, session.ledger.replyOf number = some reply ∧ reply.Unspent

namespace Orderly

variable {session : Session}

theorem pending_iff (orderly : session.Orderly) (number : Nat) :
    session.ledger.stateOf number = some .pending ↔
      number ∈ session.ledger.table ∨ number ∈ session.overdue := by
  have owned := orderly.owned number
  rw [← List.count_pos_iff, ← List.count_pos_iff]
  split at owned
  · rename_i pending
    simp only [pending, true_iff]
    omega
  · rename_i settled
    simp only [settled, false_iff]
    omega

/-- Whatever is overdue has been taken out of the table. -/
theorem notMem_table_of_overdue (orderly : session.Orderly) {number : Nat}
    (overdue : number ∈ session.overdue) : number ∉ session.ledger.table := by
  have owned := orderly.owned number
  have once := List.count_pos_iff.2 overdue
  rw [← List.count_eq_zero]
  split at owned <;> omega

end Orderly

theorem engine_failWrite (session : Session) (transaction : Option Nat) (cause : TransportError) :
    (session.failWrite transaction cause).engine = session.engine := by
  obtain ⟨ledger, dispatcher, scope⟩ := session.failWrite_scope transaction cause
  rw [scope]

/-- Dropping the queue concerns the calls only. -/
theorem dropOutbound_same (session : Session) :
    session.dropOutbound.ledger = session.ledger ∧
      session.dropOutbound.engine = session.engine := by
  rw [dropOutbound_scope]
  exact ⟨rfl, rfl⟩

/-- Connecting a call with its transaction may drop the reply, and leaves the
engine alone. -/
theorem connectCall_cases (session : Session) (call transaction : Nat) :
    ((session.connectCall call transaction).ledger = session.ledger ∨
      (session.connectCall call transaction).ledger = session.ledger.dropReply transaction) ∧
      (session.connectCall call transaction).engine = session.engine := by
  simp only [connectCall]
  split
  · exact ⟨.inl rfl, rfl⟩
  · exact ⟨.inr rfl, rfl⟩

theorem exists_connectCall (session : Session) {number : Nat} {transaction : Transaction}
    (known : session.ledger.transactions[number]? = some transaction) (call : Nat) :
    ∃ later, (session.connectCall call number).ledger.transactions[number]? = some later := by
  rcases (connectCall_cases session call number).1 with same | dropped
  · exact ⟨transaction, by rw [same, known]⟩
  · have inside := (List.getElem?_eq_some_iff.1 known).1
    rw [dropped, Ledger.dropReply_of_known _ _ known]
    exact ⟨_, List.getElem?_set_self inside⟩

namespace Mirrors

variable {session next : Session} {due : List Task} {race : Race}

/-- Steps that concern neither the ledger nor the engine. -/
theorem of_same (mirrors : session.Mirrors due race) (ledger : next.ledger = session.ledger)
    (engine : next.engine = session.engine) :
    race.Reaches next.ledger (next.begun ++ due) := by
  rw [ledger, begun, engine, ← mirrors.ledger]
  exact .of_perm mirrors.tasks

theorem tasks_of_idle (mirrors : session.Mirrors due race) (idle : session.engine = .idle) :
    race.tasks.Perm due := by
  have tasks := mirrors.tasks
  rwa [begun_of_idle idle] at tasks

/-- The engine is done with the write that it has begun. -/
theorem reaches_due (mirrors : session.Mirrors due race) : race.Reaches session.ledger due := by
  rw [← mirrors.ledger]
  have tasks := mirrors.tasks
  simp only [begun] at tasks
  split at tasks
  · exact Race.reaches_write tasks
  · exact .of_perm tasks

/-- Responses and reported errors end the transaction that they name. -/
theorem reaches_settleKey (mirrors : session.Mirrors due race) (move : Race.Move)
    {key : CommandKey} {outcome : Outcome}
    (moved : race.step move = race.hold (race.ledger.unregister key) outcome) (frame : Frame) :
    race.Reaches (session.settleKey key outcome frame).ledger
      ((session.settleKey key outcome frame).begun ++ due) := by
  simp only [settleKey]
  split
  · rename_i number ledger removed
    rw [← mirrors.ledger] at removed
    refine .after move ?_
    rw [moved]
    have resolved : (race.hold (race.ledger.unregister key) outcome).Reaches
        (ledger.resolve number outcome).2 race.tasks := Race.reaches_hold removed
    exact resolved.perm mirrors.tasks
  · exact mirrors.of_same rfl rfl

theorem reaches_route (mirrors : session.Mirrors due race) (frame : Frame) :
    race.Reaches (session.route frame).ledger ((session.route frame).begun ++ due) := by
  simp only [route]
  split
  · split
    · simp only [routeDeviceError]
      split
      · exact mirrors.of_same rfl rfl
      · exact mirrors.reaches_settleKey (.reject _ _) rfl frame
    · exact mirrors.reaches_settleKey (.answer _ _) rfl frame
  · simp only [routeIndication]
    split <;> exact mirrors.of_same rfl rfl
  · exact mirrors.of_same rfl rfl

/-- The engine takes a request up while it has nothing to write. -/
theorem reaches_accept (mirrors : session.Mirrors due race) (idle : session.engine = .idle)
    (frame : Frame) (call : Nat) :
    race.Reaches (session.accept frame call).ledger
      ((session.accept frame call).begun ++ due) := by
  obtain ⟨number, created, creation⟩ :
      ∃ number created, session.ledger.create frame.key session.config.limit = (number, created) :=
    ⟨_, _, rfl⟩
  obtain ⟨connection, engine⟩ :=
    connectCall_cases { session with ledger := created } call number
  obtain ⟨transaction, known⟩ : ∃ transaction,
      created.transactions[number]? = some transaction := by
    obtain ⟨rfl, rfl⟩ := Prod.mk.inj creation
    exact ⟨_, List.getElem?_concat_length⟩
  obtain ⟨later, existing⟩ := exists_connectCall { session with ledger := created } known call
  have registering (middle : Race)
      (ledger : middle.ledger =
        ({ session with ledger := created }.connectCall call number).ledger)
      (tasks : middle.tasks.Perm (.register number :: due)) :
      middle.Reaches (session.accept frame call).ledger
        ((session.accept frame call).begun ++ due) := by
    simp only [accept, creation]
    rw [← ledger] at existing
    split
    · rename_i error refused
      rw [← ledger] at refused ⊢
      have refusal := Race.reaches_refuse tasks refused
      rw [begun_of_idle (by exact engine.trans idle), List.nil_append]
      exact refusal
    · rename_i registered registration
      rw [← ledger] at registration
      exact Race.reaches_arm tasks registration existing
  -- The reply of an abandoned call is dropped before the transaction is registered.
  refine .after (.begin frame.key session.config.limit) ?_
  have tasks := (mirrors.tasks_of_idle idle).cons (.register number)
  rcases connection with same | dropped
  · refine registering _ ?_ ?_
    · simp only [Race.step, mirrors.ledger, creation, same]
    · simpa only [Race.step, mirrors.ledger, creation] using tasks
  · refine .after (.leave number) (registering _ ?_ ?_)
    · simp only [Race.step, mirrors.ledger, creation, dropped]
    · simpa only [Race.step, mirrors.ledger, creation] using tasks

/-- A frame has not been written. -/
theorem reaches_failWrite {frame : Frame} {transaction : Option Nat}
    (mirrors : session.Mirrors due race) (writing : session.engine = .writing frame transaction)
    (cause : TransportError) :
    race.Reaches (({ session with engine := .idle } : Session).failWrite transaction cause).ledger
      due := by
  cases transaction with
  | none => exact mirrors.reaches_due
  | some number =>
      have tasks : race.tasks.Perm (.write number :: due) := by
        have tasks := mirrors.tasks
        rwa [begun, writing] at tasks
      simp only [failWrite]
      split
      · exact mirrors.reaches_due
      · rename_i entry known
        split
        · rename_i expired ledger removed
          rw [← mirrors.ledger] at known removed
          obtain ⟨index, written, others⟩ := Race.exists_index tasks
          refine .after (.failWrite index cause) ?_
          simp only [Race.step, written, known]
          exact Race.reaches_expire (others.cons _) removed
        · exact mirrors.reaches_due

theorem reaches_stop (mirrors : session.Mirrors due race) :
    race.Reaches session.stop.ledger (session.stop.begun ++ due) := by
  obtain ⟨ledger, engine⟩ := dropOutbound_same
    { session with engine := .stopped, inbound := [], ledger := session.ledger.cancelAll.2 }
  obtain ⟨moves, dropped, others⟩ := mirrors.reaches_due
  have cancelled := Race.reaches_cancelAll (race.run moves)
  rw [dropped] at cancelled
  rw [stop, begun, ledger, engine]
  exact (cancelled.perm others).trans

end Mirrors

/-- What the timers have to do concerns the overdue transactions and no others. -/
theorem filterMap_of_givesUp {ledger : Ledger} {overdue : List Nat} {due : List Task}
    (gives : List.Forall₂ ledger.GivesUp overdue due) :
    due.filterMap Task.offers = [] ∧ due.filterMap Task.holds = overdue := by
  induction gives with
  | nil => exact ⟨rfl, rfl⟩
  | cons first _ ih =>
      obtain ⟨transaction, -, rfl⟩ := first
      exact ⟨ih.1, congrArg _ ih.2⟩

namespace Follows

variable {session next : Session} {race : Race}

/-- The race goes on with the session while the timers rest. -/
theorem advance (follows : session.Follows race) (overdue : next.overdue = session.overdue)
    (reaches : ∀ due, session.Mirrors due race → race.Reaches next.ledger (next.begun ++ due)) :
    ∃ moves, next.Follows (race.run moves) := by
  obtain ⟨due, gives, tasks⟩ := follows.tasks
  obtain ⟨moves, ledger, same⟩ := reaches due ⟨follows.ledger, tasks⟩
  have grows := race.grows_run moves
  rw [follows.ledger, ledger] at grows
  exact ⟨moves, ledger, due, overdue ▸ gives.imp fun _ _ => grows.givesUp, same⟩

theorem goOff (follows : session.Follows race)
    (watched : ∀ timer ∈ race.ledger.timers, race.ledger.Watches timer) (timer : Nat) :
    ∃ moves, (session.goOff timer).Follows (race.run moves) := by
  obtain ⟨due, gives, tasks⟩ := follows.tasks
  obtain ⟨late, taken, moves, ledger, same⟩ := Race.reaches_wake watched timer
  have grows := race.grows_run moves
  rw [follows.ledger] at taken
  rw [ledger, follows.ledger] at grows
  refine ⟨moves, by rw [ledger, follows.ledger]; rfl, late ++ due, ?_, ?_⟩
  · exact (List.rel_append taken gives).imp fun _ _ => grows.givesUp
  · exact (same.trans (tasks.append_left late)).trans (List.perm_append_comm_assoc _ _ _)

theorem giveUp (follows : session.Follows race) (number : Nat) :
    ∃ moves, (session.giveUp number).Follows (race.run moves) := by
  by_cases inside : number ∈ session.overdue
  · obtain ⟨due, gives, tasks⟩ := follows.tasks
    obtain ⟨ordered, first, order⟩ :=
      List.perm_comp_forall₂ (List.perm_cons_erase inside).symm gives
    cases first with
    | @cons _ task _ rest own others =>
        -- The task of this transaction stands somewhere among the others.
        have among : race.tasks.Perm (task :: (session.begun ++ rest)) :=
          (tasks.trans (order.symm.append_left _)).trans List.perm_middle
        rw [← follows.ledger] at own
        obtain ⟨moves, ledger, same⟩ := Race.reaches_timeOut own among
        have grows := race.grows_run moves
        have givenUp : (session.giveUp number).ledger = (race.run moves).ledger := by
          simp only [Session.giveUp, if_pos inside, ledger, follows.ledger]
        rw [← givenUp, follows.ledger] at grows
        exact ⟨moves, givenUp.symm, rest, others.imp fun _ _ => grows.givesUp, same⟩
  · refine follows.advance (List.erase_of_not_mem inside) fun due mirrors => mirrors.of_same ?_ rfl
    simp only [Session.giveUp, if_neg inside]

/-- A transaction is in the table, overdue, or nowhere. -/
theorem places_eq (follows : session.Follows race) (number : Nat) :
    race.places number = session.ledger.table.count number + session.overdue.count number := by
  obtain ⟨due, gives, tasks⟩ := follows.tasks
  obtain ⟨dueOffers, dueHolds⟩ := filterMap_of_givesUp gives
  have begunOffers : session.begun.filterMap Task.offers = [] := by
    rw [begun]
    split <;> rfl
  have begunHolds : session.begun.filterMap Task.holds = [] := by
    rw [begun]
    split <;> rfl
  have offers := (tasks.filterMap Task.offers).count_eq number
  have holds := (tasks.filterMap Task.holds).count_eq number
  rw [List.filterMap_append, begunOffers, dueOffers] at offers
  rw [List.filterMap_append, begunHolds, dueHolds] at holds
  rw [Race.places, Race.offered, Race.held, offers, holds, follows.ledger]
  simp only [List.nil_append, List.count_nil]
  omega

theorem orderly (follows : session.Follows race) (sound : race.Sound) : session.Orderly where
  wellKeyed := by
    rw [← follows.ledger]
    exact sound.wellKeyed
  owned number := by
    rw [← follows.places_eq, ← follows.ledger]
    exact sound.owned number
  unspent number pending := by
    have life := sound.lives number
    rw [follows.ledger, pending] at life
    exact life.unspent_of_pending

end Follows

end ZigbeeHost.Session
