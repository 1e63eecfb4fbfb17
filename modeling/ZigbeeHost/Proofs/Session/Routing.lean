import ZigbeeHost.Proofs.Session.Registration

/-!
# Every arriving frame has one effect

A response ends the transaction that waits under its key; an error response ends
the one that it names; an indication becomes an event.  Everything else becomes
one error.  Which of these happens depends on the frame, the table and the
prototypes only, and no other transaction is touched.  So a response goes to one
caller at most, and that caller's request was registered under the key of the
response before.
-/

namespace ZigbeeHost

namespace Ledger

variable (ledger : Ledger) (number : Nat)

theorem now_resolve (outcome : Outcome) :
    (ledger.resolve number outcome).2.now = ledger.now := by
  simp only [resolve]
  split
  · rfl
  · split
    · split
      · split <;> rfl
      · rfl
    · rfl

/-- Resolving a transaction can stop its own timer and no other one. -/
theorem timers_resolve {transaction : Transaction}
    (known : ledger.transactions[number]? = some transaction) (outcome : Outcome) {timer : Nat}
    (foreign : transaction.timer ≠ some timer) :
    (ledger.resolve number outcome).2.timers[timer]? = ledger.timers[timer]? := by
  simp only [resolve, known]
  split
  · split
    · rename_i own watched
      split
      · rfl
      · have different : own ≠ timer := fun same => foreign (same ▸ watched)
        simp [abort, different]
    · rfl
  · rfl

end Ledger

namespace Session

/-- What an error response says, or why it cannot be read. -/
def readRejection (frame : Frame) : Except PayloadError DeviceError :=
  let reading := Catalog.errorFrame.ofPayload Catalog.errorFrame.default frame.payload
  match reading.error with
  | some cause => .error cause
  | none => .ok (.ofRecord reading.value)

/-- What an arriving frame brings about. -/
inductive Effect where
  /-- The transaction of the given number gets its response. -/
  | answer (number : Nat)
  | rejection (number : Nat) (code : DeviceErrorCode)
  | event (event : Event)
  | error (error : Error)

/-- The transaction that an effect ends. -/
def Effect.ended : Effect → Option Nat
  | .answer number => some number
  | .rejection number _ => some number
  | .event _ => none
  | .error _ => none

/-- The transaction that waits under a key is removed from the table and gets its
outcome.  Its own timer may be stopped, and everything else stays. -/
structure Ends (session next : Session) (key : CommandKey) (number : Nat)
    (outcome : Outcome) : Prop where
  found : session.ledger.find? key = some number
  removed : next.ledger.waiting = session.ledger.waiting.filter fun entry => entry.1 ≠ key
  settled : ∃ transaction, session.ledger.transactions[number]? = some transaction ∧
    transaction.key = key ∧ transaction.state = .pending ∧
      next.ledger.transactions =
        session.ledger.transactions.set number (transaction.settle outcome) ∧
      ∀ timer, transaction.timer ≠ some timer →
        next.ledger.timers[timer]? = session.ledger.timers[timer]?
  clock : next.ledger.now = session.ledger.now
  others : next = { session with ledger := next.ledger }

/-- Why an arriving frame is nobody's: no request waits for it, it cannot be
read, there is no prototype for it, or it is a request. -/
inductive Fault (session : Session) (frame : Frame) : Error → Prop
  | unmatchedResponse (response : frame.kind = .syncResponse)
      (ordinary : frame.key ≠ .deviceError) (free : session.ledger.find? frame.key = none) :
      Fault session frame (.unmatchedResponse frame)
  | unmatchedRejection {rejection : DeviceError} (response : frame.kind = .syncResponse)
      (special : frame.key = .deviceError) (read : readRejection frame = .ok rejection)
      (free : session.ledger.find? rejection.failedKey = none) :
      Fault session frame (.unmatchedResponse frame)
  | unreadableRejection {cause : PayloadError} (response : frame.kind = .syncResponse)
      (special : frame.key = .deviceError) (unread : readRejection frame = .error cause) :
      Fault session frame (.payload cause)
  | unreadableIndication {prototype : Event} {cause : PayloadError}
      (indication : frame.kind = .asyncRequest)
      (known : session.prototypes.find? frame.key = some prototype)
      (unread : prototype.decode frame.payload = .error cause) :
      Fault session frame (.payload cause)
  | unknownIndication (indication : frame.kind = .asyncRequest)
      (unknown : session.prototypes.find? frame.key = none) :
      Fault session frame (.unknownIndication frame.key)
  | unexpectedFrame (request : frame.kind = .syncRequest) :
      Fault session frame (.unexpectedFrame frame)

/-- A frame arrives in a session and has an effect, and the next session differs
by that effect only. -/
inductive Happens (session : Session) (frame : Frame) (next : Session) : Effect → Prop
  | answered {number : Nat} (response : frame.kind = .syncResponse)
      (ordinary : frame.key ≠ .deviceError)
      (ends : session.Ends next frame.key number (.ok frame.payload)) :
      Happens session frame next (.answer number)
  | rejected {rejection : DeviceError} {number : Nat} (response : frame.kind = .syncResponse)
      (special : frame.key = .deviceError) (read : readRejection frame = .ok rejection)
      (ends : session.Ends next rejection.failedKey number (.error (.device rejection.code))) :
      Happens session frame next (.rejection number rejection.code)
  | indicated {prototype event : Event} (indication : frame.kind = .asyncRequest)
      (known : session.prototypes.find? frame.key = some prototype)
      (read : prototype.decode frame.payload = .ok event)
      (delivered : next = { session with dispatcher := session.dispatcher.deliver event }) :
      Happens session frame next (.event event)
  | reported {error : Error} (fault : session.Fault frame error)
      (reported : next = session.report error) :
      Happens session frame next (.error error)

/-- The only effect that a frame can have. -/
def effectOf (session : Session) (frame : Frame) : Effect :=
  match frame.kind with
  | .syncResponse =>
      if frame.key = .deviceError then
        match readRejection frame with
        | .error cause => .error (.payload cause)
        | .ok rejection =>
            match session.ledger.find? rejection.failedKey with
            | some number => .rejection number rejection.code
            | none => .error (.unmatchedResponse frame)
      else
        match session.ledger.find? frame.key with
        | some number => .answer number
        | none => .error (.unmatchedResponse frame)
  | .asyncRequest =>
      match session.prototypes.instantiate frame.key frame.payload with
      | some (.ok event) => .event event
      | some (.error cause) => .error (.payload cause)
      | none => .error (.unknownIndication frame.key)
  | .syncRequest => .error (.unexpectedFrame frame)

section Effects

variable {session next : Session} {frame : Frame}

/-- Ending a pending transaction under its key concerns nothing else. -/
theorem ends_settleKey_of_pending {key : CommandKey} {number : Nat} {transaction : Transaction}
    (found : session.ledger.find? key = some number)
    (known : session.ledger.transactions[number]? = some transaction)
    (same : transaction.key = key) (pending : transaction.state = .pending)
    (outcome : Outcome) (frame : Frame) :
    session.Ends (session.settleKey key outcome frame) key number outcome := by
  have removed : (session.ledger.remove key).transactions[number]? = some transaction := known
  obtain ⟨-, waiting, changed⟩ :=
    (session.ledger.remove key).resolve_of_pending number removed pending outcome
  rw [settleKey_of_waiting found]
  exact {
    found
    removed := waiting
    settled := ⟨transaction, known, same, pending, changed, fun _ foreign =>
      (session.ledger.remove key).timers_resolve number removed outcome foreign⟩
    clock := (session.ledger.remove key).now_resolve number outcome
    others := rfl }

theorem ends_settleKey (orderly : session.Orderly) {key : CommandKey} {number : Nat}
    (found : session.ledger.find? key = some number) (outcome : Outcome) (frame : Frame) :
    session.Ends (session.settleKey key outcome frame) key number outcome := by
  obtain ⟨transaction, known, same, pending, -⟩ :=
    orderly.entry (Ledger.mem_waiting_of_find? found)
  exact ends_settleKey_of_pending found known same pending outcome frame

theorem routeDeviceError_of_unread {cause : PayloadError}
    (unread : readRejection frame = .error cause) :
    session.routeDeviceError frame = session.report (.payload cause) := by
  simp only [readRejection] at unread
  split at unread
  · rename_i error
    obtain rfl := Except.error.inj unread
    simp only [routeDeviceError, error]
  · cases unread

theorem routeDeviceError_of_read {rejection : DeviceError}
    (read : readRejection frame = .ok rejection) :
    session.routeDeviceError frame =
      session.settleKey rejection.failedKey (.error (.device rejection.code)) frame := by
  simp only [readRejection] at read
  split at read
  · cases read
  · rename_i nothing
    obtain rfl := Except.ok.inj read
    simp only [routeDeviceError, nothing]

/-- Routing a frame has an effect. -/
theorem exists_happens (orderly : session.Orderly) (frame : Frame) :
    ∃ effect, session.Happens frame (session.route frame) effect := by
  cases kind : frame.kind with
  | syncResponse =>
      by_cases special : frame.key = .deviceError
      · cases read : readRejection frame with
        | error cause =>
            refine ⟨_, .reported (.unreadableRejection kind special read) ?_⟩
            simp only [route, kind, if_pos special, routeDeviceError_of_unread read]
        | ok rejection =>
            simp only [route, kind, if_pos special, routeDeviceError_of_read read]
            cases found : session.ledger.find? rejection.failedKey with
            | none =>
                exact ⟨_, .reported (.unmatchedRejection kind special read found)
                  (settleKey_of_free found _ frame)⟩
            | some number =>
                exact ⟨_, .rejected kind special read (ends_settleKey orderly found _ frame)⟩
      · simp only [route, kind, if_neg special]
        cases found : session.ledger.find? frame.key with
        | none =>
            exact ⟨_, .reported (.unmatchedResponse kind special found)
              (settleKey_of_free found _ frame)⟩
        | some number =>
            exact ⟨_, .answered kind special (ends_settleKey orderly found _ frame)⟩
  | asyncRequest =>
      simp only [route, kind, routeIndication, PrototypeTable.instantiate]
      cases known : session.prototypes.find? frame.key with
      | none => exact ⟨_, .reported (.unknownIndication kind known) rfl⟩
      | some prototype =>
          cases read : prototype.decode frame.payload with
          | error cause =>
              refine ⟨_, .reported (.unreadableIndication kind known read) ?_⟩
              simp only [Option.map_some, read]
          | ok event =>
              refine ⟨_, .indicated kind known read ?_⟩
              simp only [Option.map_some, read]
  | syncRequest =>
      simp only [route, kind]
      exact ⟨_, .reported (.unexpectedFrame kind) rfl⟩

theorem Fault.eq_effectOf {error : Error} (fault : session.Fault frame error) :
    .error error = session.effectOf frame := by
  cases fault with
  | unmatchedResponse response ordinary free =>
      simp only [effectOf, response, if_neg ordinary, free]
  | unmatchedRejection response special read free =>
      simp only [effectOf, response, if_pos special, read, free]
  | unreadableRejection response special unread =>
      simp only [effectOf, response, if_pos special, unread]
  | unreadableIndication indication known unread =>
      simp only [effectOf, indication, PrototypeTable.instantiate, known, Option.map_some, unread]
  | unknownIndication indication unknown =>
      simp only [effectOf, indication, PrototypeTable.instantiate, unknown, Option.map_none]
  | unexpectedFrame request => simp only [effectOf, request]

/-- The conditions of different effects exclude one another. -/
theorem Happens.eq_effectOf {effect : Effect} (happens : session.Happens frame next effect) :
    effect = session.effectOf frame := by
  cases happens with
  | answered response ordinary ends =>
      simp only [effectOf, response, if_neg ordinary, ends.found]
  | rejected response special read ends =>
      simp only [effectOf, response, if_pos special, read, ends.found]
  | indicated indication known read delivered =>
      simp only [effectOf, indication, PrototypeTable.instantiate, known, Option.map_some, read]
  | reported fault reported => exact fault.eq_effectOf

theorem Ends.untouched {key : CommandKey} {number other : Nat} {outcome : Outcome}
    (ends : session.Ends next key number outcome) (different : number ≠ other) :
    next.ledger.transactions[other]? = session.ledger.transactions[other]? := by
  obtain ⟨transaction, -, -, -, changed, -⟩ := ends.settled
  rw [changed, List.getElem?_set_ne different]

/-- No transaction changes but the one that the effect ends. -/
theorem Happens.untouched {effect : Effect} (happens : session.Happens frame next effect)
    {number : Nat} (other : effect.ended ≠ some number) :
    next.ledger.transactions[number]? = session.ledger.transactions[number]? := by
  cases happens with
  | answered response ordinary ends =>
      exact ends.untouched fun same => other (congrArg some same)
  | rejected response special read ends =>
      exact ends.untouched fun same => other (congrArg some same)
  | indicated indication known read delivered => rw [delivered]
  | reported fault reported =>
      rw [reported]
      rfl

/-- Events and errors leave all transactions and the table alone. -/
theorem Happens.ledger_eq {effect : Effect} (happens : session.Happens frame next effect)
    (nobody : effect.ended = none) : next.ledger = session.ledger := by
  cases happens with
  | answered response ordinary ends => cases nobody
  | rejected response special read ends => cases nobody
  | indicated indication known read delivered => rw [delivered]
  | reported fault reported =>
      rw [reported]
      rfl

/-- A caller who has a response has had it before, or it has just arrived on the
key under which the caller's transaction waited. -/
theorem delivered_happen (orderly : session.Orderly) {occurrence : Occurrence} {number : Nat}
    {payload : Bytes}
    (delivered : (session.happen occurrence).ledger.replyOf number =
      some (.delivered (.ok payload))) :
    session.ledger.replyOf number = some (.delivered (.ok payload)) ∨
      ∃ frame, occurrence = .arrival frame ∧ frame.payload = payload ∧
        session.Happens frame (session.happen occurrence) (.answer number) := by
  rcases session.happen_cases occurrence with
    wanes | ⟨frame, call, rfl, idle, free⟩ | ⟨frame, answered, rfl, idle, kind, ordinary, found⟩
  · exact .inl (wanes.answers number payload delivered)
  · obtain ⟨calls, accepted, -⟩ := session.accept_of_free frame call free
    simp only [happen, if_pos idle, accepted] at delivered
    have quiet (ledger : Ledger) (timer : Option Nat) :
        ledger.Wanes (ledger.adding { session.newcomer frame call with timer }) :=
      .of_concat rfl rfl fun payload => (session.newcomer_unspent frame call).ne_delivered _
    exact .inl ((quiet _ _).answers number payload delivered)
  · simp only [happen, if_pos idle] at delivered ⊢
    have ends := ends_settleKey orderly found (.ok frame.payload) frame
    have routed : session.route frame =
        session.settleKey frame.key (.ok frame.payload) frame := by
      simp only [route, kind, if_neg ordinary]
    rw [routed] at delivered ⊢
    obtain ⟨transaction, known, -, pending, changed, -⟩ := ends.settled
    rw [Ledger.replyOf_set known changed] at delivered
    split at delivered
    · rename_i same
      subst same
      refine .inr ⟨frame, rfl, ?_, .answered kind ordinary ends⟩
      have unspent := orderly.reply_unspent known pending
      rcases unspent with waiting | dropped
      · simpa [Transaction.settle, waiting, Reply.deliver] using delivered
      · simp [Transaction.settle, dropped, Reply.deliver] at delivered
    · exact .inl delivered

end Effects

/-- After a history, a frame arrives that answers a transaction. -/
def Answers (first : Session) (history : List Occurrence) (frame : Frame) (number : Nat) : Prop :=
  (first.run history).Happens frame (first.run (history ++ [.arrival frame])) (.answer number)

/-- In a history, a request has been registered under a key as the transaction of
the given number. -/
def RegisteredIn (first : Session) (history : List Occurrence) (key : CommandKey)
    (number : Nat) : Prop :=
  ∃ earlier asked call later, history = earlier ++ .request asked call :: later ∧
    asked.key = key ∧ number = (first.run earlier).ledger.transactions.length ∧
      (first.run earlier).Admits (first.run (earlier ++ [.request asked call])) asked call

theorem RegisteredIn.append {first : Session} {history : List Occurrence} {key : CommandKey}
    {number : Nat} (registered : first.RegisteredIn history key number)
    (more : List Occurrence) : first.RegisteredIn (history ++ more) key number := by
  obtain ⟨earlier, asked, call, later, rfl, begun⟩ := registered
  exact ⟨earlier, asked, call, later ++ more, by simp, begun⟩

section Reached

variable (config : SessionConfig) (prototypes : PrototypeTable)

/-- Whatever waits in the table has been registered under its key. -/
theorem registeredIn_of_find? {history : List Occurrence} {key : CommandKey} {number : Nat}
    (found : ((start config prototypes).run history).ledger.find? key = some number) :
    (start config prototypes).RegisteredIn history key number := by
  induction history using List.reverseRecOn with
  | nil => cases found
  | append_singleton history occurrence ih =>
      rw [run_concat] at found
      rcases find?_happen (orderly_run config prototypes history) found with
        before | ⟨frame, call, rfl, idle, same, free, latest⟩
      · exact (ih before).append [occurrence]
      · refine ⟨history, frame, call, [], rfl, same, latest, ?_⟩
        rw [run_concat]
        exact admits_of_free call idle (same ▸ free)

/-- A caller has a response only from a frame that has answered the caller's
transaction. -/
theorem exists_answers_of_delivered {history : List Occurrence} {number : Nat} {payload : Bytes}
    (delivered : ((start config prototypes).run history).ledger.replyOf number =
      some (.delivered (.ok payload))) :
    ∃ before frame after, history = before ++ .arrival frame :: after ∧
      frame.payload = payload ∧ (start config prototypes).Answers before frame number := by
  induction history using List.reverseRecOn with
  | nil => cases delivered
  | append_singleton history occurrence ih =>
      rw [run_concat] at delivered
      rcases delivered_happen (orderly_run config prototypes history) delivered with
        earlier | ⟨frame, rfl, same, happens⟩
      · obtain ⟨before, frame, after, rfl, answered⟩ := ih earlier
        exact ⟨before, frame, after ++ [occurrence], by simp, answered⟩
      · refine ⟨history, frame, [], rfl, same, ?_⟩
        rw [Answers, run_concat]
        exact happens

/-- In every session each frame has exactly one effect, which changes the
transaction that it ends and no other one.  A response goes to one caller at
most, whose request has been registered under its key before. -/
theorem exactly_one_effect (history : List Occurrence) :
    (∀ frame, ∃! effect, ((start config prototypes).run history).Happens frame
      (((start config prototypes).run history).route frame) effect) ∧
    (∀ frame effect, ((start config prototypes).run history).Happens frame
        (((start config prototypes).run history).route frame) effect →
      (∀ number, effect.ended ≠ some number →
        (((start config prototypes).run history).route frame).ledger.transactions[number]? =
          ((start config prototypes).run history).ledger.transactions[number]?) ∧
      (effect.ended = none → (((start config prototypes).run history).route frame).ledger =
        ((start config prototypes).run history).ledger)) ∧
    (∀ number payload, ((start config prototypes).run history).ledger.replyOf number =
        some (.delivered (.ok payload)) →
      ∃ before frame after, history = before ++ .arrival frame :: after ∧
        frame.payload = payload ∧ (start config prototypes).Answers before frame number ∧
          (start config prototypes).RegisteredIn before frame.key number) ∧
    ∀ frame number other, (start config prototypes).Answers history frame number →
      (start config prototypes).Answers history frame other → number = other := by
  refine ⟨?_, ?_, ?_, ?_⟩
  · intro frame
    obtain ⟨effect, happens⟩ := exists_happens (orderly_run config prototypes history) frame
    refine ⟨effect, happens, fun other alternative => ?_⟩
    rw [happens.eq_effectOf, Happens.eq_effectOf alternative]
  · intro frame effect happens
    exact ⟨fun number => happens.untouched, happens.ledger_eq⟩
  · intro number payload delivered
    obtain ⟨before, frame, after, split, same, answers⟩ :=
      exists_answers_of_delivered config prototypes delivered
    refine ⟨before, frame, after, split, same, answers, ?_⟩
    cases answers with
    | answered response ordinary ends => exact registeredIn_of_find? config prototypes ends.found
  · intro frame number other first second
    have same := (Happens.eq_effectOf first).trans (Happens.eq_effectOf second).symm
    exact Effect.answer.inj same

end Reached

/-- A ping is answered.  The same response has another effect when it arrives once
more: it belongs to nobody then. -/
theorem exactly_one_effect_of_repeated_answer :
    let ping : Frame := ⟨.syncRequest, .system, 1, []⟩
    let answer : Frame := ⟨.syncResponse, .system, 1, [0x79, 0x07]⟩
    let callers : Session := { start {} {} with calls := [.queued] }
    let asked : List Occurrence := [.surround callers, .request ping 0, .written]
    let answered := (start {} {}).run (asked ++ [.arrival answer])
    answered.ledger.replyOf 0 = some (.delivered (.ok [0x79, 0x07])) ∧
      (∃ before frame after, asked ++ [.arrival answer] = before ++ .arrival frame :: after ∧
        frame.payload = [0x79, 0x07] ∧ (start {} {}).Answers before frame 0 ∧
          (start {} {}).RegisteredIn before frame.key 0) ∧
      answered.Happens answer (answered.route answer) (.error (.unmatchedResponse answer)) ∧
      (answered.route answer).ledger = answered.ledger := by
  intro ping answer callers asked answered
  have delivered : answered.ledger.replyOf 0 = some (.delivered (.ok [0x79, 0x07])) := rfl
  obtain ⟨-, untouched, origin, -⟩ := exactly_one_effect {} {} (asked ++ [.arrival answer])
  have unmatched : answered.Happens answer (answered.route answer)
      (.error (.unmatchedResponse answer)) :=
    .reported (.unmatchedResponse rfl (by decide) rfl) rfl
  exact ⟨delivered, origin 0 _ delivered, unmatched, (untouched answer _ unmatched).2 rfl⟩

end Session

end ZigbeeHost
