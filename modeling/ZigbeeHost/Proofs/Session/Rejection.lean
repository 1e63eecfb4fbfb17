import ZigbeeHost.Proofs.Payload.Fields
import ZigbeeHost.Proofs.Session.Routing

/-!
# A rejection ends the request that it names

The radio rejects a request with an error response.  It repeats two bytes of the
request's wire form, the first header byte and the command, and the host finds the
pending request by them.  The two sides write this header byte down differently:
frames put kind and subsystem into it by arithmetic, and the error response is a
record with a bit run.  They agree for every subsystem, so a rejection ends the
request that it names and no other one.
-/

namespace ZigbeeHost

theorem ByteOrder.take_one (order : ByteOrder) (byte : UInt8) (rest : Bytes) :
    order.take 1 (byte :: rest) = .ok (byte.toNat, rest) := by
  cases order <;> simp [take, takeBytes, read, valueOfLow, Except.map]

theorem WireType.decode_byte {tags : FieldTags} (unbounded : tags.bound = none)
    (destination : BitVec Width.one.bits) (byte : UInt8) (rest : Bytes) :
    (WireType.uint .one).decode tags destination (byte :: rest) =
      { value := BitVec.ofNat Width.one.bits byte.toNat, rest } := by
  simp only [WireType.decode, FieldTags.takeUint, unbounded]
  change Reading.ofTaken _ _ _ (tags.order.take 1 (byte :: rest)) = _
  rw [ByteOrder.take_one]
  rfl

namespace Catalog

/-- The share of the subsystem in a header byte. -/
def subsystemBits : BitMask := { mask := 0x1f, role := .first }

/-- The share of the kind in a header byte. -/
def kindBits : BitMask := { mask := 0xe0, role := .last }

theorem extract_subsystemBits (header : Nat) : subsystemBits.extract header = header % 32 := by
  have shift : subsystemBits.shift = 0 := by decide
  rw [BitMask.extract, shift]
  exact Nat.and_two_pow_sub_one_eq_mod header 5

/-- An error response is read byte by byte, and what follows the command is
ignored. -/
theorem ofPayload_errorFrame (code header command : UInt8) (trailing : Bytes) :
    errorFrame.ofPayload errorFrame.default (code :: header :: command :: trailing) =
      { value :=
          (BitVec.ofNat Width.one.bits code.toNat,
            BitVec.ofNat Width.one.bits (header.toNat % 32),
            BitVec.ofNat Width.one.bits (kindBits.extract header.toNat),
            BitVec.ofNat Width.one.bits command.toNat, ())
        rest := trailing } := by
  have parsed : (Fields.ofList [byte "code", firstBits "subsystem" .one "0x1f",
      lastBits "command_type" .one "0xe0", byte "command"]).layout "ErrorFrame" = .ok
        { record := "ErrorFrame"
          fields :=
            [{ name := "code", shape := .uint .one, tags := { field := "code" } },
             { name := "subsystem", shape := .uint .one, runWidth := some .one,
               tags := { field := "subsystem", bitMask := some subsystemBits } },
             { name := "command_type", shape := .uint .one, runWidth := some .one,
               tags := { field := "command_type", bitMask := some kindBits } },
             { name := "command", shape := .uint .one, tags := { field := "command" } }] } := rfl
  rw [← extract_subsystemBits]
  simp only [WireType.ofPayload, WireType.decode, parsed, Layout.transferred]
  rw [Fields.decode_of_plain rfl rfl, WireType.decode_byte rfl]
  simp only [Reading.andThen]
  rw [Fields.decode_of_first rfl rfl rfl (ByteOrder.take_one _ _ _),
    Fields.decode_of_inside rfl rfl (by decide), Fields.decode_of_plain rfl rfl,
    WireType.decode_byte rfl]
  rfl

/-- Each of the first three bytes is needed. -/
theorem ofPayload_errorFrame_of_short {payload : Bytes} (short : payload.length < 3) :
    (errorFrame.ofPayload errorFrame.default payload).error =
      some (.decode (.unexpectedEnd 1 0)) := by
  match payload, short with
  | [], _ => rfl
  | [_], _ => rfl
  | [_, _], _ => rfl

end Catalog

namespace Frame

theorem getElem?_wireForm_header (frame : Frame) :
    frame.wireForm[2]? = some (headerByte frame.kind frame.subsystem) :=
  rfl

/-- The low bits of a header byte are those that a record of one byte can hold. -/
theorem ofNat_mod_eq_headerSubsystem (header : UInt8) :
    Subsystem.ofNat (BitVec.ofNat Width.one.bits (header.toNat % 32)).toNat =
      headerSubsystem header := by
  have small : header.toNat % 32 < 2 ^ Width.one.bits :=
    Nat.lt_trans (Nat.mod_lt _ (by decide)) (by decide)
  rw [BitVec.toNat_ofNat, Nat.mod_eq_of_lt small]
  simp [Subsystem.ofNat, headerSubsystem, Fin.ofNat]

end Frame

namespace Ledger

variable {ledger next : Ledger} {key : CommandKey}

theorem find?_of_removed
    (removed : next.waiting = ledger.waiting.filter fun entry => entry.1 ≠ key) :
    next.find? key = none ∧ ∀ other, other ≠ key → next.find? other = ledger.find? other := by
  simp only [find?, removed, List.find?_filter]
  constructor
  · simp
  · intro other different
    congr 2
    funext entry
    by_cases same : entry.1 = other <;> simp [same, different]

end Ledger

namespace Session

variable {session next : Session} {asked response : Frame}

/-- A pending request is removed from the table and ends as failed, with the error
that the radio has reported.  No other request is concerned. -/
structure Rejects (session next : Session) (asked : Frame) (number : Nat)
    (cause : DeviceErrorCode) : Prop where
  ends : session.Ends next asked.key number (.error (.device cause))
  state : next.ledger.stateOf number = some .failed
  reply : session.ledger.replyOf number = some .waiting →
    next.ledger.replyOf number = some (.delivered (.error (.device cause)))
  removed : next.ledger.find? asked.key = none
  otherKeys : ∀ key, key ≠ asked.key → next.ledger.find? key = session.ledger.find? key
  otherTransactions : ∀ other, other ≠ number →
    next.ledger.transactions[other]? = session.ledger.transactions[other]?

theorem Ends.rejects {number : Nat} {cause : DeviceErrorCode}
    (ends : session.Ends next asked.key number (.error (.device cause))) :
    session.Rejects next asked number cause := by
  obtain ⟨transaction, known, -, -, changed, -⟩ := ends.settled
  obtain ⟨removed, otherKeys⟩ := Ledger.find?_of_removed ends.removed
  refine ⟨ends, ?_, ?_, removed, otherKeys, ?_⟩
  · rw [Ledger.stateOf_set known changed, if_pos rfl]
    rfl
  · intro waiting
    rw [Ledger.replyOf_of_known known, Option.some.injEq] at waiting
    rw [Ledger.replyOf_set known changed, if_pos rfl, Transaction.settle, waiting]
    rfl
  · exact fun other different => ends.untouched (Ne.symm different)

theorem readRejection_eq {code header command : UInt8} {trailing : Bytes}
    (payload : response.payload = code :: header :: command :: trailing) :
    readRejection response =
      .ok { code := .ofByte code
            failedKey := { subsystem := Frame.headerSubsystem header, command } } := by
  have held (byte : UInt8) : UInt8.ofBitVec (BitVec.ofNat Width.one.bits byte.toNat) = byte :=
    UInt8.ofNat_toNat
  rw [readRejection, payload, Catalog.ofPayload_errorFrame]
  simp only [DeviceError.ofRecord, held, Frame.ofNat_mod_eq_headerSubsystem]

theorem readRejection_of_short (short : response.payload.length < 3) :
    readRejection response = .error (.decode (.unexpectedEnd 1 0)) := by
  simp only [readRejection, Catalog.ofPayload_errorFrame_of_short short]

/-- An error response that repeats the header byte and the command of a pending
request ends this request, with the reason whose code it carries; what follows
these bytes does not matter.  An error response that is too short to name a request
ends nothing, and is reported. -/
theorem rejection_ends_named_request (response : Frame) (kind : response.kind = .syncResponse)
    (special : response.key = .deviceError) (session : Session) :
    (∀ asked code header trailing number transaction,
      asked.kind = .syncRequest → asked.wireForm[2]? = some header →
      response.payload = code :: header :: asked.command :: trailing →
      session.ledger.find? asked.key = some number →
      session.ledger.transactions[number]? = some transaction →
      transaction.key = asked.key → transaction.state = .pending →
        ∃ cause, DeviceErrorCode.code cause = code ∧
          session.Rejects (session.route response) asked number cause) ∧
    (response.payload.length < 3 →
      session.route response =
        session.report (.payload (.decode (.unexpectedEnd 1 0)))) := by
  constructor
  · intro asked code header trailing number transaction _ image payload found known own pending
    rw [Frame.getElem?_wireForm_header] at image
    obtain rfl := Option.some.inj image
    have read := readRejection_eq payload
    rw [Frame.headerSubsystem_headerByte] at read
    refine ⟨.ofByte code, DeviceErrorCode.code_ofByte code, ?_⟩
    simp only [route, kind, if_pos special, routeDeviceError_of_read read]
    exact (ends_settleKey_of_pending found known own pending _ response).rejects
  · intro short
    simp only [route, kind, if_pos special,
      routeDeviceError_of_unread (readRejection_of_short short)]

/-- While a ping and a request of an unnamed subsystem are pending, the radio rejects
the latter for a reason that has no name. -/
theorem rejection_ends_named_request_of_two_pending :
    let ping : Frame := ⟨.syncRequest, .system, 1, []⟩
    let asked : Frame := ⟨.syncRequest, ⟨31⟩, 0xfe, [7]⟩
    let response : Frame := ⟨.syncResponse, .reserved, 0, [0x42, 0x3f, 0xfe, 0x99]⟩
    let session := (start {} {}).run
      [.surround { start {} {} with calls := [.queued, .queued] }, .request ping 0, .written,
        .request asked 1, .written]
    asked.wireForm[2]? = some 0x3f ∧ session.ledger.find? asked.key = some 1 ∧
      (∃ cause, DeviceErrorCode.code cause = 0x42 ∧
        session.Rejects (session.route response) asked 1 cause) ∧
      (session.route response).ledger.find? ping.key = some 0 ∧
      session.route ⟨.syncResponse, .reserved, 0, [0x42, 0x3f]⟩ =
        session.report (.payload (.decode (.unexpectedEnd 1 0))) := by
  intro ping asked response session
  have rejects := (rejection_ends_named_request response rfl rfl session).1 asked 0x42 0x3f [0x99]
    1 _ rfl rfl rfl rfl rfl rfl rfl
  obtain ⟨cause, code, rejected⟩ := rejects
  refine ⟨rfl, rfl, ⟨cause, code, rejected⟩, ?_, ?_⟩
  · exact rejected.otherKeys ping.key (by decide)
  · exact (rejection_ends_named_request ⟨.syncResponse, .reserved, 0, [0x42, 0x3f]⟩ rfl rfl
      session).2 (by decide)

end Session

end ZigbeeHost
