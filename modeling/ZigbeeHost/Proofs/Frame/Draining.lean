import ZigbeeHost.Proofs.Frame.Calls

/-!
# Streams that are cut anywhere

A user of a frame buffer may feed a stream in pieces and, after each piece, ask
until there is nothing more.  The stream may hold anything: frames, noise,
broken candidates and candidates of unknown kind.  Looking for the next frame
commutes with the arrival of more bytes: what has been found is found all the
same, and a buffer without a complete candidate keeps exactly what later bytes
can complete.  So the answers depend on the bytes alone, and not on how they
have been cut.
-/

namespace ZigbeeHost

namespace FrameBuffer

/-- The bytes from the first start byte on. -/
def fromStart (bytes : Bytes) : Bytes :=
  bytes.dropWhile (· ≠ Frame.startByte)

theorem length_fromStart_le (bytes : Bytes) : (fromStart bytes).length ≤ bytes.length :=
  (List.dropWhile_sublist _).length_le

/-- Noise in front of a start byte may be discarded before more bytes arrive. -/
theorem fromStart_fromStart_append (bytes more : Bytes) :
    fromStart (fromStart bytes ++ more) = fromStart (bytes ++ more) := by
  induction bytes with
  | nil => rfl
  | cons byte bytes ih =>
      by_cases start : byte = Frame.startByte
      · simp [fromStart, start]
      · simpa [fromStart, start] using ih

theorem fromStart_append_of_ne_nil {bytes : Bytes} (started : fromStart bytes ≠ [])
    (more : Bytes) : fromStart (bytes ++ more) = fromStart bytes ++ more := by
  induction bytes with
  | nil => exact absurd rfl started
  | cons byte bytes ih =>
      by_cases start : byte = Frame.startByte
      · simp [fromStart, start]
      · simp only [fromStart, List.cons_append, List.dropWhile_cons, ne_eq, start,
          not_false_eq_true, decide_true, if_true] at started ih ⊢
        exact ih started

namespace Step

/-- The step after the arrival of more bytes: only a step that has found nothing
has to be taken again. -/
def feed : Step → Bytes → Step
  | .incomplete buffer, more => (buffer.feed more).next
  | .found frame buffer, more => .found frame (buffer.feed more)
  | .failed error buffer, more => .failed error (buffer.feed more)

theorem eq_incomplete_of_answer {step : Step} (nothing : step.answer = .ok none) :
    step = .incomplete step.buffer := by
  cases step with
  | incomplete buffer => rfl
  | found frame buffer => cases nothing
  | failed error buffer => cases nothing

theorem answer_feed {step : Step} (something : step.answer ≠ .ok none) (more : Bytes) :
    (step.feed more).answer = step.answer := by
  cases step with
  | incomplete buffer => exact absurd rfl something
  | found frame buffer => rfl
  | failed error buffer => rfl

theorem buffer_feed {step : Step} (something : step.answer ≠ .ok none) (more : Bytes) :
    (step.feed more).buffer = step.buffer.feed more := by
  cases step with
  | incomplete buffer => exact absurd rfl something
  | found frame buffer => rfl
  | failed error buffer => rfl

end Step

/-- Bytes are no complete candidate, or taking them apart leaves fewer bytes and
does not depend on what follows. -/
theorem candidate_cases (bytes : Bytes) :
    candidate bytes = .incomplete { bytes } ∨
      ((candidate bytes).buffer.bytes.length < bytes.length ∧
        ∀ more, candidate (bytes ++ more) = (candidate bytes).feed more) := by
  match bytes with
  | [] => exact .inl rfl
  | [_] => exact .inl rfl
  | [_, _] => exact .inl rfl
  | [_, _, _] => exact .inl rfl
  | start :: length :: header :: command :: rest =>
      cases arrived : rest.drop length.toNat with
      | nil => exact .inl (by simp only [candidate, arrived])
      | cons got after =>
          right
          have long : length.toNat ≤ rest.length := by
            rcases Nat.le_total length.toNat rest.length with long | short
            · exact long
            · rw [List.drop_eq_nil_of_le short] at arrived
              cases arrived
          have fewer : after.length < rest.length := by
            have lengths := congrArg List.length arrived
            simp only [List.length_drop, List.length_cons] at lengths
            omega
          constructor
          · simp only [candidate, arrived, List.length_cons]
            split
            · split <;> simp only [Step.buffer] <;> omega
            · simp [Step.buffer]
          · intro more
            have dropped : (rest ++ more).drop length.toNat = got :: (after ++ more) := by
              rw [List.drop_append_of_le_length long, arrived, List.cons_append]
            have taken : (rest ++ more).take length.toNat = rest.take length.toNat :=
              List.take_append_of_le_length long
            simp only [List.cons_append, candidate, arrived, dropped, taken]
            split
            · split <;> rfl
            · rfl

theorem feed_nil (buffer : FrameBuffer) : buffer.feed [] = buffer := by
  simp [feed]

theorem feed_append (buffer : FrameBuffer) (first second : Bytes) :
    buffer.feed (first ++ second) = (buffer.feed first).feed second := by
  simp [feed]

/-- Looking for the next frame commutes with the arrival of more bytes. -/
theorem next_feed (buffer : FrameBuffer) (more : Bytes) :
    (buffer.feed more).next = buffer.next.feed more := by
  change candidate (fromStart (buffer.bytes ++ more)) =
    (candidate (fromStart buffer.bytes)).feed more
  rcases candidate_cases (fromStart buffer.bytes) with waits | ⟨fewer, independent⟩
  · rw [waits, ← fromStart_fromStart_append]
    rfl
  · have started : fromStart buffer.bytes ≠ [] := by
      intro empty
      rw [empty] at fewer
      simp at fewer
    rw [fromStart_append_of_ne_nil started, independent]

/-- A call that answers with a frame or an error consumes bytes. -/
theorem length_next_lt {buffer : FrameBuffer} (something : buffer.next.answer ≠ .ok none) :
    buffer.next.buffer.bytes.length < buffer.bytes.length := by
  change (candidate (fromStart buffer.bytes)).buffer.bytes.length < buffer.bytes.length
  rcases candidate_cases (fromStart buffer.bytes) with waits | ⟨fewer, -⟩
  · refine absurd ?_ something
    change (candidate (fromStart buffer.bytes)).answer = .ok none
    rw [waits]
    rfl
  · exact Nat.lt_of_lt_of_le fewer (length_fromStart_le buffer.bytes)

instance decidableEqNothing (answer : Answer) : Decidable (answer = .ok none) :=
  match answer with
  | .ok none => isTrue rfl
  | .ok (some _) => isFalse nofun
  | .error _ => isFalse nofun

/-- Decodes until there is nothing more: the answers up to then, and the buffer
that is left. -/
def drain (buffer : FrameBuffer) : List Answer × FrameBuffer :=
  if buffer.next.answer = .ok none then ([], buffer.next.buffer)
  else
    let later := drain buffer.next.buffer
    (buffer.next.answer :: later.1, later.2)
termination_by buffer.bytes.length
decreasing_by exact length_next_lt ‹_›

/-- Feeds pieces one after the other and, after each of them, decodes until there
is nothing more. -/
def pump (buffer : FrameBuffer) : List Bytes → List Answer × FrameBuffer
  | [] => ([], buffer)
  | piece :: pieces =>
      let now := (buffer.feed piece).drain
      let later := now.2.pump pieces
      (now.1 ++ later.1, later.2)

theorem drain_of_nothing {buffer : FrameBuffer} (nothing : buffer.next.answer = .ok none) :
    buffer.drain = ([], buffer.next.buffer) := by
  rw [drain, if_pos nothing]

theorem drain_of_something {buffer : FrameBuffer} (something : buffer.next.answer ≠ .ok none) :
    buffer.drain =
      (buffer.next.answer :: buffer.next.buffer.drain.1, buffer.next.buffer.drain.2) := by
  rw [drain, if_neg something]

/-- Only what is found next matters. -/
theorem drain_eq_of_next_eq {first second : FrameBuffer} (same : first.next = second.next) :
    first.drain = second.drain := by
  rw [drain.eq_1 first, drain.eq_1 second, same]

theorem drain_feed (buffer : FrameBuffer) (more : Bytes) :
    (buffer.feed more).drain =
      (buffer.drain.1 ++ (buffer.drain.2.feed more).drain.1,
        (buffer.drain.2.feed more).drain.2) := by
  induction buffer using drain.induct with
  | case1 buffer nothing =>
      have same : (buffer.feed more).next = (buffer.next.buffer.feed more).next := by
        rw [next_feed, Step.eq_incomplete_of_answer nothing]
        rfl
      rw [drain_of_nothing nothing, drain_eq_of_next_eq same]
      rfl
  | case2 buffer something ih =>
      have answer : (buffer.feed more).next.answer = buffer.next.answer := by
        rw [next_feed, Step.answer_feed something]
      have rest : (buffer.feed more).next.buffer = buffer.next.buffer.feed more := by
        rw [next_feed, Step.buffer_feed something]
      rw [drain_of_something (answer ▸ something), drain_of_something something, answer, rest, ih]
      rfl

/-- A buffer that has been drained is one that waits for more bytes. -/
theorem next_drain (buffer : FrameBuffer) :
    buffer.drain.2.next = .incomplete buffer.drain.2 := by
  induction buffer using drain.induct with
  | case1 buffer nothing =>
      have waits := Step.eq_incomplete_of_answer nothing
      have again := next_feed buffer []
      rw [feed_nil, waits, Step.feed, feed_nil] at again
      rw [drain_of_nothing nothing, ← again]
  | case2 buffer something ih =>
      rw [drain_of_something something]
      exact ih

/-- Feeding pieces to a buffer that waits is like feeding them at once. -/
theorem pump_eq_drain {buffer : FrameBuffer} (waits : buffer.next = .incomplete buffer)
    (pieces : List Bytes) : buffer.pump pieces = (buffer.feed pieces.flatten).drain := by
  induction pieces generalizing buffer with
  | nil =>
      rw [List.flatten_nil, feed_nil, drain_of_nothing (by rw [waits]; rfl), waits]
      rfl
  | cons piece pieces ih =>
      rw [List.flatten_cons, feed_append, drain_feed, pump, ih (next_drain _)]

/-- What has been framed is found again, and nothing is left. -/
theorem drain_wireForms {frames : List Frame}
    (small : ∀ frame ∈ frames, frame.payload.length ≤ Frame.maxPayload) :
    ({ bytes := frames.flatMap Frame.wireForm } : FrameBuffer).drain =
      (frames.map fun frame => .ok (some frame), {}) := by
  induction frames with
  | nil => exact drain_of_nothing rfl
  | cons frame frames ih =>
      obtain ⟨first, others⟩ := List.forall_mem_cons.1 small
      have found := next_wireForm_append first (frames.flatMap Frame.wireForm)
      have something : ({ bytes := (frame :: frames).flatMap Frame.wireForm } :
          FrameBuffer).next.answer ≠ .ok none := by
        rw [List.flatMap_cons, found]
        nofun
      rw [drain_of_something something, List.flatMap_cons, found, List.map_cons]
      simp only [Step.answer, Step.buffer, ih others]

/-- Draining consists of the calls up to the first one that answers with
nothing. -/
theorem run_decode_eq_drain (buffer : FrameBuffer) :
    run buffer (List.replicate (buffer.drain.1.length + 1) .decode) =
        (buffer.drain.1 ++ [.ok none], buffer.drain.2) ∧
      ∀ answer ∈ buffer.drain.1, answer ≠ .ok none := by
  induction buffer using drain.induct with
  | case1 buffer nothing =>
      rw [drain_of_nothing nothing]
      exact ⟨by simp [run, nothing], fun _ inside => by cases inside⟩
  | case2 buffer something ih =>
      obtain ⟨calls, answers⟩ := ih
      rw [drain_of_something something]
      refine ⟨?_, List.forall_mem_cons.2 ⟨something, answers⟩⟩
      rw [List.length_cons, List.replicate_succ, run, calls]
      rfl

/-- The answers to a stream and the buffer that is left depend on the bytes
alone, however they have been cut. -/
theorem pump_eq_of_flatten_eq {first second : List Bytes}
    (same : first.flatten = second.flatten) : pump {} first = pump {} second := by
  rw [pump_eq_drain next_empty, pump_eq_drain next_empty, same]

/-- Noise, a candidate with a wrong check byte, one of unknown kind, a frame and
the start of another one, in four pieces and at once. -/
theorem pump_eq_of_hostile_stream :
    let first : List Bytes :=
      [[0x00, 0xfe, 0x00], [0x21, 0x01, 0xff, 0xfe], [0x00, 0x81, 0x01],
        [0x80, 0xfe, 0x00, 0x21, 0x01, 0x20, 0xfe, 0x01]]
    let second : List Bytes :=
      [[0x00, 0xfe, 0x00, 0x21, 0x01, 0xff, 0xfe, 0x00, 0x81, 0x01, 0x80, 0xfe, 0x00, 0x21,
        0x01, 0x20, 0xfe, 0x01]]
    first.flatten = second.flatten ∧ pump {} first = pump {} second ∧
      pump {} second =
        ([.error (.checksum 0x20 0xff), .error (.invalidKind 4),
          .ok (some ⟨.syncRequest, .system, 1, []⟩)], { bytes := [0xfe, 0x01] }) := by
  intro first second
  have same : first.flatten = second.flatten := by decide
  refine ⟨same, pump_eq_of_flatten_eq same, ?_⟩
  rw [pump_eq_drain next_empty, drain_of_something (by decide), drain_of_something (by decide),
    drain_of_something (by decide), drain_of_nothing (by decide)]
  rfl

end FrameBuffer

end ZigbeeHost
