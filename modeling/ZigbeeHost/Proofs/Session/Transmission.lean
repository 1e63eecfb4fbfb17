import ZigbeeHost.Proofs.Frame.Draining
import ZigbeeHost.Proofs.Session.Conveyance

/-!
# What is sent to the radio

A request that cannot be sent does not even get into the queue.  The engine takes the
frames out of the queue in their order, leaves the requests out that it refuses, and
writes all the others, one after the other.  Every frame in the queue is small enough to
be framed, so as long as the stream takes what is written, the radio finds exactly these
frames in it.
-/

namespace ZigbeeHost

namespace Request

/-- Why a request cannot be sent: its payload has no encoding, or is larger than
what the radio accepts. -/
inductive Unsendable (request : Request) : Error → Prop
  | unencodable (cause : PayloadError) (failed : request.payload = .error cause) :
      request.Unsendable (.payload cause)
  | tooLarge (payload : Bytes) (encoded : request.payload = .ok payload)
      (large : Frame.maxPayload < payload.length) :
      request.Unsendable (.transport (.frame (.tooLarge payload.length Frame.maxPayload)))

variable {request : Request}

theorem Unsendable.frame_eq {error : Error} (unsendable : request.Unsendable error) :
    request.frame = .error error := by
  cases unsendable with
  | unencodable cause failed => simp only [frame, failed]
  | tooLarge payload encoded large => simp only [frame, encoded, Frame.checkSize, if_pos large]

/-- The frame of a request has passed the check of its size. -/
theorem length_le_of_frame {frame : Frame} (sendable : request.frame = .ok frame) :
    frame.payload.length ≤ Frame.maxPayload := by
  simp only [Request.frame] at sendable
  split at sendable
  · cases sendable
  · rename_i payload encoded
    split at sendable
    · cases sendable
    · rename_i checked
      obtain rfl := Except.ok.inj sendable
      simp only [Frame.checkSize] at checked
      split at checked
      · cases checked
      · rename_i small
        exact Nat.not_lt.1 small

end Request

theorem Pipe.writeFrame_ne_frame_error {frame : Frame}
    (small : frame.payload.length ≤ Frame.maxPayload) (pipe : Pipe) (cause : FrameError) :
    pipe.writeFrame frame ≠ .error (.frame cause) := by
  simp only [writeFrame, Frame.toWire_of_small small, write]
  split
  · simp
  · simp
  · split <;> simp

namespace Course

section Origins

variable {course : Course}

/-- Only a call whose request can be sent comes to have a frame to hand in. -/
theorem submitting_step {turn : Turn} {number : Nat} {outgoing : Outgoing}
    (submitting : (course.step turn).session.calls[number]? = some (.submitting outgoing)) :
    course.session.calls[number]? = some (.submitting outgoing) ∨
      ∃ request, turn = .call request ∧ request.frame = .ok outgoing.frame ∧
        outgoing.caller.isSome = request.isAnswered := by
  have changed {other : Nat} {before after : CallState}
      (known : course.session.calls[other]? = some before)
      (calls : (course.step turn).session.calls = course.session.calls.set other after)
      (ended : after ≠ .submitting outgoing) :
      course.session.calls[number]? = some (.submitting outgoing) := by
    rw [calls, getElem?_set_of_known known] at submitting
    split at submitting
    · exact absurd (Option.some.inj submitting) ended
    · exact submitting
  cases course.effect turn with
  | proceeds nobody calls => exact .inl (calls ▸ submitting)
  | asks request same =>
      subst same
      rcases course.session.call_cases submitting with earlier | ⟨-, first⟩
      · exact .inl earlier
      · refine .inr ⟨request, rfl, ?_⟩
        simp only [Session.firstState] at first
        split at first
        · cases first
        · rename_i frame sendable
          obtain rfl := CallState.submitting.inj first
          rw [sendable]
          cases request.isAnswered <;> exact ⟨rfl, rfl⟩
  | submits other pending same known calls =>
      refine .inl (changed known calls ?_)
      simp only [Session.submitted, Session.queuedState]
      split
      · split <;> simp
      · simp
  | withdraws other before same known early calls => exact .inl (changed known calls (by simp))
  | leaves other transaction same known calls => exact .inl (changed known calls (by simp))
  | collects other transaction outcome same known delivered calls =>
      exact .inl (changed known calls (by simp))
  | begins frame call rest latest serving taken oldest calls =>
      rw [calls] at submitting
      rcases course.session.connectedCalls_cases call course.session.ledger.transactions.length
        number with kept | ⟨-, -, connected⟩
      · exact .inl (kept ▸ submitting)
      · rw [connected] at submitting
        cases submitting
  | cancels same leaving =>
      subst same
      simp only [step, if_pos leaving] at submitting
      exact .inl submitting
  | drops same cancelled =>
      subst same
      rw [calls_drop cancelled] at submitting
      rcases Session.foldl_droppedCalls_cases course.session.outbound course.session.calls number
        with kept | ⟨-, dropped⟩
      · exact .inl (kept ▸ submitting)
      · rw [dropped] at submitting
        cases submitting

/-- Only a call that can hand in a frame does. -/
theorem submitting_of_handedIn {turn : Turn} {outgoing : Outgoing}
    (handed : outgoing ∈ course.handedIn turn) :
    ∃ number : Nat, course.session.calls[number]? = some (.submitting outgoing) := by
  cases turn with
  | submit number =>
      simp only [handedIn] at handed
      split at handed
      · rename_i pending submitting
        split at handed
        · obtain rfl := List.mem_singleton.1 handed
          exact ⟨number, submitting⟩
        · cases handed
      · cases handed
  | _ => cases handed

/-- Only a request in the queue is taken up. -/
theorem mem_outbound_of_takenUp {turn : Turn} {frame : Frame} {call : Nat}
    (taken : (frame, call) ∈ course.takenUp turn) :
    .answered frame call ∈ course.session.outbound := by
  cases turn with
  | dequeue =>
      simp only [takenUp] at taken
      split at taken
      · split at taken
        · rename_i oldest rest waiting
          obtain ⟨rfl, rfl⟩ := Prod.mk.inj (List.mem_singleton.1 taken)
          rw [waiting]
          exact List.mem_cons_self
        · cases taken
      · cases taken
  | _ => cases taken

/-- No request is taken up for a call that has ended. -/
theorem notMem_requests_of_finished (queues : course.session.Queues) {number : Nat}
    {outcome : Outcome} (finished : course.session.calls[number]? = some (.finished outcome))
    (turns : List Turn) (frame : Frame) : (frame, number) ∉ course.requests turns := by
  induction turns generalizing course with
  | nil => exact List.not_mem_nil
  | cons turn turns ih =>
      rw [requests, List.mem_append, not_or]
      constructor
      · intro taken
        have known := queues.waits frame number (mem_outbound_of_takenUp taken)
        simp [finished] at known
      · exact ih (queues_step queues turn) (calls_step_of_ended finished trivial turn)

end Origins

/-- A call ends at once with an error.  Nothing else changes, and nothing is queued or
registered for it later. -/
structure Declines {α : Type} (course : Course) (call : Call α) (error : Error) : Prop where
  only : course.step (.call call.request) = { course with
    session := { course.session with
      calls := course.session.calls ++ [.finished (.error error)] } }
  returned : call.result (.error error) = .error error
  unqueued : ∀ later, ((course.step (.call call.request)).run later).step
    (.submit course.session.calls.length) = (course.step (.call call.request)).run later
  unregistered : ∀ later frame,
    (frame, course.session.calls.length) ∉ (course.step (.call call.request)).requests later

theorem declines_of_unsendable {α : Type} {course : Course} (queues : course.session.Queues)
    {call : Call α} {error : Error} (unsendable : call.request.Unsendable error) :
    course.Declines call error := by
  have only : course.step (.call call.request) = { course with
      session := { course.session with
        calls := course.session.calls ++ [.finished (.error error)] } } := by
    simp only [step, Session.call, Session.firstState, unsendable.frame_eq]
  have finished : (course.step (.call call.request)).session.calls[course.session.calls.length]? =
      some (.finished (.error error)) := by
    rw [only]
    exact List.getElem?_concat_length
  refine ⟨only, rfl, fun later => ?_, fun later frame => ?_⟩
  · have still := calls_run_of_ended finished trivial later
    have nothing : ((course.step (.call call.request)).run later).session.submit?
        course.session.calls.length = none := by
      simp only [Session.submit?, still]
    simp only [step] at nothing ⊢
    simp only [attempt, nothing, Option.getD_none]
  · exact notMem_requests_of_finished (queues_step queues _) finished later frame

section Reached

variable (config : SessionConfig) (prototypes : PrototypeTable)

theorem conveys_run (turns : List Turn) (turn : Turn) :
    ((start config prototypes).run turns).Conveys turn := by
  exact conveys ((kept_start config prototypes).run turns).steady turn

theorem origin_of_submitting {turns : List Turn} {number : Nat} {outgoing : Outgoing}
    (submitting : ((start config prototypes).run turns).session.calls[number]? =
      some (.submitting outgoing)) :
    ∃ request, .call request ∈ turns ∧ request.frame = .ok outgoing.frame ∧
      outgoing.caller.isSome = request.isAnswered := by
  induction turns using List.reverseRecOn with
  | nil => simp [run, start, Session.start] at submitting
  | append_singleton turns turn ih =>
      rw [run_concat] at submitting
      rcases submitting_step submitting with earlier | ⟨request, rfl, sendable, answered⟩
      · obtain ⟨request, asked, sendable, answered⟩ := ih earlier
        exact ⟨request, List.mem_append_left _ asked, sendable, answered⟩
      · exact ⟨request, by simp, sendable, answered⟩

theorem origin_of_handedIn {turns : List Turn} {outgoing : Outgoing}
    (handed : outgoing ∈ (start config prototypes).along handedIn turns) :
    ∃ request, .call request ∈ turns ∧ request.frame = .ok outgoing.frame ∧
      outgoing.caller.isSome = request.isAnswered := by
  obtain ⟨earlier, turn, later, rfl, now⟩ := exists_of_mem_along handedIn handed
  obtain ⟨number, submitting⟩ := submitting_of_handedIn now
  obtain ⟨request, asked, sendable⟩ := origin_of_submitting config prototypes submitting
  exact ⟨request, List.mem_append_left _ asked, sendable⟩

/-- The frames that have been handed in have been taken out in this order, or wait in
the queue, unless the engine has gone. -/
theorem exists_waiting (turns : List Turn) :
    ∃ waiting, (start config prototypes).along handedIn turns =
        ((start config prototypes).along takenOut turns).map Prod.fst ++ waiting ∧
      (((start config prototypes).run turns).phase ≠ .gone →
        ((start config prototypes).run turns).session.outbound = waiting) := by
  rw [← along_map]
  refine exists_queued rfl ?_ ?_ turns
  · exact fun earlier turn => (conveys_run config prototypes earlier turn).outbound_eq
  · intro earlier turn gone
    rw [(conveys_run config prototypes earlier turn).takenOut_of_gone gone, List.map_nil]

theorem passed_run (turns : List Turn) :
    (start config prototypes).along passed turns =
      (((start config prototypes).along takenOut turns).filter
        fun taken => ¬ taken.1.IsRefused taken.2).map fun taken => taken.1.frame := by
  induction turns using List.reverseRecOn with
  | nil => rfl
  | append_singleton turns turn ih =>
      rw [along_concat, along_concat, ih, (conveys_run config prototypes turns turn).passed_eq,
        List.filter_append, List.map_append]

theorem written_run (turns : List Turn) :
    (start config prototypes).along passed turns =
      ((start config prototypes).along written turns).map Prod.fst ++
        ((start config prototypes).run turns).session.inFlight := by
  induction turns using List.reverseRecOn with
  | nil => rfl
  | append_singleton turns turn ih =>
      rw [along_concat, along_concat, run_concat, ih, List.append_assoc,
        (conveys_run config prototypes turns turn).inFlight_eq, List.map_append, List.append_assoc]

theorem transmitted_run (turns : List Turn) :
    (start config prototypes).along transmitted turns =
      ((start config prototypes).along written turns).flatMap sentBytes := by
  induction turns using List.reverseRecOn with
  | nil => rfl
  | append_singleton turns turn ih =>
      rw [along_concat, along_concat, ih, (conveys_run config prototypes turns turn).transmitted_eq,
        List.flatMap_append]

theorem small_of_passed {turns : List Turn} {frame : Frame}
    (inside : frame ∈ (start config prototypes).along passed turns) :
    frame.payload.length ≤ Frame.maxPayload := by
  rw [passed_run] at inside
  obtain ⟨taken, member, rfl⟩ := List.mem_map.1 inside
  obtain ⟨waiting, whole, -⟩ := exists_waiting config prototypes turns
  have handed : taken.1 ∈ (start config prototypes).along handedIn turns := by
    rw [whole]
    exact List.mem_append_left _ (List.mem_map_of_mem (List.mem_filter.1 member).1)
  obtain ⟨request, -, sendable, -⟩ := origin_of_handedIn config prototypes handed
  exact Request.length_le_of_frame sendable

theorem small_of_written {turns : List Turn} {write : Frame × Except TransportError Pipe}
    (inside : write ∈ (start config prototypes).along written turns) :
    write.1.payload.length ≤ Frame.maxPayload := by
  have passes : write.1 ∈ (start config prototypes).along passed turns := by
    rw [written_run]
    exact List.mem_append_left _ (List.mem_map_of_mem inside)
  exact small_of_passed config prototypes passes

theorem ne_frame_error_of_written {turns : List Turn} {write : Frame × Except TransportError Pipe}
    (inside : write ∈ (start config prototypes).along written turns) (cause : FrameError) :
    write.2 ≠ .error (.frame cause) := by
  have small := small_of_written config prototypes inside
  obtain ⟨earlier, turn, later, -, now⟩ := exists_of_mem_along written inside
  cases turn with
  | finishWrite =>
      simp only [written] at now
      split at now
      · obtain ⟨frame, -, rfl⟩ := List.mem_map.1 now
        exact Pipe.writeFrame_ne_frame_error small _ cause
      · cases now
  | _ => cases now

/-- How the frames of the callers get to the radio. -/
structure Transmission (initial last : Course) (turns : List Turn) : Prop where
  /-- A call that cannot be sent is told so at once. -/
  declined : ∀ {α : Type} (call : Call α) error, call.request.Unsendable error →
    last.Declines call error
  origin : ∀ outgoing ∈ initial.along handedIn turns, ∃ request, .call request ∈ turns ∧
    request.frame = .ok outgoing.frame ∧ outgoing.caller.isSome = request.isAnswered
  in_order : (initial.along takenOut turns).map Prod.fst <+: initial.along handedIn turns
  waiting : last.phase ≠ .gone → initial.along handedIn turns =
    (initial.along takenOut turns).map Prod.fst ++ last.session.outbound
  /-- Everything that is taken out is passed on, except for the requests under whose
  key another one is pending at that time. -/
  unrefused : initial.along passed turns =
    ((initial.along takenOut turns).filter fun taken => ¬ taken.1.IsRefused taken.2).map
      fun taken => taken.1.frame
  small : ∀ frame ∈ initial.along passed turns, frame.payload.length ≤ Frame.maxPayload
  unfinished : initial.along passed turns =
    (initial.along written turns).map Prod.fst ++ last.session.inFlight
  framed : ∀ write ∈ initial.along written turns, ∀ cause, write.2 ≠ .error (.frame cause)
  stream : ∀ turn, ¬ turn.IsOutside → (last.step turn).session.pipe.toRadio =
    last.session.pipe.toRadio ++ last.transmitted turn
  /-- However the radio cuts the stream, it finds the frames that have been written. -/
  found : (∀ write ∈ initial.along written turns, write.2.isOk) → ∀ pieces : List Bytes,
    pieces.flatten = initial.along transmitted turns →
      FrameBuffer.pump {} pieces =
        (((initial.along written turns).map Prod.fst).map fun frame => .ok (some frame), {})

/-- Whatever the callers and everybody else do, and in whatever order, the frames that
can be sent are sent in the order in which they have been handed in, and arrive. -/
theorem transmission_run (turns : List Turn) :
    Transmission (start config prototypes) ((start config prototypes).run turns) turns where
  declined call error unsendable :=
    declines_of_unsendable ((kept_start config prototypes).run turns).queues unsendable
  origin outgoing handed := origin_of_handedIn config prototypes handed
  in_order := by
    obtain ⟨waiting, whole, -⟩ := exists_waiting config prototypes turns
    exact ⟨waiting, whole.symm⟩
  waiting there := by
    obtain ⟨waiting, whole, same⟩ := exists_waiting config prototypes turns
    rw [whole, same there]
  unrefused := passed_run config prototypes turns
  small frame inside := small_of_passed config prototypes inside
  unfinished := written_run config prototypes turns
  framed write inside := ne_frame_error_of_written config prototypes inside
  stream turn inside := by
    have conveys := conveys_run config prototypes turns turn
    rw [conveys.toRadio_eq inside, conveys.transmitted_eq]
  found working pieces same := by
    have bytes : (start config prototypes).along transmitted turns =
        (((start config prototypes).along written turns).map Prod.fst).flatMap
          Frame.wireForm := by
      rw [transmitted_run, List.flatMap_map]
      exact List.flatMap_congr fun write inside => by rw [sentBytes, if_pos (working write inside)]
    have small : ∀ frame ∈ ((start config prototypes).along written turns).map Prod.fst,
        frame.payload.length ≤ Frame.maxPayload := by
      intro frame inside
      obtain ⟨write, member, rfl⟩ := List.mem_map.1 inside
      exact small_of_written config prototypes member
    rw [FrameBuffer.pump_eq_drain FrameBuffer.next_empty, same, bytes]
    exact FrameBuffer.drain_wireForms small

/-- Of two pings and a reset, the second ping is refused. -/
example :
    let ping : Request := { isAnswered := true, key := ⟨.system, 1⟩, payload := .ok [] }
    let reset : Request := { isAnswered := false, key := ⟨.system, 0⟩, payload := .ok [1] }
    (start {} {}).along passed [.call ping, .submit 0, .call ping, .submit 1, .dequeue, .call reset,
        .submit 2, .finishWrite, .dequeue, .dequeue] =
      [⟨.syncRequest, .system, 1, []⟩, ⟨.asyncRequest, .system, 0, [1]⟩] := by decide

end Reached

end Course

end ZigbeeHost
