import ZigbeeHost.Proofs.Payload.Fields

/-!
# How far a list can grow

The length prefix of a list comes from the payload and may announce more than
the payload holds.  It does not decide how long reading goes on: every element
but the last one takes at least one byte, so the bytes that are left bound the
number of elements and the number of turns.  This needs that no reader gives
bytes back, which holds of every type, also when reading fails.
-/

namespace ZigbeeHost

/-- Reading only uses bytes up: what it leaves is the end of the payload. -/
def Consumes {α : Type} (read : Bytes → Reading α) : Prop :=
  ∀ payload, (read payload).rest <:+ payload

namespace Consumes

variable {α β : Type}

theorem map {read : Bytes → Reading α} (consumes : Consumes read) (transform : α → β) :
    Consumes fun payload => (read payload).map transform :=
  consumes

theorem andThen {read : Bytes → Reading α} (consumes : Consumes read) (stopped : α → β)
    {next : α → Bytes → Reading β} (later : ∀ value, Consumes (next value)) :
    Consumes fun payload => (read payload).andThen stopped next := by
  intro payload
  have first := consumes payload
  simp only [Reading.andThen]
  split
  · exact first
  · exact (later _ _).trans first

theorem ofTaken (destination : α) (store : β → α)
    {take : Bytes → Except DecodeError (β × Bytes)}
    (takes : ∀ payload taken rest, take payload = .ok (taken, rest) → rest <:+ payload) :
    Consumes fun payload => Reading.ofTaken destination payload store (take payload) := by
  intro payload
  cases taken : take payload with
  | error error => simp only [taken, Reading.ofTaken, List.suffix_rfl]
  | ok result =>
      simp only [taken, Reading.ofTaken]
      exact takes payload _ _ taken

theorem takeBytes {count : Nat} {payload raw rest : Bytes}
    (taken : takeBytes count payload = .ok (raw, rest)) : rest <:+ payload := by
  obtain ⟨-, rfl⟩ := takeBytes_eq_ok taken
  exact List.suffix_append raw rest

theorem take {order : ByteOrder} {count number : Nat} {payload rest : Bytes}
    (taken : order.take count payload = .ok (number, rest)) : rest <:+ payload := by
  obtain ⟨raw, -, -, rfl⟩ := ByteOrder.take_eq_ok taken
  exact List.suffix_append raw rest

theorem takeLength {tags : FieldTags} {announced : Option Nat} {payload body : Bytes}
    (taken : tags.takeLength payload = .ok (announced, body)) : body <:+ payload := by
  obtain ⟨header, rfl, -, -⟩ := FieldTags.writeLength_of_takeLength taken
  exact List.suffix_append header body

theorem text (tags : FieldTags) (destination : String) :
    Consumes (tags.readText destination) := by
  intro payload
  simp only [FieldTags.readText]
  split
  · exact ofTaken destination _ (fun _ _ _ taken => take taken) payload
  · split
    · exact List.suffix_refl payload
    · rename_i announced body prefixed
      have behind := takeLength prefixed
      split
      · exact behind
      · rename_i raw rest taken
        have left := (takeBytes taken).trans behind
        split <;> exact left

theorem elements {read : Bytes → Reading α} (consumes : Consumes read) (untilEnd : Bool)
    (count : Nat) : Consumes (readElements read untilEnd count) := by
  induction count with
  | zero => exact List.suffix_refl
  | succ count ih =>
      intro payload
      simp only [readElements]
      split
      · exact List.suffix_refl payload
      · have goOn (value : α) : Consumes fun rest =>
            if rest.length = payload.length then { value := [value], rest }
            else (readElements read untilEnd count rest).map (value :: ·) := by
          intro rest
          dsimp only
          split
          · exact List.suffix_refl rest
          · exact ih rest
        exact consumes.andThen _ goOn payload

theorem list {read : Bytes → Reading α} (consumes : Consumes read) (tags : FieldTags) :
    Consumes (tags.readList read) := by
  intro payload
  simp only [FieldTags.readList]
  split
  · exact List.suffix_refl payload
  · rename_i prefixed
    exact (consumes.elements false _ _).trans (takeLength prefixed)
  · rename_i prefixed
    exact (consumes.elements true _ _).trans (takeLength prefixed)

theorem tuple {read : α → Bytes → Reading α} (consumes : ∀ value, Consumes (read value))
    (count : Nat) (destination : Tuple α count) :
    Consumes (readTuple read count destination) := by
  induction count with
  | zero => exact List.suffix_refl
  | succ count ih =>
      obtain ⟨first, others⟩ := destination
      exact (consumes first).andThen _ fun value => (ih others).map _

theorem field {field : Field} {type : WireType} {value : type.Value}
    (consumes : Consumes (type.decode field.tags value)) {earlier : List (Option Nat)}
    {container : Nat} : Consumes (field.read earlier container type value) := by
  intro payload
  simp only [Field.read]
  split
  · split
    · split
      · exact ofTaken _ _ (fun _ _ _ taken => take taken) payload
      · exact List.suffix_refl payload
    · exact consumes payload
  · exact List.suffix_refl payload

end Consumes

mutual

/-- No reader gives back a byte that has been used up. -/
theorem WireType.consumes : (type : WireType) → (tags : FieldTags) →
    (destination : type.Value) → Consumes (type.decode tags destination)
  | .uint width, tags, destination =>
      .ofTaken destination (BitVec.ofNat width.bits) fun _ _ _ taken => Consumes.take taken
  | .text, tags, destination => .text tags destination
  | .unit, _, _ => List.suffix_refl
  | .list element, tags, _ =>
      (WireType.consumes element tags.element element.default).list tags
  | .array element count, tags, destination =>
      .tuple (WireType.consumes element tags) count destination
  | .optional inner, tags, destination => by
      intro payload
      simp only [WireType.decode]
      split
      · exact List.suffix_refl payload
      · exact WireType.consumes inner tags _ payload
  | .record name fields limit, _, destination => by
      intro payload
      simp only [WireType.decode]
      split
      · exact List.suffix_refl payload
      · exact Fields.consumes fields _ [] 0 destination payload
  | .variant _ _ first _, tags, .inl destination =>
      (WireType.consumes first tags destination).map Sum.inl
  | .variant _ _ _ others, tags, .inr choice =>
      (Alternatives.consumes others tags choice).map Sum.inr

theorem Fields.consumes : (fields : Fields) → (more : List Field) →
    (earlier : List (Option Nat)) → (container : Nat) → (destination : fields.Values) →
      Consumes (fields.decode more earlier container destination)
  | .nil, _, _, _, _ => List.suffix_refl
  | .cons _ _ _ _, [], _, _, _ => List.suffix_refl
  | .cons _ type _ rest, field :: more, earlier, container, (value, values) => by
      intro payload
      rw [Fields.decode_cons]
      exact (Consumes.field (WireType.consumes type field.tags value)).andThen _
        (fun read => (Fields.consumes rest more _ read.1 values).map (read.2, ·)) payload

theorem Alternatives.consumes : (others : Alternatives) → (tags : FieldTags) →
    (choice : others.Choice) → Consumes (others.decode tags choice)
  | .cons _ type _, tags, .inl destination =>
      (WireType.consumes type tags destination).map Sum.inl
  | .cons _ _ rest, tags, .inr choice =>
      (Alternatives.consumes rest tags choice).map Sum.inr

end

/-- Values that are read one after the other, each with the bytes that it takes,
and the bytes that are left behind the last one. -/
inductive InTurn {α : Type} (read : Bytes → Reading α) :
    Bytes → List (α × Bytes) → Bytes → Prop where
  | nil (payload : Bytes) : InTurn read payload [] payload
  | cons {value : α} {taken rest left : Bytes} {later : List (α × Bytes)}
      (first : read (taken ++ rest) = { value, rest }) (others : InTurn read rest later left) :
      InTurn read (taken ++ rest) ((value, taken) :: later) left

/-- The last of the values took no byte. -/
def EndsIdle {α : Type} (elements : List (α × Bytes)) : Prop :=
  ∃ last, elements.getLast? = some last ∧ last.2 = []

section Elements

variable {α : Type} {read : Bytes → Reading α} {untilEnd : Bool} {payload left : Bytes}
variable {elements : List (α × Bytes)}

theorem EndsIdle.cons (idle : EndsIdle elements) (first : α × Bytes) :
    EndsIdle (first :: elements) := by
  obtain ⟨last, latest, nothing⟩ := idle
  exact ⟨last, by simp [List.getLast?_cons, latest], nothing⟩

theorem InTurn.partition (inTurn : InTurn read payload elements left) :
    payload = elements.flatMap Prod.snd ++ left := by
  induction inTurn with
  | nil payload => rfl
  | cons first others ih => rw [List.flatMap_cons, List.append_assoc, ← ih]

theorem endsIdle_or_takes (takes : ∀ element ∈ elements.dropLast, element.2 ≠ []) :
    EndsIdle elements ∨ ∀ element ∈ elements, element.2 ≠ [] := by
  rcases List.eq_nil_or_concat elements with rfl | ⟨earlier, last, rfl⟩
  · simp
  · by_cases nothing : last.2 = []
    · exact .inl ⟨last, by simp, nothing⟩
    · refine .inr fun element member => ?_
      rcases List.mem_append.1 (List.concat_eq_append ▸ member) with before | latest
      · exact takes element (by simpa using before)
      · obtain rfl := List.mem_singleton.1 latest
        exact nothing

/-- Values that all take bytes are no more than the bytes. -/
theorem length_le_of_takes (takes : ∀ element ∈ elements, element.2 ≠ []) :
    elements.length ≤ (elements.flatMap Prod.snd).length := by
  induction elements with
  | nil => exact Nat.le_refl 0
  | cons first later ih =>
      obtain ⟨own, takes⟩ := List.forall_mem_cons.1 takes
      have positive := List.length_pos_iff.2 own
      have rest := ih takes
      simp only [List.length_cons, List.flatMap_cons, List.length_append]
      omega

theorem length_le_of_takes_dropLast (takes : ∀ element ∈ elements.dropLast, element.2 ≠ []) :
    elements.length ≤ (elements.flatMap Prod.snd).length + 1 := by
  rcases List.eq_nil_or_concat elements with rfl | ⟨earlier, last, rfl⟩
  · simp
  · have bounded := length_le_of_takes (by simpa using takes)
    simp only [List.concat_eq_append, List.length_append, List.flatMap_append,
      List.length_singleton]
    omega

/-- How the reading of elements ends: after as many as allowed, at the end of the
payload, or behind an element that took no byte; or the next element cannot be
read. -/
inductive Finishes (read : Bytes → Reading α) (untilEnd : Bool) (count : Nat)
    (elements : List (α × Bytes)) (left : Bytes) : Reading (List α) → Prop where
  | complete
      (reason : elements.length = count ∨ (untilEnd ∧ left = []) ∨ EndsIdle elements) :
      Finishes read untilEnd count elements left
        { value := elements.map Prod.fst, rest := left }
  | failed {error : PayloadError} (next : (read left).error = some error)
      (takes : ∀ element ∈ elements, element.2 ≠ []) (fewer : elements.length < count) :
      Finishes read untilEnd count elements left
        { value := elements.map Prod.fst, rest := (read left).rest, error := some error }

/-- Elements are read in turn; all but the last one take bytes, and there are no
more than allowed. -/
theorem exists_inTurn (consumes : Consumes read) (untilEnd : Bool) (count : Nat)
    (payload : Bytes) :
    ∃ elements left, InTurn read payload elements left ∧ elements.length ≤ count ∧
      (∀ element ∈ elements.dropLast, element.2 ≠ []) ∧
        Finishes read untilEnd count elements left (readElements read untilEnd count payload) := by
  induction count generalizing payload with
  | zero => exact ⟨[], payload, .nil payload, Nat.le_refl 0, by simp, .complete (.inl rfl)⟩
  | succ count ih =>
      by_cases ended : untilEnd ∧ payload = []
      · refine ⟨[], payload, .nil payload, Nat.zero_le _, by simp, ?_⟩
        simp only [readElements, if_pos ended]
        exact .complete (.inr (.inl ended))
      · obtain ⟨taken, split⟩ := consumes payload
        simp only [readElements, if_neg ended]
        cases failed : (read payload).error with
        | some error =>
            refine ⟨[], payload, .nil payload, Nat.zero_le _, by simp, ?_⟩
            simp only [Reading.andThen, failed, Reading.map]
            exact .failed failed (by simp) (Nat.succ_pos count)
        | none =>
            have head : read payload =
                { value := (read payload).value, rest := (read payload).rest } := by
              rw [← failed]
            generalize (read payload).value = value, (read payload).rest = rest at head split
            subst split
            simp only [head, Reading.andThen]
            by_cases nothing : taken = []
            · subst nothing
              refine ⟨[(value, [])], rest, .cons head (.nil rest), by simp, by simp, ?_⟩
              simp only [List.nil_append, if_true]
              exact .complete (.inr (.inr ⟨_, rfl, rfl⟩))
            · have shorter : rest.length ≠ (taken ++ rest).length := by
                have positive := List.length_pos_iff.2 nothing
                simp only [List.length_append]
                omega
              obtain ⟨elements, left, inTurn, bounded, takes, finishes⟩ := ih rest
              refine ⟨(value, taken) :: elements, left, .cons head inTurn,
                Nat.succ_le_succ bounded, ?_, ?_⟩
              · intro element member
                cases elements with
                | nil => simp at member
                | cons second later =>
                    rcases List.mem_cons.1 member with rfl | inside
                    · exact nothing
                    · exact takes element inside
              · rw [if_neg shorter]
                generalize readElements read untilEnd count rest = reading at finishes ⊢
                cases finishes with
                | complete reason =>
                    refine .complete (reason.imp (congrArg Nat.succ) ?_)
                    exact Or.imp_right fun idle => idle.cons _
                | failed next all fewer =>
                    exact .failed next (List.forall_mem_cons.2 ⟨nothing, all⟩)
                      (Nat.succ_lt_succ fewer)

/-- More turns than there are bytes are never taken. -/
theorem readElements_add (consumes : Consumes read) (more : Nat) {count : Nat}
    (enough : payload.length < count ∨ (untilEnd ∧ payload.length ≤ count)) :
    readElements read untilEnd (count + more) payload =
      readElements read untilEnd count payload := by
  induction count generalizing payload with
  | zero =>
      obtain ⟨toEnd, empty⟩ := enough.resolve_left (Nat.not_lt_zero _)
      obtain rfl := List.eq_nil_of_length_eq_zero (Nat.le_zero.1 empty)
      cases more with
      | zero => rfl
      | succ more => simp [readElements, toEnd]
  | succ count ih =>
      have shorter := (consumes payload).length_le
      rw [Nat.succ_add]
      simp only [readElements]
      split
      · rfl
      · simp only [Reading.andThen]
        split
        · rfl
        · split
          · rfl
          · rename_i takes
            rw [ih (enough.imp (by omega) (And.imp_right (by omega)))]

end Elements

/-- How a list is filled from the bytes behind its prefix. -/
structure Fills {α : Type} (read : Bytes → Reading α) (announced : Option Nat) (body : Bytes)
    (elements : List (α × Bytes)) (left : Bytes) (reading : Reading (List α)) : Prop where
  /-- The elements are read one after the other. -/
  inTurn : InTurn read body elements left
  /-- The list holds them, also when the next one cannot be read. -/
  held : reading.value = elements.map Prod.fst
  /-- There is at most one element more than bytes that the elements take. -/
  bounded : elements.length ≤ (elements.flatMap Prod.snd).length + 1
  /-- There are no more elements than announced. -/
  announced_le : ∀ count, announced = some count → elements.length ≤ count
  /-- Every element but the last one takes bytes. -/
  takes : ∀ element ∈ elements.dropLast, element.2 ≠ []
  /-- On success the announced number is there, or without one the payload is used
  up; otherwise the last element took no byte. -/
  complete : reading.error = none → reading.rest = left ∧
    match announced with
    | some count => elements.length = count ∨ (elements.length < count ∧ EndsIdle elements)
    | none => left = [] ∨ EndsIdle elements
  /-- On failure it is the next element that cannot be read. -/
  failed : ∀ error, reading.error = some error →
    (read left).error = some error ∧ reading.rest = (read left).rest
  /-- Reading ends by itself: once there are more turns than bytes, or as many as
  announced, no further one is taken. -/
  turns : ∀ turns, body.length < turns → (∀ count, announced = some count → turns ≤ count) →
    readElements read announced.isNone turns body = reading

theorem FieldTags.readList_eq {α : Type} {tags : FieldTags} (read : Bytes → Reading α)
    {payload body : Bytes} {announced : Option Nat}
    (prefixed : tags.takeLength payload = .ok (announced, body)) :
    tags.readList read payload =
      readElements read announced.isNone (announced.getD body.length) body := by
  cases announced <;>
    simp only [readList, prefixed, Option.isNone_none, Option.isNone_some, Option.getD_none,
      Option.getD_some]

theorem exists_fills {α : Type} {read : Bytes → Reading α} (consumes : Consumes read)
    {tags : FieldTags} {payload body : Bytes} {announced : Option Nat}
    (prefixed : tags.takeLength payload = .ok (announced, body)) :
    ∃ elements left, Fills read announced body elements left (tags.readList read payload) := by
  obtain ⟨elements, left, inTurn, bounded, takes, finishes⟩ :=
    exists_inTurn consumes announced.isNone (announced.getD body.length) body
  have turns (turns : Nat) (enough : body.length < turns)
      (allowed : ∀ count, announced = some count → turns ≤ count) :
      readElements read announced.isNone turns body =
        readElements read announced.isNone (announced.getD body.length) body := by
    cases announced with
    | some count =>
        obtain ⟨more, rfl⟩ := Nat.exists_eq_add_of_le (allowed count rfl)
        exact (readElements_add consumes more (.inl enough)).symm
    | none =>
        obtain ⟨more, rfl⟩ := Nat.exists_eq_add_of_le (Nat.le_of_lt enough)
        exact readElements_add consumes more (.inr ⟨rfl, Nat.le_refl _⟩)
  rw [FieldTags.readList_eq read prefixed]
  generalize readElements read announced.isNone (announced.getD body.length) body = reading
    at finishes turns ⊢
  refine ⟨elements, left,
    { inTurn, takes, turns
      held := by cases finishes <;> rfl
      bounded := length_le_of_takes_dropLast takes
      announced_le := by
        rintro count rfl
        exact bounded
      complete := fun succeeded => ?_
      failed := fun error unreadable => ?_ }⟩
  · cases finishes with
    | failed => cases succeeded
    | complete reason =>
        refine ⟨rfl, ?_⟩
        cases announced with
        | some count =>
            rcases reason with all | ⟨never, -⟩ | idle
            · exact .inl all
            · cases never
            · exact (Nat.lt_or_eq_of_le bounded).symm.imp_right fun fewer => ⟨fewer, idle⟩
        | none =>
            rcases reason with all | ⟨-, nothing⟩ | idle
            · -- As many elements as bytes use all bytes up, unless the last one took none.
              refine (endsIdle_or_takes takes).symm.imp_left fun each => ?_
              have used := length_le_of_takes each
              have whole := congrArg List.length inTurn.partition
              rw [List.length_append] at whole
              rw [Option.getD_none] at all
              exact List.eq_nil_of_length_eq_zero (by omega)
            · exact .inl nothing
            · exact .inr idle
  · cases finishes with
    | complete => cases unreadable
    | failed next all fewer =>
        obtain rfl := Option.some.inj unreadable
        exact ⟨next, rfl⟩

end ZigbeeHost
