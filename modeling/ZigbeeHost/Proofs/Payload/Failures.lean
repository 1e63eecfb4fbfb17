import ZigbeeHost.Proofs.Payload.Elements

/-!
# What a failed reading leaves behind

Reading stores what it reads as it goes on, and a failure undoes nothing.  A
failed record is therefore cut in three: the fields before the one that failed
hold what reading them alone gives, those behind it are as they were, and the
field in between was stopped in its own way.  `Stops` says what that way is for
every type.  It follows the failure inwards, through records, variants, arrays
and optional values, down to the integer, text or list that could not be read.
-/

namespace ZigbeeHost

/-- The values of the fields of a record, each with its type. -/
def Fields.held : (fields : Fields) → fields.Values → List ((type : WireType) × type.Value)
  | .nil, _ => []
  | .cons _ type _ rest, (value, values) => ⟨type, value⟩ :: rest.held values

/-- Successful readings into one destination after the other, the values that they
store, and the bytes that are left behind the last one. -/
inductive IntoEach {α : Type} (read : α → Bytes → Reading α) :
    List α → Bytes → List α → Bytes → Prop where
  | nil (payload : Bytes) : IntoEach read [] payload [] payload
  | cons {destination value : α} {payload rest left : Bytes} {destinations values : List α}
      (first : read destination payload = { value, rest })
      (others : IntoEach read destinations rest values left) :
      IntoEach read (destination :: destinations) payload (value :: values) left

mutual

/-- Reading a value failed, and this is what the destination then holds. -/
inductive WireType.Stops :
    (type : WireType) → FieldTags → type.Value → Bytes → PayloadError → type.Value → Prop where
  /-- An integer that is cut off stays as it was. -/
  | uint {width : Width} {tags : FieldTags} {destination : BitVec width.bits} {payload : Bytes}
      {cause : DecodeError} (missing : tags.takeUint width payload = .error cause) :
      WireType.Stops (.uint width) tags destination payload (.decode cause) destination
  /-- A text stays as it was, an address as well as plain text. -/
  | text {tags : FieldTags} {destination : String} {payload : Bytes} {error : PayloadError}
      (unreadable : (tags.readText destination payload).error = some error) :
      WireType.Stops .text tags destination payload error destination
  /-- A list whose prefix is cut off is empty. -/
  | announcement {element : WireType} {tags : FieldTags} {destination : List element.Value}
      {payload : Bytes} {cause : DecodeError} (missing : tags.takeLength payload = .error cause) :
      WireType.Stops (.list element) tags destination payload (.decode cause)
        ([] : List element.Value)
  /-- A list holds the elements that were read before the one that cannot be. -/
  | elements {element : WireType} {tags : FieldTags} {destination : List element.Value}
      {payload body left : Bytes} {announced : Option Nat} {error : PayloadError}
      {elements : List (element.Value × Bytes)}
      (prefixed : tags.takeLength payload = .ok (announced, body))
      (inTurn : InTurn (element.decode tags.element element.default) body elements left)
      (next : (element.decode tags.element element.default left).error = some error) :
      WireType.Stops (.list element) tags destination payload error (elements.map Prod.fst)
  /-- In an array, the elements before the one that stopped have been read, and those
  behind it are as they were. -/
  | array {element : WireType} {count : Nat} {tags : FieldTags}
      {destination result : Tuple element.Value count} {payload left : Bytes}
      {error : PayloadError} {earlier updated later : List element.Value}
      {before after : element.Value}
      (parts : Tuple.toList count destination = earlier ++ before :: later)
      (front : IntoEach (element.decode tags) earlier payload updated left)
      (stops : element.Stops tags before left error after)
      (frame : Tuple.toList count result = updated ++ after :: later) :
      WireType.Stops (.array element count) tags destination payload error result
  /-- An optional value is there, created from its default if it was missing. -/
  | optional {inner : WireType} {tags : FieldTags} {destination : Option inner.Value}
      {payload : Bytes} {error : PayloadError} {after : inner.Value} (more : payload ≠ [])
      (stops : inner.Stops tags (destination.getD inner.default) payload error after) :
      WireType.Stops (.optional inner) tags destination payload error (some after)
  /-- A record whose layout is refused is not touched. -/
  | refused {name : String} {fields : Fields} {limit : Option Nat} {tags : FieldTags}
      {destination : fields.Values} {payload : Bytes} {cause : ConfigurationError}
      (refusal : fields.layout name = .error cause) :
      WireType.Stops (.record name fields limit) tags destination payload (.configuration cause)
        destination
  | record {name : String} {fields : Fields} {limit : Option Nat} {layout : Layout}
      {tags : FieldTags} {destination result : fields.Values} {payload : Bytes}
      {error : PayloadError} (parsed : fields.layout name = .ok layout)
      (stops : fields.Stops (layout.transferred limit) [] 0 destination payload error result) :
      WireType.Stops (.record name fields limit) tags destination payload error result
  /-- A variant keeps its alternative. -/
  | chosenFirst {name label : String} {first : WireType} {others : Alternatives}
      {tags : FieldTags} {destination result : first.Value} {payload : Bytes}
      {error : PayloadError} (stops : first.Stops tags destination payload error result) :
      WireType.Stops (.variant name label first others) tags (.inl destination) payload error
        (.inl result)
  | chosenOther {name label : String} {first : WireType} {others : Alternatives}
      {tags : FieldTags} {choice result : others.Choice} {payload : Bytes}
      {error : PayloadError} (stops : others.Stops tags choice payload error result) :
      WireType.Stops (.variant name label first others) tags (.inr choice) payload error
        (.inr result)

/-- Reading the fields of a record failed at the field at `position`. -/
inductive Fields.Stops :
    (fields : Fields) → List Field → (earlier : List (Option Nat)) → (container : Nat) →
      fields.Values → Bytes → PayloadError → fields.Values → Prop where
  | at {fields : Fields} {more : List Field} {earlier : List (Option Nat)} {container : Nat}
      {destination result : fields.Values} {payload left : Bytes} {error : PayloadError}
      {field : Field} {type : WireType} {before after : type.Value} (position : Nat)
      (updated : fields.Values)
      (known : more[position]? = some field)
      (own : (fields.held destination)[position]? = some ⟨type, before⟩)
      (front : fields.decode (more.take position) earlier container destination payload =
        { value := updated, rest := left })
      (fails : (fields.decode (more.take (position + 1)) earlier container destination
        payload).error = some error)
      (stops : Field.Stops field type before left error after)
      (frame : fields.held result = (fields.held updated).take position ++
        ⟨type, after⟩ :: (fields.held destination).drop (position + 1)) :
      Fields.Stops fields more earlier container destination payload error result

/-- A single field of a record stopped. -/
inductive Field.Stops :
    Field → (type : WireType) → type.Value → Bytes → PayloadError → type.Value → Prop where
  /-- The field opens a bit run whose container is cut off. -/
  | container {field : Field} {type : WireType} {destination : type.Value} {payload : Bytes}
      {bits : BitMask} {cause : DecodeError} (masked : field.tags.bitMask = some bits)
      (role : bits.role = .first)
      (missing : field.runOrder.take field.containerBytes payload = .error cause) :
      Field.Stops field type destination payload (.decode cause) destination
  | plain {field : Field} {type : WireType} {destination result : type.Value} {payload : Bytes}
      {error : PayloadError} (unmasked : field.tags.bitMask = none)
      (stops : type.Stops field.tags destination payload error result) :
      Field.Stops field type destination payload error result

inductive Alternatives.Stops :
    (others : Alternatives) → FieldTags → others.Choice → Bytes → PayloadError →
      others.Choice → Prop where
  | here {label : String} {type : WireType} {rest : Alternatives} {tags : FieldTags}
      {destination result : type.Value} {payload : Bytes} {error : PayloadError}
      (stops : type.Stops tags destination payload error result) :
      Alternatives.Stops (.cons label type rest) tags (.inl destination) payload error (.inl result)
  | later {label : String} {type : WireType} {rest : Alternatives} {tags : FieldTags}
      {choice result : rest.Choice} {payload : Bytes} {error : PayloadError}
      (stops : rest.Stops tags choice payload error result) :
      Alternatives.Stops (.cons label type rest) tags (.inr choice) payload error (.inr result)

end

theorem FieldTags.readText_unchanged {tags : FieldTags} {destination : String} {payload : Bytes}
    {error : PayloadError} (failed : (tags.readText destination payload).error = some error) :
    (tags.readText destination payload).value = destination := by
  revert failed
  simp only [readText]
  split
  · rename_i width address
    cases tags.order.take width.bytes payload <;> simp [Reading.ofTaken]
  · split
    · simp
    · split
      · simp
      · split <;> simp

theorem exists_of_readTuple_error {α : Type} {read : α → Bytes → Reading α} {count : Nat}
    {destination : Tuple α count} {payload : Bytes} {error : PayloadError}
    (failed : (readTuple read count destination payload).error = some error) :
    ∃ earlier before later updated left,
      Tuple.toList count destination = earlier ++ before :: later ∧
        IntoEach read earlier payload updated left ∧ (read before left).error = some error ∧
          Tuple.toList count (readTuple read count destination payload).value =
            updated ++ (read before left).value :: later := by
  induction count generalizing payload with
  | zero => cases failed
  | succ count ih =>
      obtain ⟨value, values⟩ := destination
      simp only [readTuple, Reading.andThen] at failed ⊢
      cases head : (read value payload).error with
      | some cause =>
          simp only [head, Reading.map, Option.some.injEq] at failed ⊢
          obtain rfl := failed
          exact ⟨[], value, Tuple.toList count values, [], payload, rfl, .nil payload, head, rfl⟩
      | none =>
          simp only [head, Reading.map] at failed ⊢
          obtain ⟨earlier, before, later, updated, left, parts, front, next, frame⟩ := ih failed
          have first : read value payload =
              { value := (read value payload).value, rest := (read value payload).rest } := by
            rw [← head]
          exact ⟨value :: earlier, before, later, (read value payload).value :: updated, left,
            congrArg (value :: ·) parts, .cons first front, next, congrArg (_ :: ·) frame⟩

namespace Fields

variable {name : String} {type : WireType} {pairs : List (String × String)} {rest : Fields}
variable {field : Field} {more : List Field} {earlier : List (Option Nat)} {container : Nat}
variable {payload : Bytes} {error : PayloadError}

theorem Stops.head {value after : type.Value} {values : rest.Values}
    (failed : (field.read earlier container type value payload).error = some error)
    (stops : Field.Stops field type value payload error after) :
    (cons name type pairs rest).Stops (field :: more) earlier container (value, values) payload
      error (after, values) := by
  refine .at 0 (value, values) rfl rfl (decode_nil _ _) ?fails stops rfl
  rw [List.take_succ_cons, decode_cons, Reading.andThen, failed]
  exact failed

theorem Stops.cons {value result : type.Value} {values results : rest.Values} {word : Nat}
    {left : Bytes}
    (first : field.read earlier container type value payload =
      { value := (word, result), rest := left })
    (stops : rest.Stops more (earlier ++ [type.asUint result]) word values left error results) :
    (Fields.cons name type pairs rest).Stops (field :: more) earlier container (value, values)
      payload error (result, results) := by
  obtain ⟨position, updated, known, own, front, fails, stops, frame⟩ := stops
  refine .at (position + 1) (result, updated) known own ?front ?fails stops ?frame
  case front =>
    rw [List.take_succ_cons, decode_cons, first, Reading.andThen, front]
    rfl
  case fails =>
    rw [List.take_succ_cons, decode_cons, first]
    exact fails
  case frame =>
    rw [Fields.held, frame]
    rfl

end Fields

theorem Field.stops_of_error {field : Field} {type : WireType} {value : type.Value}
    {payload : Bytes} {error : PayloadError}
    (inner : (type.decode field.tags value payload).error = some error →
      type.Stops field.tags value payload error (type.decode field.tags value payload).value)
    {earlier : List (Option Nat)} {container : Nat}
    (failed : (field.read earlier container type value payload).error = some error) :
    field.Stops type value payload error
      (field.read earlier container type value payload).value.2 := by
  revert failed
  simp only [Field.read]
  split
  · split
    · rename_i bits masked
      split
      · rename_i role
        intro failed
        cases taken : field.runOrder.take field.containerBytes payload with
        | ok result => simp [taken, Reading.ofTaken] at failed
        | error cause =>
            simp only [taken, Reading.ofTaken, Option.some.injEq] at failed ⊢
            exact failed ▸ .container masked role taken
      · simp
    · rename_i unmasked
      exact fun failed => .plain unmasked (inner failed)
  · simp

mutual

/-- A value that cannot be read is left behind as its type says. -/
theorem WireType.stops_of_error : (type : WireType) → (tags : FieldTags) →
    (destination : type.Value) → (payload : Bytes) → {error : PayloadError} →
    (type.decode tags destination payload).error = some error →
      type.Stops tags destination payload error (type.decode tags destination payload).value
  | .uint width, tags, destination, payload, error, failed => by
      simp only [WireType.decode] at failed ⊢
      cases taken : tags.takeUint width payload with
      | ok result => simp [taken, Reading.ofTaken] at failed
      | error cause =>
          simp only [taken, Reading.ofTaken, Option.some.injEq] at failed ⊢
          exact failed ▸ .uint taken
  | .text, tags, destination, payload, error, failed => by
      simp only [WireType.decode] at failed ⊢
      rw [FieldTags.readText_unchanged failed]
      exact .text failed
  | .unit, _, _, _, _, failed => by cases failed
  | .list element, tags, destination, payload, error, failed => by
      simp only [WireType.decode] at failed ⊢
      cases prefixed : tags.takeLength payload with
      | error cause =>
          simp only [FieldTags.readList, prefixed, Option.some.injEq] at failed ⊢
          exact failed ▸ .announcement prefixed
      | ok result =>
          obtain ⟨announced, body⟩ := result
          obtain ⟨elements, left, fills⟩ :=
            exists_fills (WireType.consumes element tags.element element.default) prefixed
          rw [fills.held]
          exact .elements prefixed fills.inTurn (fills.failed error failed).1
  | .array element count, tags, destination, payload, error, failed => by
      obtain ⟨earlier, before, later, updated, left, parts, front, next, frame⟩ :=
        exists_of_readTuple_error failed
      exact .array parts front (WireType.stops_of_error element tags before left next) frame
  | .optional inner, tags, destination, payload, error, failed => by
      simp only [WireType.decode] at failed ⊢
      split at failed
      · cases failed
      · rename_i more
        rw [if_neg more]
        exact .optional more (WireType.stops_of_error inner tags _ payload failed)
  | .record name fields limit, tags, destination, payload, error, failed => by
      simp only [WireType.decode] at failed ⊢
      cases parsed : fields.layout name with
      | error cause =>
          simp only [parsed, Option.some.injEq] at failed ⊢
          exact failed ▸ .refused parsed
      | ok layout =>
          simp only [parsed] at failed ⊢
          exact .record parsed (Fields.stops_of_error fields _ [] 0 destination payload failed)
  | .variant name label first others, tags, .inl destination, payload, error, failed =>
      .chosenFirst (WireType.stops_of_error first tags destination payload failed)
  | .variant name label first others, tags, .inr choice, payload, error, failed =>
      .chosenOther (Alternatives.stops_of_error others tags choice payload failed)

/-- By recursion along the fields: either the first of them fails, or it is read and
the failure is at one of the others. -/
theorem Fields.stops_of_error : (fields : Fields) → (more : List Field) →
    (earlier : List (Option Nat)) → (container : Nat) → (destination : fields.Values) →
    (payload : Bytes) → {error : PayloadError} →
    (fields.decode more earlier container destination payload).error = some error →
      fields.Stops more earlier container destination payload error
        (fields.decode more earlier container destination payload).value
  | .nil, _, _, _, _, _, _, failed => by cases failed
  | .cons _ _ _ _, [], _, _, _, _, _, failed => by cases failed
  | .cons name type pairs rest, field :: more, earlier, container, (value, values), payload,
      error, failed => by
      rw [Fields.decode_cons] at failed ⊢
      cases outcome : (field.read earlier container type value payload).error with
      | some cause =>
          simp only [Reading.andThen, outcome, Reading.map, Option.some.injEq] at failed ⊢
          obtain rfl := failed
          exact .head outcome (Field.stops_of_error (WireType.stops_of_error type _ value payload)
            outcome)
      | none =>
          simp only [Reading.andThen, outcome] at failed ⊢
          refine .cons ?_ (Fields.stops_of_error rest more _ _ values _ failed)
          rw [← outcome]

theorem Alternatives.stops_of_error : (others : Alternatives) → (tags : FieldTags) →
    (choice : others.Choice) → (payload : Bytes) → {error : PayloadError} →
    (others.decode tags choice payload).error = some error →
      others.Stops tags choice payload error (others.decode tags choice payload).value
  | .cons _ type _, tags, .inl destination, payload, _, failed =>
      .here (WireType.stops_of_error type tags destination payload failed)
  | .cons _ _ rest, tags, .inr choice, payload, _, failed =>
      .later (Alternatives.stops_of_error rest tags choice payload failed)

end

/-- A record fails at one of its fields, and the rest of it is framed.  The fields
before that one hold what reading only these gives, which succeeds; those behind it
are as they were; and the field itself is as its type leaves it behind. -/
theorem WireType.frame_of_failed_record {name : String} {fields : Fields} {layout : Layout}
    (parsed : fields.layout name = .ok layout) (limit : Option Nat) (tags : FieldTags)
    (destination : fields.Values) (payload : Bytes) {error : PayloadError}
    (failed : ((WireType.record name fields limit).decode tags destination payload).error =
      some error) :
    fields.Stops (layout.transferred limit) [] 0 destination payload error
      ((WireType.record name fields limit).decode tags destination payload).value := by
  simp only [WireType.decode, parsed] at failed ⊢
  exact fields.stops_of_error _ [] 0 destination payload failed

/-- The payload ends within a list, which an optional value of the second record of an
array holds: the record has its new first field, and the list its first element. -/
theorem WireType.frame_of_failed_record_of_nested_list :
    let entry : WireType := .record "Entry" (.ofList
      [("kind", .uint .one, []), ("items", .optional (.list (.uint .two)), [("len", "uint8")])])
      none
    let fields : Fields := .ofList
      [("count", .uint .one, []), ("entries", .array entry 2, []), ("tail", .uint .two, [])]
    let destination : fields.Values :=
      (9, ((1, some [7], ()), (2, none, ()), ()), 0xabcd, ())
    let payload : Bytes := [0x01, 0x05, 0x00, 0x06, 0x02, 0x0b, 0x0a, 0x0d]
    let result : fields.Values :=
      (1, ((5, some [], ()), (6, some [0x0a0b], ()), ()), 0xabcd, ())
    ∃ layout, fields.layout "Report" = .ok layout ∧
      (WireType.record "Report" fields none).ofPayload destination payload =
        { value := result, rest := [0x0d], error := some (.decode (.unexpectedEnd 2 1)) } ∧
        fields.Stops layout.fields [] 0 destination payload (.decode (.unexpectedEnd 2 1))
          result :=
  ⟨_, rfl, rfl, WireType.frame_of_failed_record rfl none payloadTags _ _ rfl⟩

end ZigbeeHost
