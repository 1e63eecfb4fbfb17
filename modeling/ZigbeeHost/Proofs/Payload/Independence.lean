import ZigbeeHost.Proofs.Payload.Elements
import ZigbeeHost.Proofs.Payload.OpenEnds
import ZigbeeHost.Proofs.Payload.Presence

/-!
# What the destination held before

Reading overwrites a destination in place, so what the destination held could
show in the result, or decide which bytes are read.  Here two readings of one
payload into two destinations run side by side.  The destinations may differ in
everything but the alternatives of their variants.  Then both readings use up
the same bytes and end in the same way, and on success the results agree in all
that was read.  What differs are the fields that a condition left out, and these
keep what they held.

A condition that tests a conditional field would break this: a field that was
left out still holds its old integer.
-/

namespace ZigbeeHost

/-- The field without its share of a bit run. -/
def Field.unmasked (field : Field) : Field :=
  { field with tags := { field.tags with bitMask := none } }

namespace Layout

/-- The conditions of the fields test fields that have none. -/
def TestUnconditional (fields : List Field) : Prop :=
  ∀ field ∈ fields, ∀ condition ∈ field.tags.condition,
    ∀ target ∈ fields[condition.index]?, target.tags.condition = none

instance (fields : List Field) : Decidable (TestUnconditional fields) :=
  inferInstanceAs (Decidable (∀ field ∈ fields, ∀ condition ∈ field.tags.condition,
    ∀ target ∈ fields[condition.index]?, target.tags.condition = none))

theorem isPlain_unmasked {field : Field} :
    IsPlain field.unmasked ↔ field.tags.condition = none := by
  simp [IsPlain, Field.unmasked]

/-- Members of bit runs are unconditional, so their masks need not be told apart from
plain fields here. -/
theorem TestUnconditional.testPlain {fields : List Field} (tested : TestUnconditional fields) :
    TestPlain (fields.map Field.unmasked) (fields.map Field.unmasked) := by
  intro _ inside condition conditional target known
  obtain ⟨field, member, rfl⟩ := List.mem_map.1 inside
  rw [List.getElem?_map, Option.map_eq_some_iff] at known
  obtain ⟨held, known, rfl⟩ := known
  exact isPlain_unmasked.2 (tested field member condition conditional held known)

/-- Readings that agree on the unconditional fields find the same fields present. -/
theorem TestUnconditional.isPresent_eq {before more : List Field} {field : Field}
    (tested : TestUnconditional (before ++ field :: more)) {one other : List (Option Nat)}
    (agree : AgreeOn (before.map Field.unmasked) one other) :
    field.isPresent one = field.isPresent other := by
  have plain := tested.testPlain
  rw [List.map_append, List.map_cons] at plain
  have own : TestPlain (before.map Field.unmasked ++ field.unmasked :: more.map Field.unmasked)
      [field.unmasked] :=
    List.forall_mem_singleton.2 (plain _ (by simp))
  have same : field.unmasked.isPresent one = field.unmasked.isPresent other :=
    agree.isPresent_eq own
  exact same

end Layout

theorem Field.isPresent_of_unconditional {field : Field}
    (unconditional : field.tags.condition = none) (earlier : List (Option Nat)) :
    field.isPresent earlier = true := by
  simp [isPresent, unconditional]

mutual

/-- The same alternatives are selected in both values, outside lists.  A missing
value counts as its default. -/
def WireType.Alike : (type : WireType) → type.Value → type.Value → Prop
  | .uint _, _, _ => True
  | .text, _, _ => True
  | .unit, _, _ => True
  | .list _, _, _ => True
  | .array element count, one, other =>
      List.Forall₂ element.Alike (Tuple.toList count one) (Tuple.toList count other)
  | .optional inner, one, other => inner.Alike (one.getD inner.default) (other.getD inner.default)
  | .record _ fields _, one, other => fields.Alike one other
  | .variant _ _ first others, one, other => Sum.LiftRel first.Alike others.Alike one other

def Fields.Alike : (fields : Fields) → fields.Values → fields.Values → Prop
  | .nil, _, _ => True
  | .cons _ type _ rest, (one, ones), (other, others) =>
      type.Alike one other ∧ rest.Alike ones others

def Alternatives.Alike : (others : Alternatives) → others.Choice → others.Choice → Prop
  | .nil, _, _ => True
  | .cons _ type rest, one, other => Sum.LiftRel type.Alike rest.Alike one other

end

mutual

/-- Two results are equal in every field that is present. -/
def WireType.Agrees : (type : WireType) → type.Value → type.Value → Prop
  | .uint _, one, other => one = other
  | .text, one, other => one = other
  | .unit, _, _ => True
  | .list _, one, other => one = other
  | .array element count, one, other =>
      List.Forall₂ element.Agrees (Tuple.toList count one) (Tuple.toList count other)
  | .optional inner, one, other => Option.Rel inner.Agrees one other
  | .record name fields limit, one, other =>
      ∀ layout, fields.layout name = .ok layout →
        fields.Agrees (layout.transferred limit) [] [] one other
  | .variant _ _ first others, one, other => Sum.LiftRel first.Agrees others.Agrees one other

/-- The two results have the same fields present, and these agree. -/
def Fields.Agrees : (fields : Fields) → List Field → (before behind : List (Option Nat)) →
    fields.Values → fields.Values → Prop
  | .cons _ type _ rest, field :: more, before, behind, (one, ones), (other, others) =>
      (field.isPresent before = field.isPresent behind ∧
        (field.isPresent before → type.Agrees one other)) ∧
        rest.Agrees more (before ++ [type.asUint one]) (behind ++ [type.asUint other]) ones others
  | .nil, _, _, _, _, _ => True
  | .cons _ _ _ _, [], _, _, _, _ => True

def Alternatives.Agrees : (others : Alternatives) → others.Choice → others.Choice → Prop
  | .nil, _, _ => True
  | .cons _ type rest, one, other => Sum.LiftRel type.Agrees rest.Agrees one other

end

mutual

/-- The result keeps from the destination the alternatives of its variants and the
fields that are absent.  What had to be created, in a list or for a missing value,
keeps them from its default. -/
def WireType.Keeps : (type : WireType) → (destination result : type.Value) → Prop
  | .uint _, _, _ => True
  | .text, _, _ => True
  | .unit, _, _ => True
  | .list element, _, result => ∀ value ∈ result, element.Keeps element.default value
  | .array element count, destination, result =>
      List.Forall₂ element.Keeps (Tuple.toList count destination) (Tuple.toList count result)
  | .optional inner, destination, result =>
      ∀ value ∈ result, inner.Keeps (destination.getD inner.default) value
  | .record name fields limit, destination, result =>
      ∀ layout, fields.layout name = .ok layout →
        fields.Keeps (layout.transferred limit) [] destination result
  | .variant _ _ first others, destination, result =>
      Sum.LiftRel first.Keeps others.Keeps destination result

def Fields.Keeps : (fields : Fields) → List Field → (earlier : List (Option Nat)) →
    (destination result : fields.Values) → Prop
  | .cons _ type _ rest, field :: more, earlier, (value, values), (result, results) =>
      (if field.isPresent earlier then type.Keeps value result else result = value) ∧
        rest.Keeps more (earlier ++ [type.asUint result]) values results
  | .nil, _, _, _, _ => True
  | .cons _ _ _ _, [], _, destination, result => result = destination

def Alternatives.Keeps : (others : Alternatives) → (destination result : others.Choice) → Prop
  | .nil, _, _ => True
  | .cons _ type rest, destination, result => Sum.LiftRel type.Keeps rest.Keeps destination result

end

/-- Two readings use up the same bytes and end in the same way, and if they succeed
their results are related. -/
structure Reading.Matches {α : Type} (related : α → α → Prop) (one other : Reading α) : Prop where
  rest : one.rest = other.rest
  error : one.error = other.error
  value : one.error = none → related one.value other.value

namespace Reading.Matches

variable {α β : Type} {related : α → α → Prop} {next : β → β → Prop}

theorem refl (reflexive : ∀ value, related value value) (reading : Reading α) :
    Matches related reading reading :=
  ⟨rfl, rfl, fun _ => reflexive reading.value⟩

/-- Readings that stop with the same error match, whatever they leave behind. -/
theorem stopped (value result : α) (rest : Bytes) (error : PayloadError) :
    Matches related { value, rest, error := some error }
      { value := result, rest, error := some error } :=
  ⟨rfl, rfl, fun succeeded => nomatch succeeded⟩

theorem map {one other : Reading α} (both : Matches related one other) {first second : α → β}
    (kept : ∀ value result, related value result → next (first value) (second result)) :
    Matches next (one.map first) (other.map second) :=
  ⟨both.rest, both.error, fun succeeded => kept _ _ (both.value succeeded)⟩

theorem andThen {one other : Reading α} (both : Matches related one other)
    {abort abort' : α → β} {goOn goOn' : α → Bytes → Reading β}
    (later : ∀ value result rest, related value result →
      Matches next (goOn value rest) (goOn' result rest)) :
    Matches next (one.andThen abort goOn) (other.andThen abort' goOn') := by
  obtain ⟨value, rest, error⟩ := one
  obtain ⟨result, rest', error'⟩ := other
  obtain ⟨rfl, rfl, results⟩ := both
  cases error with
  | some error => exact .stopped _ _ _ _
  | none => exact later value result rest (results rfl)

theorem ofTaken (one other : α) (payload : Bytes) (store : β → α)
    (outcome : Except DecodeError (β × Bytes)) :
    Matches Eq (.ofTaken one payload store outcome) (.ofTaken other payload store outcome) := by
  cases outcome with
  | error error => exact stopped _ _ _ _
  | ok taken => exact refl (fun _ => rfl) _

theorem text (tags : FieldTags) (one other : String) (payload : Bytes) :
    Matches Eq (tags.readText one payload) (tags.readText other payload) := by
  cases address : tags.hex with
  | some width =>
      simp only [FieldTags.readText, address]
      exact ofTaken one other payload _ _
  | none =>
      simp only [FieldTags.readText, address]
      cases tags.takeLength payload with
      | error cause => exact stopped _ _ _ _
      | ok announced =>
          obtain ⟨length, body⟩ := announced
          cases taken : takeBytes (length.getD body.length) body with
          | error cause =>
              simp only [taken]
              exact stopped _ _ _ _
          | ok result =>
              simp only [taken]
              cases Utf8.decode? result.1 with
              | some text => exact refl (fun _ => rfl) _
              | none => exact stopped _ _ _ _

theorem tuple {alike : α → α → Prop} {read : α → Bytes → Reading α}
    (each : ∀ one other, alike one other →
      ∀ payload, Matches related (read one payload) (read other payload))
    (count : Nat) (one other : Tuple α count)
    (pairs : List.Forall₂ alike (Tuple.toList count one) (Tuple.toList count other))
    (payload : Bytes) :
    Matches (fun one other =>
        List.Forall₂ related (Tuple.toList count one) (Tuple.toList count other))
      (readTuple read count one payload) (readTuple read count other payload) := by
  induction count generalizing payload with
  | zero => exact refl (fun _ => .nil) _
  | succ count ih =>
      obtain ⟨first, pairs⟩ := List.forall₂_cons.1 pairs
      refine (each one.1 other.1 first payload).andThen fun value result rest same => ?_
      exact (ih one.2 other.2 pairs rest).map fun _ _ others => .cons same others

end Reading.Matches

namespace WireType

/-- Integers that are equal agree, also if they are optional. -/
theorem agrees_of_asUint_eq : (type : WireType) → (one other : type.Value) → (number : Nat) →
    type.asUint one = some number → type.asUint other = some number → type.Agrees one other
  | .uint width, one, other, number, first, second =>
      eq_of_asUint_eq (.uint width) one other number first second
  | .optional inner, one, other, number, first, second => by
      obtain ⟨held, rfl, first⟩ := Option.bind_eq_some_iff.1 first
      obtain ⟨held', rfl, second⟩ := Option.bind_eq_some_iff.1 second
      exact .some (agrees_of_asUint_eq inner held held' number first second)

/-- Integers have nothing to keep. -/
theorem keeps_of_asUint_eq : (type : WireType) → (destination result : type.Value) →
    (number : Nat) → type.asUint result = some number → type.Keeps destination result
  | .uint _, _, _, _, _ => trivial
  | .optional inner, destination, result, number, stored => by
      obtain ⟨held, rfl, stored⟩ := Option.bind_eq_some_iff.1 stored
      rintro _ ⟨⟩
      exact keeps_of_asUint_eq inner _ held number stored

theorem Agrees.asUint_eq : {type : WireType} → {one other : type.Value} →
    type.Agrees one other → type.asUint one = type.asUint other
  | .uint width, _, _, same => congrArg (fun value : BitVec width.bits => some value.toNat) same
  | .optional _, _, _, .none => rfl
  | .optional _, _, _, .some same => same.asUint_eq
  | .text, _, _, _ | .unit, _, _, _ | .list _, _, _, _ | .array _ _, _, _, _ => rfl
  | .record _ _ _, _, _, _ | .variant _ _ _ _, _, _, _ => rfl

end WireType

section Fields

variable {field : Field} {type : WireType} {value : type.Value} {payload : Bytes}
variable {earlier : List (Option Nat)} {container : Nat}

/-- A field that shares a container is an integer. -/
def Field.IntegerIfMasked (field : Field) (type : WireType) : Prop :=
  ∀ bits, field.tags.bitMask = some bits → ∃ width, type.shape.uintWidth? = some width

theorem Layout.Declares.integerIfMasked {declaration : Declaration}
    (declared : Declares field declaration) (shape : declaration.shape = type.shape)
    (integral : field.tags.bitMask.isSome → ∃ width, field.shape.base = .uint width) :
    field.IntegerIfMasked type := by
  intro bits masked
  obtain ⟨width, base⟩ := integral (by simp [masked])
  rw [declared.shape, shape] at base
  exact ⟨width, Shape.uintWidth?_eq_some_iff.2 base⟩

/-- Two readings of one field match, if they agree whether it is present. -/
theorem Field.read_matches {one other : type.Value} {ahead : List (Option Nat)}
    (inner : Reading.Matches type.Agrees (type.decode field.tags one payload)
      (type.decode field.tags other payload))
    (integer : field.IntegerIfMasked type)
    (same : field.isPresent earlier = field.isPresent ahead) :
    Reading.Matches
      (fun one other => one.1 = other.1 ∧ (field.isPresent earlier → type.Agrees one.2 other.2))
      (field.read earlier container type one payload)
      (field.read ahead container type other payload) := by
  simp only [Field.read, ← same]
  split
  · split
    · rename_i bits masked
      obtain ⟨width, integer⟩ := integer bits masked
      have stored (word : Nat) : type.Agrees (type.setUint one (bits.extract word)).2
          (type.setUint other (bits.extract word)).2 :=
        type.agrees_of_asUint_eq _ _ _ (type.asUint_setUint integer _ _)
          (type.asUint_setUint integer _ _)
      split
      · cases field.runOrder.take field.containerBytes payload with
        | error cause => exact .stopped _ _ _ _
        | ok taken => exact ⟨rfl, rfl, fun _ => ⟨rfl, fun _ => stored taken.1⟩⟩
      · exact ⟨rfl, rfl, fun _ => ⟨rfl, fun _ => stored container⟩⟩
    · exact inner.map fun _ _ agrees => ⟨rfl, fun _ => agrees⟩
  · rename_i absent
    exact ⟨rfl, rfl, fun _ => ⟨rfl, fun present => absurd present absent⟩⟩

/-- A field that is read keeps what its type keeps, and an absent one everything. -/
theorem Field.keeps_of_read
    (inner : ∀ result rest, type.decode field.tags value payload = { value := result, rest } →
      type.Keeps value result)
    (integer : field.IntegerIfMasked type) {stored : Nat × type.Value} {left : Bytes}
    (read : field.read earlier container type value payload = { value := stored, rest := left }) :
    if field.isPresent earlier then type.Keeps value stored.2 else stored.2 = value := by
  simp only [Field.read] at read
  split at read
  · rename_i present
    rw [if_pos present]
    split at read
    · rename_i bits masked
      obtain ⟨width, integer⟩ := integer bits masked
      have kept (word : Nat) : type.Keeps value (type.setUint value (bits.extract word)).2 :=
        type.keeps_of_asUint_eq _ _ _ (type.asUint_setUint integer _ _)
      split at read
      · obtain ⟨word, -, rfl⟩ := Reading.ofTaken_eq_success read
        exact kept word
      · obtain ⟨rfl, -⟩ := Reading.mk.inj read
        exact kept container
    · obtain ⟨result, decoded, rfl⟩ := Reading.map_eq_success read
      exact inner result left decoded
  · rename_i absent
    rw [if_neg absent]
    obtain ⟨rfl, -⟩ := Reading.mk.inj read
    rfl

end Fields

mutual

/-- Readings into destinations with the same alternatives match. -/
theorem WireType.decode_matches : (type : WireType) → type.AllLayouts Layout.TestUnconditional →
    (tags : FieldTags) → (one other : type.Value) → type.Alike one other → (payload : Bytes) →
      Reading.Matches type.Agrees (type.decode tags one payload) (type.decode tags other payload)
  | .uint _, _, _, one, other, _, payload => .ofTaken one other payload _ _
  | .text, _, tags, one, other, _, payload => .text tags one other payload
  | .unit, _, _, _, _, _, _ => .refl (fun _ => trivial) _
  | .list _, _, _, _, _, _, _ => .refl (fun _ => rfl) _
  | .array element count, accepted, tags, one, other, alike, payload =>
      .tuple (WireType.decode_matches element accepted tags) count one other alike payload
  | .optional inner, accepted, tags, one, other, alike, payload => by
      simp only [WireType.decode]
      split
      · exact ⟨rfl, rfl, fun _ => .none⟩
      · exact (WireType.decode_matches inner accepted tags _ _ alike payload).map fun _ _ => .some
  | .record name fields limit, accepted, tags, one, other, alike, payload => by
      obtain ⟨rfl, ⟨layout, parsed, tested⟩, accepted⟩ := accepted
      simp only [WireType.decode, parsed]
      have declares := Layout.declares_of_parse parsed
      have integral := (Layout.runs_of_parse parsed).integral
      have both := Fields.decode_matches fields accepted [] layout.fields declares integral tested
        [] [] Layout.agreeOn_nil 0 one other alike payload
      refine ⟨both.rest, both.error, fun succeeded again reparsed => ?_⟩
      obtain rfl := Except.ok.inj (parsed.symm.trans reparsed)
      exact both.value succeeded
  | .variant name label first others, accepted, tags, one, other, alike, payload => by
      cases alike with
      | inl alike =>
          exact (WireType.decode_matches first accepted.1 tags _ _ alike payload).map
            fun _ _ => .inl
      | inr alike =>
          exact (Alternatives.decode_matches others accepted.2 tags _ _ alike payload).map
            fun _ _ => .inr

theorem Fields.decode_matches : (fields : Fields) → fields.AllLayouts Layout.TestUnconditional →
    (before more : List Field) → List.Forall₂ Layout.Declares more fields.declarations →
    Layout.Integral more → Layout.TestUnconditional (before ++ more) →
    (earlier ahead : List (Option Nat)) →
    Layout.AgreeOn (before.map Field.unmasked) earlier ahead → (container : Nat) →
    (one other : fields.Values) → fields.Alike one other → (payload : Bytes) →
      Reading.Matches (fields.Agrees more earlier ahead)
        (fields.decode more earlier container one payload)
        (fields.decode more ahead container other payload)
  | .nil, _, _, _, _, _, _, _, _, _, _, _, _, _, _ => .refl (fun _ => trivial) _
  | .cons _ _ _ _, _, _, [], declares, _, _, _, _, _, _, _, _, _, _ => by cases declares
  | .cons name type pairs rest, accepted, before, field :: more, declares, integral, tested,
      earlier, ahead, agree, container, (one, ones), (other, others), alike, payload => by
      obtain ⟨declared, declares⟩ := List.forall₂_cons.1 declares
      obtain ⟨own, integral⟩ := List.forall_mem_cons.1 integral
      have same := tested.isPresent_eq agree
      have first : Reading.Matches _ (field.read earlier container type one payload)
          (field.read ahead container type other payload) :=
        Field.read_matches
          (WireType.decode_matches type accepted.1 field.tags one other alike.1 payload)
          (declared.integerIfMasked rfl own) same
      rw [Fields.decode_cons, Fields.decode_cons]
      refine first.andThen ?_
      rintro ⟨word, value⟩ ⟨_, result⟩ left ⟨rfl, agrees⟩
      -- An unconditional field is present, so the two readings agree on its integer.
      have plain (unconditional : Layout.IsPlain field.unmasked) :
          type.asUint value = type.asUint result :=
        (agrees (Field.isPresent_of_unconditional (Layout.isPlain_unmasked.1 unconditional)
          earlier)).asUint_eq
      have next := agree.append plain
      rw [← List.map_singleton, ← List.map_append] at next
      refine (Fields.decode_matches rest accepted.2 (before ++ [field]) more declares integral
        (by simpa using tested) _ _ next word ones others alike.2 left).map ?_
      exact fun results results' later => ⟨⟨same, agrees⟩, later⟩

theorem Alternatives.decode_matches : (alternatives : Alternatives) →
    alternatives.AllLayouts Layout.TestUnconditional → (tags : FieldTags) →
    (one other : alternatives.Choice) → alternatives.Alike one other → (payload : Bytes) →
      Reading.Matches alternatives.Agrees (alternatives.decode tags one payload)
        (alternatives.decode tags other payload)
  | .cons _ type rest, accepted, tags, _, _, .inl alike, payload =>
      (WireType.decode_matches type accepted.1 tags _ _ alike payload).map fun _ _ => .inl
  | .cons _ type rest, accepted, tags, _, _, .inr alike, payload =>
      (Alternatives.decode_matches rest accepted.2 tags _ _ alike payload).map fun _ _ => .inr

end

theorem InTurn.forall_mem {α : Type} {read : Bytes → Reading α} {property : α → Prop}
    {payload left : Bytes} {elements : List (α × Bytes)}
    (inTurn : InTurn read payload elements left)
    (each : ∀ payload value rest, read payload = { value, rest } → property value) :
    ∀ value ∈ elements.map Prod.fst, property value := by
  induction inTurn with
  | nil payload => simp
  | cons first others ih => exact List.forall_mem_cons.2 ⟨each _ _ _ first, ih⟩

theorem forall₂_of_readTuple {α : Type} {read : α → Bytes → Reading α}
    {related : α → α → Prop}
    (each : ∀ value payload result rest, read value payload = { value := result, rest } →
      related value result)
    (count : Nat) (destination : Tuple α count) (payload : Bytes) {results : Tuple α count}
    {rest : Bytes} (succeeded : readTuple read count destination payload =
      { value := results, rest }) :
    List.Forall₂ related (Tuple.toList count destination) (Tuple.toList count results) := by
  induction count generalizing payload with
  | zero => exact .nil
  | succ count ih =>
      obtain ⟨value, left, first, later⟩ := Reading.andThen_eq_success succeeded
      obtain ⟨values, others, rfl⟩ := Reading.map_eq_success later
      exact .cons (each _ _ _ _ first) (ih destination.2 left others)

mutual

/-- A reading that succeeds keeps what it does not read. -/
theorem WireType.keeps_of_decode : (type : WireType) → type.AllLayouts Layout.TestUnconditional →
    (tags : FieldTags) → (destination : type.Value) → (payload : Bytes) →
    (result : type.Value) → (rest : Bytes) →
    type.decode tags destination payload = { value := result, rest } →
      type.Keeps destination result
  | .uint _, _, _, _, _, _, _, _ => trivial
  | .text, _, _, _, _, _, _, _ => trivial
  | .unit, _, _, _, _, _, _, _ => trivial
  | .list element, accepted, tags, destination, payload, result, rest, decoded => by
      simp only [WireType.decode] at decoded
      cases prefixed : tags.takeLength payload with
      | error cause => simp [FieldTags.readList, prefixed] at decoded
      | ok taken =>
          obtain ⟨elements, left, fills⟩ :=
            exists_fills (WireType.consumes element tags.element element.default) prefixed
          obtain rfl : result = elements.map Prod.fst := by
            rw [← fills.held, decoded]
          exact fills.inTurn.forall_mem
            (WireType.keeps_of_decode element accepted tags.element element.default)
  | .array element count, accepted, tags, destination, payload, result, rest, decoded =>
      forall₂_of_readTuple (WireType.keeps_of_decode element accepted tags) count destination
        payload decoded
  | .optional inner, accepted, tags, destination, payload, result, rest, decoded => by
      simp only [WireType.decode] at decoded
      split at decoded
      · obtain ⟨rfl, -⟩ := Reading.mk.inj decoded
        exact fun _ missing => nomatch missing
      · obtain ⟨value, inside, rfl⟩ := Reading.map_eq_success decoded
        rintro _ ⟨⟩
        exact WireType.keeps_of_decode inner accepted tags _ payload value rest inside
  | .record name fields limit, accepted, tags, destination, payload, result, rest, decoded => by
      obtain ⟨rfl, ⟨layout, parsed, -⟩, accepted⟩ := accepted
      simp only [WireType.decode, parsed] at decoded
      intro again reparsed
      obtain rfl := Except.ok.inj (parsed.symm.trans reparsed)
      exact Fields.keeps_of_decode fields accepted layout.fields (Layout.declares_of_parse parsed)
        (Layout.runs_of_parse parsed).integral [] 0 destination payload result rest decoded
  | .variant name label first others, accepted, tags, .inl destination, payload, result, rest,
      decoded => by
      obtain ⟨value, inside, rfl⟩ := Reading.map_eq_success decoded
      exact .inl
        (WireType.keeps_of_decode first accepted.1 tags destination payload value rest inside)
  | .variant name label first others, accepted, tags, .inr choice, payload, result, rest,
      decoded => by
      obtain ⟨value, inside, rfl⟩ := Reading.map_eq_success decoded
      exact .inr
        (Alternatives.keeps_of_decode others accepted.2 tags choice payload value rest inside)

theorem Fields.keeps_of_decode : (fields : Fields) → fields.AllLayouts Layout.TestUnconditional →
    (more : List Field) → List.Forall₂ Layout.Declares more fields.declarations →
    Layout.Integral more → (earlier : List (Option Nat)) → (container : Nat) →
    (destination : fields.Values) → (payload : Bytes) → (results : fields.Values) →
    (left : Bytes) →
    fields.decode more earlier container destination payload = { value := results, rest := left } →
      fields.Keeps more earlier destination results
  | .nil, _, _, _, _, _, _, _, _, _, _, _ => trivial
  | .cons _ _ _ _, _, [], declares, _, _, _, _, _, _, _, _ => by cases declares
  | .cons name type pairs rest, accepted, field :: more, declares, integral, earlier, container,
      (value, values), payload, results, left, decoded => by
      obtain ⟨declared, declares⟩ := List.forall₂_cons.1 declares
      obtain ⟨own, integral⟩ := List.forall_mem_cons.1 integral
      rw [Fields.decode_cons] at decoded
      obtain ⟨stored, after, first, later⟩ := Reading.andThen_eq_success decoded
      obtain ⟨others, behind, rfl⟩ := Reading.map_eq_success later
      have kept := Field.keeps_of_read
        (WireType.keeps_of_decode type accepted.1 field.tags value payload)
        (declared.integerIfMasked rfl own) first
      exact ⟨kept, Fields.keeps_of_decode rest accepted.2 more declares integral _ _ values after
        others left behind⟩

theorem Alternatives.keeps_of_decode : (alternatives : Alternatives) →
    alternatives.AllLayouts Layout.TestUnconditional → (tags : FieldTags) →
    (choice : alternatives.Choice) → (payload : Bytes) → (result : alternatives.Choice) →
    (rest : Bytes) → alternatives.decode tags choice payload = { value := result, rest } →
      alternatives.Keeps choice result
  | .cons _ type others, accepted, tags, .inl destination, payload, result, rest, decoded => by
      obtain ⟨value, inside, rfl⟩ := Reading.map_eq_success decoded
      exact .inl
        (WireType.keeps_of_decode type accepted.1 tags destination payload value rest inside)
  | .cons _ type others, accepted, tags, .inr choice, payload, result, rest, decoded => by
      obtain ⟨value, inside, rfl⟩ := Reading.map_eq_success decoded
      exact .inr
        (Alternatives.keeps_of_decode others accepted.2 tags choice payload value rest inside)

end

/-- What a destination held before does not leak into the result.  If no condition
tests a conditional field, then two destinations with the same alternatives are read
with the same outcome: the same bytes are used up, and both readings succeed or fail
with the same error.  On success the results agree in everything that is present, and
each keeps the alternatives and the absent fields of its own destination. -/
theorem WireType.decode_independent (type : WireType)
    (unconditional : type.AllLayouts Layout.TestUnconditional) (tags : FieldTags)
    {one other : type.Value} (alike : type.Alike one other) (payload : Bytes) :
    (type.decode tags one payload).rest = (type.decode tags other payload).rest ∧
      (type.decode tags one payload).error = (type.decode tags other payload).error ∧
      ((type.decode tags one payload).error = none →
        type.Agrees (type.decode tags one payload).value (type.decode tags other payload).value ∧
          type.Keeps one (type.decode tags one payload).value ∧
          type.Keeps other (type.decode tags other payload).value) := by
  have both := type.decode_matches unconditional tags one other alike payload
  have kept {destination : type.Value}
      (succeeded : (type.decode tags destination payload).error = none) :
      type.Keeps destination (type.decode tags destination payload).value := by
    refine type.keeps_of_decode unconditional tags destination payload _
      (type.decode tags destination payload).rest ?_
    rw [← succeeded]
  exact ⟨both.rest, both.error, fun succeeded =>
    ⟨both.value succeeded, kept succeeded, kept (both.error.symm.trans succeeded)⟩⟩

/-- The destinations differ in every field.  Of these only the absent ones show: they
keep what they held, which is the default in a value that was missing and in the
element of a list. -/
theorem WireType.decode_independent_of_absent_fields :
    let entry : WireType := .record "Entry" (.ofList
      [("kind", .uint .one, []), ("detail", .uint .one, [("cond", "kind==9")])]) none
    let choice : WireType := .variant "Choice" "Byte" (.uint .one) (.ofList [("Word", .uint .two)])
    let type : WireType := .record "Report" (.ofList
      [("mode", .uint .one, []), ("extra", .uint .one, [("cond", "mode==1")]),
        ("low", .uint .one, [("bitmask", "start"), ("bits", "0x0f")]),
        ("high", .uint .one, [("bitmask", "end"), ("bits", "0xf0")]),
        ("choice", choice, []), ("entries", .list entry, [("len", "uint8")]),
        ("note", .optional entry, [])]) none
    let one : type.Value := (7, 0x11, 1, 2, .inr (.inl 3), [(4, 5, ())], none, ())
    let other : type.Value := (8, 0x22, 6, 7, .inr (.inl 8), [], some (9, 0x33, ()), ())
    let payload : Bytes := [0x00, 0x52, 0x34, 0x12, 0x01, 0x0a, 0x0b, 0xfe]
    let read : type.Value :=
      (0, 0x11, 2, 5, .inr (.inl 0x1234), [(0x0a, 0, ())], some (0x0b, 0, ()), ())
    let read' : type.Value :=
      (0, 0x22, 2, 5, .inr (.inl 0x1234), [(0x0a, 0, ())], some (0x0b, 0x33, ()), ())
    type.AllLayouts Layout.TestUnconditional ∧ type.Alike one other ∧
      type.ofPayload one payload = { value := read, rest := [0xfe] } ∧
        type.ofPayload other payload = { value := read', rest := [0xfe] } ∧
          type.Agrees read read' ∧ type.Keeps one read ∧ type.Keeps other read' := by
  intro entry choice type one other payload read read'
  have simple : entry.AllLayouts Layout.TestUnconditional :=
    ⟨rfl, ⟨_, rfl, by decide +kernel⟩, trivial, trivial, trivial⟩
  have unconditional : type.AllLayouts Layout.TestUnconditional :=
    ⟨rfl, ⟨_, rfl, by decide +kernel⟩, trivial, trivial, trivial, trivial,
      ⟨trivial, trivial, trivial⟩, simple, simple, trivial⟩
  have alike : type.Alike one other :=
    ⟨trivial, trivial, trivial, trivial, .inr (.inl trivial), trivial, ⟨trivial, trivial, trivial⟩,
      trivial⟩
  have first : type.ofPayload one payload = { value := read, rest := [0xfe] } := by
    unfold type one payload read entry choice
    rfl
  have second : type.ofPayload other payload = { value := read', rest := [0xfe] } := by
    unfold type other payload read' entry choice
    rfl
  obtain ⟨-, -, independent⟩ :=
    WireType.decode_independent type unconditional { field := "payload" } alike payload
  rw [← WireType.ofPayload, ← WireType.ofPayload, first, second] at independent
  exact ⟨unconditional, alike, first, second, independent rfl⟩

-- The second field is absent, but the third one is looked for if the second held five.
example :
    let type : WireType := .record "Chain" (.ofList
      [("mode", .uint .one, []), ("first", .uint .one, [("cond", "mode==1")]),
        ("second", .uint .one, [("cond", "first==5")])]) none
    type.ofPayload (0x00, 0x05, 0x00, ()) [0x00, 0x07] =
        { value := (0x00, 0x05, 0x07, ()), rest := [] } ∧
      type.ofPayload (0x00, 0x06, 0x00, ()) [0x00, 0x07] =
        { value := (0x00, 0x06, 0x00, ()), rest := [0x07] } :=
  ⟨rfl, rfl⟩

end ZigbeeHost
