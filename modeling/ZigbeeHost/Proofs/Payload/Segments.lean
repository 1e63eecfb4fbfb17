import ZigbeeHost.Proofs.Payload.Reencoding

/-!
# Records in segments

The fields of a record with a checked layout fall into segments: a field without
a mask, or a complete bit run.  Writing and reading treat one segment after the
other and hand on nothing but the integers of the fields so far.  What they do
with a bit run depends on its members alone: it is written as one word, and the
word gives each member the bits of its value that its mask can hold.  Proofs
about records follow the segments and need not look inside a run.
-/

namespace ZigbeeHost

namespace Layout

/-- The fields close a run that has the given container. -/
inductive RunTail : Container → List Field → Prop where
  | last {field : Field} {bits : BitMask} {container : Container}
      (member : IsMember field bits) (role : bits.role = .last)
      (disjoint : container.used &&& bits.mask = 0)
      (width : field.shape.uintWidth? = some container.width)
      (runWidth : field.runWidth = some container.width)
      (runOrder : field.runOrder = container.order)
      (fits : container.used ||| bits.mask ≤ container.width.maxValue) :
      RunTail container [field]
  | middle {field : Field} {rest : List Field} {bits : BitMask} {container : Container}
      (member : IsMember field bits) (role : bits.role = .middle)
      (disjoint : container.used &&& bits.mask = 0)
      (tail : RunTail (container.claim bits.mask) rest) :
      RunTail container (field :: rest)

/-- The fields are a complete bit run with a container of the given width. -/
inductive BitRun : Width → List Field → Prop where
  | first {field : Field} {rest : List Field} {bits : BitMask} {width : Width}
      {order : ByteOrder} (member : IsMember field bits) (role : bits.role = .first)
      (runWidth : field.runWidth = some width) (runOrder : field.runOrder = order)
      (tail : RunTail { width, order, used := bits.mask } rest) :
      BitRun width (field :: rest)

theorem masked_of_runTail {container : Container} {members : List Field}
    (closes : RunTail container members) : ∀ field ∈ members, field.tags.bitMask.isSome := by
  induction closes with
  | last member => simp [member.mask]
  | middle member role disjoint tail ih =>
      exact List.forall_mem_cons.2 ⟨by simp [member.mask], ih⟩

theorem masked_of_bitRun {width : Width} {members : List Field}
    (bitRun : BitRun width members) : ∀ field ∈ members, field.tags.bitMask.isSome := by
  cases bitRun with
  | first member role runWidth runOrder closes =>
      exact List.forall_mem_cons.2 ⟨by simp [member.mask], masked_of_runTail closes⟩

end Layout

/-- The integer that reading gives a bit-run member for the one that it held. -/
def Field.memberBits (field : Field) (held : Option Nat) : Option Nat :=
  field.tags.bitMask.map fun bits => held.getD 0 &&& (bits.mask >>> bits.shift)

namespace Fields

/-- The fields of one record followed by those of another. -/
@[reducible] def append : Fields → Fields → Fields
  | .nil, later => later
  | .cons name type tags rest, later => .cons name type tags (rest.append later)

/-- The values of fields that follow each other. -/
def join : (first later : Fields) → first.Values → later.Values → (first.append later).Values
  | .nil, _, _, others => others
  | .cons _ _ _ rest, later, (value, values), others => (value, rest.join later values others)

/-- The integers that the fields hold, for conditions and bit runs. -/
def uints : (fields : Fields) → fields.Values → List (Option Nat)
  | .nil, _ => []
  | .cons _ type _ rest, (value, values) => type.asUint value :: rest.uints values

/-- The fields with their checked forms consist of unmasked fields and complete
bit runs. -/
inductive Segments : Fields → List Field → Prop where
  | nil : Segments .nil []
  | plain {name : String} {type : WireType} {pairs : List (String × String)} {rest : Fields}
      {field : Field} {more : List Field} (unmasked : field.tags.bitMask = none)
      (declared : Layout.Declares field { name, shape := type.shape, tags := pairs })
      (tail : Segments rest more) : Segments (.cons name type pairs rest) (field :: more)
  | run {run after : Fields} {members more : List Field} {width : Width}
      (bitRun : Layout.BitRun width members)
      (declares : List.Forall₂ Layout.Declares members run.declarations)
      (tail : Segments after more) : Segments (run.append after) (members ++ more)

@[simp]
theorem length_uints : (fields : Fields) → (values : fields.Values) →
    (fields.uints values).length = fields.declarations.length
  | .nil, _ => rfl
  | .cons _ _ _ rest, (_, values) => by
      simp [uints, Fields.declarations, length_uints rest values]

theorem uints_join : (first later : Fields) → (values : first.Values) → (others : later.Values) →
    (first.append later).uints (first.join later values others) =
      first.uints values ++ later.uints others
  | .nil, _, _, _ => rfl
  | .cons _ _ _ rest, later, (_, values), others => by
      simp only [join, uints, List.cons_append, uints_join rest later values others]

theorem exists_join : (first later : Fields) → (values : (first.append later).Values) →
    ∃ (front : first.Values) (back : later.Values), values = first.join later front back
  | .nil, _, values => ⟨(), values, rfl⟩
  | .cons _ _ _ rest, later, (value, values) => by
      obtain ⟨front, back, rfl⟩ := exists_join rest later values
      exact ⟨(value, front), back, rfl⟩

theorem declarations_append : (first later : Fields) →
    (first.append later).declarations = first.declarations ++ later.declarations
  | .nil, _ => rfl
  | .cons _ _ _ rest, later => by
      simp only [Fields.declarations, List.cons_append, declarations_append rest later]

theorem declares_append {first later : Fields} {firstFields laterFields : List Field}
    (same : firstFields.length = first.declarations.length)
    (declares : List.Forall₂ Layout.Declares (firstFields ++ laterFields)
      (first.append later).declarations) :
    List.Forall₂ Layout.Declares firstFields first.declarations ∧
      List.Forall₂ Layout.Declares laterFields later.declarations := by
  rw [declarations_append] at declares
  have front := List.forall₂_take_append _ _ _ declares
  have back := List.forall₂_drop_append _ _ _ declares
  rw [List.take_left' same] at front
  rw [List.drop_left' same] at back
  exact ⟨front, back⟩

/-- Fields whose masks form complete runs fall into segments; inside a run, the
rest of that run comes first. -/
theorem segments_of_runs {opened : Option Layout.Container} {more : List Field}
    (runs : Layout.Runs opened more) {fields : Fields}
    (declares : List.Forall₂ Layout.Declares more fields.declarations) :
    match opened with
    | none => Segments fields more
    | some container => ∃ (run after : Fields) (members later : List Field),
        fields = run.append after ∧ more = members ++ later ∧
          Layout.RunTail container members ∧
            List.Forall₂ Layout.Declares members run.declarations ∧ Segments after later := by
  induction runs generalizing fields with
  | nil =>
      cases fields with
      | nil => exact .nil
      | cons name type pairs rest => cases declares
  | plain unmasked tail ih =>
      cases fields with
      | nil => cases declares
      | cons name type pairs rest =>
          obtain ⟨declared, declares⟩ := List.forall₂_cons.1 declares
          exact .plain unmasked declared (ih declares)
  | first member role runWidth runOrder tail ih =>
      cases fields with
      | nil => cases declares
      | cons name type pairs rest =>
          obtain ⟨declared, declares⟩ := List.forall₂_cons.1 declares
          obtain ⟨run, after, members, later, rfl, rfl, closes, inside, segments⟩ := ih declares
          exact @Segments.run (.cons name type pairs run) after (_ :: members) later _
            (.first member role runWidth runOrder closes) (.cons declared inside) segments
  | middle member role disjoint tail ih =>
      cases fields with
      | nil => cases declares
      | cons name type pairs rest =>
          obtain ⟨declared, declares⟩ := List.forall₂_cons.1 declares
          obtain ⟨run, after, members, later, rfl, rfl, closes, inside, segments⟩ := ih declares
          exact ⟨.cons name type pairs run, after, _ :: members, later, rfl, rfl,
            .middle member role disjoint closes, .cons declared inside, segments⟩
  | last member role disjoint width order runWidth runOrder fits tail ih =>
      cases fields with
      | nil => cases declares
      | cons name type pairs rest =>
          obtain ⟨declared, declares⟩ := List.forall₂_cons.1 declares
          exact ⟨.cons name type pairs .nil, rest, [_], _, rfl, rfl,
            .last member role disjoint width runWidth runOrder fits, .cons declared .nil,
            ih declares⟩

/-- The fields of a checked layout fall into segments. -/
theorem segments_of_layout {fields : Fields} {record : String} {layout : Layout}
    (parsed : fields.layout record = .ok layout) : Segments fields layout.fields :=
  segments_of_runs (Layout.runs_of_parse parsed) (Layout.declares_of_parse parsed)

section Sequences

variable {α β γ : Type}

theorem map_bind {failure : Type} (outcome : Except failure α) (next : α → Except failure β)
    (transform : β → γ) :
    (outcome.bind next).map transform = outcome.bind fun value => (next value).map transform := by
  cases outcome <;> rfl

theorem bind_map {failure : Type} (outcome : Except failure α) (transform : α → β)
    (next : β → Except failure γ) :
    (outcome.map transform).bind next = outcome.bind fun value => next (transform value) := by
  cases outcome <;> rfl

theorem bind_bind {failure : Type} (outcome : Except failure α) (first : α → Except failure β)
    (second : β → Except failure γ) :
    (outcome.bind first).bind second = outcome.bind fun value => (first value).bind second := by
  cases outcome <;> rfl

theorem map_map {failure : Type} (outcome : Except failure α) (first : α → β) (second : β → γ) :
    (outcome.map first).map second = outcome.map fun value => second (first value) := by
  cases outcome <;> rfl

end Sequences

/-- Between segments the word of the writer does not matter. -/
theorem encode_between {fields : Fields} {more : List Field} (segments : Segments fields more)
    (earlier : List (Option Nat)) (collected container : Nat) (values : fields.Values) :
    fields.encode more earlier collected values = fields.encode more earlier container values := by
  induction segments generalizing earlier with
  | nil => rfl
  | @plain name type pairs rest field more unmasked declared tail ih =>
      obtain ⟨value, values⟩ := values
      cases present : field.isPresent earlier with
      | false => rw [encode_of_absent present, encode_of_absent present, ih]
      | true =>
          rw [encode_plain_eq_bind present unmasked, encode_plain_eq_bind present unmasked, ih]
  | @run run after members more width bitRun declares tail ih =>
      cases bitRun with
      | @first field _ bits _ _ member role _ _ closes =>
          cases run with
          | nil => cases declares
          | cons name type pairs run =>
              -- The first member starts a word of its own, whatever was collected before it.
              obtain ⟨value, values⟩ := values
              obtain ⟨declared, -⟩ := List.forall₂_cons.1 declares
              have present := Field.isPresent_of_masked declared.suits member.mask earlier
              rw [List.cons_append, encode_of_first present member.mask role,
                encode_of_first present member.mask role]

/-- Fields are written one after the other, and those behind a segment depend on
the integers before them only. -/
theorem encode_append {later : Fields} {laterFields : List Field}
    (segments : Segments later laterFields) (others : later.Values) (collected : Nat) :
    (first : Fields) → (firstFields : List Field) →
      firstFields.length = first.declarations.length → (earlier : List (Option Nat)) →
        (container : Nat) → (values : first.Values) →
    (first.append later).encode (firstFields ++ laterFields) earlier container
        (first.join later values others) =
      (first.encode firstFields earlier container values).bind fun front =>
        (later.encode laterFields (earlier ++ first.uints values) collected others).map (front ++ ·)
  | .nil, firstFields, same, earlier, container, values => by
      obtain rfl := List.eq_nil_of_length_eq_zero same
      simp only [join, uints, List.append_nil, List.nil_append, Fields.encode, Except.bind]
      rw [encode_between segments earlier container collected]
      cases later.encode laterFields earlier collected others <;> rfl
  | .cons name type pairs rest, firstFields, same, earlier, container, values => by
      obtain ⟨value, values⟩ := values
      obtain ⟨field, more, rfl⟩ := List.exists_cons_of_length_eq_add_one same
      have sameRest : more.length = rest.declarations.length := Nat.succ.inj same
      have ih := encode_append segments others collected rest more sameRest
        (earlier ++ [type.asUint value])
      simp only [join, uints, List.cons_append]
      simp only [List.append_assoc, List.singleton_append] at ih
      cases present : field.isPresent earlier with
      | false => rw [encode_of_absent present, encode_of_absent present, ih]
      | true =>
          cases masked : field.tags.bitMask with
          | none =>
              rw [encode_plain_eq_bind present masked, encode_plain_eq_bind present masked, ih,
                bind_bind]
              simp only [map_bind, bind_map, map_map, List.append_assoc]
          | some bits =>
              rw [encode_of_masked present masked, encode_of_masked present masked, ih, map_bind,
                bind_map]
              simp only [map_map, List.append_assoc]

end Fields

namespace Reading

variable {α β γ : Type}

theorem andThen_map (reading : Reading α) (transform : α → β) (stopped : β → γ)
    (next : β → Bytes → Reading γ) :
    (reading.map transform).andThen stopped next =
      reading.andThen (fun value => stopped (transform value))
        fun value rest => next (transform value) rest := by
  obtain ⟨value, rest, error⟩ := reading
  cases error <;> rfl

theorem map_andThen (reading : Reading α) (stopped : α → β) (next : α → Bytes → Reading β)
    (transform : β → γ) :
    (reading.andThen stopped next).map transform =
      reading.andThen (fun value => transform (stopped value))
        fun value rest => (next value rest).map transform := by
  obtain ⟨value, rest, error⟩ := reading
  cases error <;> rfl

theorem andThen_andThen (reading : Reading α) (stopped : α → β) (next : α → Bytes → Reading β)
    (stoppedLater : β → γ) (nextLater : β → Bytes → Reading γ) :
    (reading.andThen stopped next).andThen stoppedLater nextLater =
      reading.andThen (fun value => stoppedLater (stopped value))
        fun value rest => (next value rest).andThen stoppedLater nextLater := by
  obtain ⟨value, rest, error⟩ := reading
  cases error <;> rfl

end Reading

namespace Fields

/-- Between segments the word of the reader does not matter. -/
theorem decode_between {fields : Fields} {more : List Field} (segments : Segments fields more)
    (earlier : List (Option Nat)) (word other : Nat) (destination : fields.Values)
    (payload : Bytes) :
    fields.decode more earlier word destination payload =
      fields.decode more earlier other destination payload := by
  induction segments generalizing earlier payload with
  | nil => rfl
  | @plain name type pairs rest field more unmasked declared tail ih =>
      obtain ⟨value, values⟩ := destination
      cases present : field.isPresent earlier with
      | false => rw [decode_of_absent present, decode_of_absent present, ih]
      | true =>
          rw [decode_of_plain present unmasked, decode_of_plain present unmasked]
          simp only [ih]
  | @run run after members more width bitRun declares tail ih =>
      cases bitRun with
      | @first field _ bits _ _ member role _ _ closes =>
          cases run with
          | nil => cases declares
          | cons name type pairs run =>
              obtain ⟨value, values⟩ := destination
              obtain ⟨declared, -⟩ := List.forall₂_cons.1 declares
              have present := Field.isPresent_of_masked declared.suits member.mask earlier
              simp only [List.cons_append, Fields.decode, present, if_true, member.mask, role]

/-- Fields are read one after the other, and those behind a segment depend on the
integers before them only. -/
theorem decode_append {later : Fields} {laterFields : List Field}
    (segments : Segments later laterFields) (others : later.Values) (other : Nat) :
    (first : Fields) → (firstFields : List Field) →
      firstFields.length = first.declarations.length → (earlier : List (Option Nat)) →
        (word : Nat) → (destination : first.Values) → (payload : Bytes) →
    (first.append later).decode (firstFields ++ laterFields) earlier word
        (first.join later destination others) payload =
      (first.decode firstFields earlier word destination payload).andThen
        (first.join later · others) fun values rest =>
          (later.decode laterFields (earlier ++ first.uints values) other others rest).map
            (first.join later values)
  | .nil, firstFields, same, earlier, word, destination, payload => by
      obtain rfl := List.eq_nil_of_length_eq_zero same
      simp only [join, uints, List.append_nil, List.nil_append, Fields.decode, Reading.andThen]
      exact decode_between segments earlier word other others payload
  | .cons name type pairs rest, firstFields, same, earlier, word, destination, payload => by
      obtain ⟨value, values⟩ := destination
      obtain ⟨field, more, rfl⟩ := List.exists_cons_of_length_eq_add_one same
      have sameRest : more.length = rest.declarations.length := Nat.succ.inj same
      have ih (value : type.Value) := decode_append segments others other rest more sameRest
        (earlier ++ [type.asUint value])
      simp only [List.append_assoc, List.singleton_append] at ih
      simp only [join, List.cons_append]
      cases present : field.isPresent earlier with
      | false =>
          rw [decode_of_absent present, decode_of_absent present, ih, Reading.map_andThen,
            Reading.andThen_map]
          rfl
      | true =>
          cases masked : field.tags.bitMask with
          | none =>
              rw [decode_of_plain present masked, decode_of_plain present masked,
                Reading.andThen_andThen]
              simp only [ih, Reading.map_andThen, Reading.andThen_map]
              rfl
          | some bits =>
              by_cases role : bits.role = .first
              · cases taken : field.runOrder.take field.containerBytes payload with
                | error cause =>
                    rw [decode_of_missing_word present masked role taken,
                      decode_of_missing_word present masked role taken]
                    rfl
                | ok result =>
                    rw [decode_of_first present masked role taken,
                      decode_of_first present masked role taken, ih, Reading.map_andThen,
                      Reading.andThen_map]
                    rfl
              · rw [decode_of_inside present masked role, decode_of_inside present masked role, ih,
                  Reading.map_andThen, Reading.andThen_map]
                rfl

end Fields

end ZigbeeHost
