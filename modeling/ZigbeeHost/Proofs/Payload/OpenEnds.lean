import ZigbeeHost.Proofs.Payload.Members

/-!
# Payloads whose end ends the value

A list or text without a length prefix and an optional value go up to the end of
the payload, so only the last field of a record can have such a type.  Here no
bytes may follow, and reading stops where the payload does.  The end may lie
several records deep, each of which is the last field of the one around it.  The
fields in front of it are read as in front of any other bytes.
-/

namespace ZigbeeHost

/-- The type is read up to the end of the payload: a list or a text without a
length prefix, something optional, or a record that ends with such a type. -/
inductive WireType.OpenEnded : WireType → FieldTags → Prop where
  | text {tags : FieldTags} (plain : tags.hex = none) (unannounced : tags.length = none) :
      OpenEnded .text tags
  | list {element : WireType} {tags : FieldTags} (unannounced : tags.length = none)
      (delimited : element.SelfDelimiting tags.element)
      (takesBytes : element.TakesBytes tags.element) : OpenEnded (.list element) tags
  | optional {inner : WireType} {tags : FieldTags} (delimited : inner.SelfDelimiting tags)
      (takesBytes : inner.TakesBytes tags) : OpenEnded (.optional inner) tags
  | record {record name : String} {before : Fields} {type : WireType}
      {pairs : List (String × String)} {layout : Layout} {earlier : List Field} {last : Field}
      {tags : FieldTags}
      (parsed : (before.append (.cons name type pairs .nil)).layout record = .ok layout)
      (parts : layout.fields = earlier ++ [last]) (delimited : before.SelfDelimiting earlier)
      (openEnded : type.OpenEnded last.tags) :
      OpenEnded (.record record (before.append (.cons name type pairs .nil)) none) tags

mutual

/-- If the last field is a bit-run member, then it holds an integer; and so in the
record that is the last field, and in the last field of that one. -/
def WireType.LastMemberHeld : (type : WireType) → type.Value → Prop
  | .record name fields _, values =>
      ∀ layout, fields.layout name = .ok layout → fields.LastMemberHeld layout.fields [] values
  | .uint _, _ | .text, _ | .unit, _ | .list _, _ | .array _ _, _ => True
  | .optional _, _ | .variant _ _ _ _, _ => True

def Fields.LastMemberHeld :
    (fields : Fields) → List Field → List (Option Nat) → fields.Values → Prop
  | .cons _ type _ rest, field :: more, earlier, (value, values) =>
      (rest = .nil →
        match field.tags.bitMask with
        | some _ => (type.asUint value).isSome
        | none => field.isPresent earlier → type.LastMemberHeld value) ∧
        rest.LastMemberHeld more (earlier ++ [type.asUint value]) values
  | .nil, _, _, _ => True
  | .cons _ _ _ _, [], _, _ => True

end

namespace Fields

/-- Each field can be told from what follows: it is a bit-run member that holds
an integer, or its type is self-delimiting. -/
def Separable : (fields : Fields) → List Field → fields.Values → Prop
  | .cons _ type _ rest, field :: more, (value, values) =>
      (match field.tags.bitMask with
        | some _ => (type.asUint value).isSome
        | none => type.SelfDelimiting field.tags) ∧ rest.Separable more values
  | .nil, _, _ => True
  | .cons _ _ _ _, [], _ => True

section Joining

variable {later : Fields} {laterFields : List Field} {others : later.Values}

theorem blank_join : (first : Fields) → (values : first.Values) →
    (first.append later).blank (first.join later values others) =
      first.join later (first.blank values) (later.blank others)
  | .nil, _ => rfl
  | .cons _ _ _ rest, (_, values) => by
      simp only [join, Fields.blank, blank_join rest values]

theorem canonical_join : (first : Fields) → (firstFields : List Field) →
    firstFields.length = first.declarations.length → (earlier : List (Option Nat)) →
    (values : first.Values) →
      ((first.append later).Canonical (firstFields ++ laterFields) earlier
          (first.join later values others) ↔
        first.Canonical firstFields earlier values ∧
          later.Canonical laterFields (earlier ++ first.uints values) others)
  | .nil, firstFields, same, earlier, values => by
      obtain rfl := List.eq_nil_of_length_eq_zero same
      simp [join, uints, Fields.Canonical]
  | .cons name type pairs rest, firstFields, same, earlier, values => by
      obtain ⟨value, values⟩ := values
      obtain ⟨field, more, rfl⟩ := List.exists_cons_of_length_eq_add_one same
      simp only [join, uints, List.cons_append, Fields.Canonical, and_assoc,
        canonical_join rest more (Nat.succ.inj same), List.append_assoc, List.nil_append]

theorem append_ne_nil (nonempty : later ≠ .nil) : (first : Fields) → first.append later ≠ .nil
  | .nil => nonempty
  | .cons _ _ _ _ => by simp

theorem lastMemberHeld_join (nonempty : later ≠ .nil) :
    (first : Fields) → (firstFields : List Field) →
    firstFields.length = first.declarations.length → (earlier : List (Option Nat)) →
    (values : first.Values) →
      ((first.append later).LastMemberHeld (firstFields ++ laterFields) earlier
          (first.join later values others) ↔
        later.LastMemberHeld laterFields (earlier ++ first.uints values) others)
  | .nil, firstFields, same, earlier, values => by
      obtain rfl := List.eq_nil_of_length_eq_zero same
      simp [join, uints]
  | .cons name type pairs rest, firstFields, same, earlier, values => by
      obtain ⟨value, values⟩ := values
      obtain ⟨field, more, rfl⟩ := List.exists_cons_of_length_eq_add_one same
      simp only [join, uints, List.cons_append, Fields.LastMemberHeld, append_ne_nil nonempty,
        false_imp_iff, true_and, lastMemberHeld_join nonempty rest more (Nat.succ.inj same),
        List.append_assoc, List.nil_append]

theorem separable_join : (first : Fields) → (firstFields : List Field) →
    firstFields.length = first.declarations.length → (values : first.Values) →
      ((first.append later).Separable (firstFields ++ laterFields)
          (first.join later values others) ↔
        first.Separable firstFields values ∧ later.Separable laterFields others)
  | .nil, firstFields, same, values => by
      obtain rfl := List.eq_nil_of_length_eq_zero same
      simp [join, Separable]
  | .cons name type pairs rest, firstFields, same, values => by
      obtain ⟨value, values⟩ := values
      obtain ⟨field, more, rfl⟩ := List.exists_cons_of_length_eq_add_one same
      simp only [join, List.cons_append, Separable, and_assoc,
        separable_join rest more (Nat.succ.inj same)]

end Joining

/-- Nothing optional is self-delimiting, so a bit-run member that is one holds an
integer. -/
theorem separable_of_selfDelimiting : (fields : Fields) → (more : List Field) →
    (values : fields.Values) → List.Forall₂ Layout.Declares more fields.declarations →
    Layout.Integral more → fields.SelfDelimiting more → fields.Separable more values
  | .nil, _, _, _, _, _ => trivial
  | .cons _ _ _ _, [], _, declares, _, _ => by cases declares
  | .cons _ type _ rest, field :: more, (value, values), declares, integral, delimited => by
      obtain ⟨declared, declares⟩ := List.forall₂_cons.1 declares
      obtain ⟨own, integral⟩ := List.forall_mem_cons.1 integral
      obtain ⟨here, delimited⟩ := delimited
      refine ⟨?_, separable_of_selfDelimiting rest more values declares integral delimited⟩
      cases masked : field.tags.bitMask with
      | none => exact here
      | some bits =>
          obtain ⟨width, base⟩ := own (by simp [masked])
          rw [declared.shape] at base
          cases type with
          | uint => rfl
          | optional inner => exact here.elim
          | _ => simp [WireType.shape, Shape.base] at base

/-- Members that hold integers within their masks are read back as they are. -/
theorem eq_of_memberBits : (run : Fields) → (members : List Field) →
    (earlier : List (Option Nat)) → (values results : run.Values) →
    List.Forall₂ Layout.Declares members run.declarations →
    (∀ field ∈ members, field.tags.bitMask.isSome) → run.Separable members values →
    run.Canonical members earlier values →
    run.uints results = List.zipWith Field.memberBits members (run.uints values) →
      results = values
  | .nil, _, _, _, _, _, _, _, _, _ => rfl
  | .cons name type pairs rest, [], _, _, _, declares, _, _, _, _ => by cases declares
  | .cons name type pairs rest, field :: more, earlier, values, results, declares, masked,
      delimited, canonical, shown => by
      obtain ⟨value, values⟩ := values
      obtain ⟨result, results⟩ := results
      obtain ⟨declared, declares⟩ := List.forall₂_cons.1 declares
      obtain ⟨own, masked⟩ := List.forall_mem_cons.1 masked
      obtain ⟨bits, own⟩ := Option.isSome_iff_exists.1 own
      have present := Field.isPresent_of_masked declared.suits own earlier
      obtain ⟨holds, canonical⟩ := canonical_of_member present own canonical
      obtain ⟨held, delimited⟩ := delimited
      simp only [own] at held
      obtain ⟨number, held⟩ := Option.isSome_iff_exists.1 held
      simp only [uints, List.zipWith_cons_cons, List.cons.injEq] at shown
      obtain ⟨here, shown⟩ := shown
      have same : type.asUint result = some number := by
        rw [held, Option.getD_some] at holds
        rw [here, held, Field.memberBits, own, Option.map_some, Option.getD_some, holds]
      rw [WireType.eq_of_asUint_eq type result value number same held,
        eq_of_memberBits rest more _ values results declares masked delimited canonical shown]

end Fields

/-- Fields that can be told from what follows are read back segment by segment. -/
theorem Fields.decode_encode_of_separable {fields : Fields} {more : List Field}
    (segments : Fields.Segments fields more) {earlier : List (Option Nat)}
    {values : fields.Values} (delimited : fields.Separable more values)
    (canonical : fields.Canonical more earlier values) (word : Nat) {collected : Nat}
    {bytes : Bytes} (encoded : fields.encode more earlier collected values = .ok bytes)
    (rest : Bytes) :
    fields.decode more earlier word (fields.blank values) (bytes ++ rest) =
      { value := values, rest } := by
  induction segments generalizing earlier bytes with
  | nil =>
      obtain rfl := Except.ok.inj encoded
      rfl
  | @plain name type pairs fields field more unmasked declared tail ih =>
      obtain ⟨value, values⟩ := values
      obtain ⟨own, delimited⟩ := delimited
      simp only [unmasked] at own
      simp only [Fields.blank]
      cases present : field.isPresent earlier with
      | false =>
          obtain ⟨same, canonical⟩ := canonical_of_absent present canonical
          rw [encode_of_absent present] at encoded
          rw [same, decode_of_absent present, ih delimited canonical encoded]
          rfl
      | true =>
          obtain ⟨good, canonical⟩ := canonical_of_plain present unmasked canonical
          obtain ⟨first, later, head, remaining, rfl⟩ :=
            encode_plain_cases present unmasked encoded
          rw [List.append_assoc, decode_of_plain present unmasked,
            WireType.decode_encode type field.tags value own good head (later ++ rest)]
          simp only [Reading.andThen, ih delimited canonical remaining]
          rfl
  | @run run after members more width bitRun declares tail ih =>
      have same := declares.length_eq
      obtain ⟨values, others, rfl⟩ := exists_join run after values
      obtain ⟨inside, behind⟩ := (separable_join run members same values).1 delimited
      obtain ⟨good, othersGood⟩ := (canonical_join run members same earlier values).1 canonical
      obtain ⟨results, later, shown, remaining, step⟩ :=
        exists_run_step bitRun declares tail encoded
      obtain rfl := eq_of_memberBits run members earlier values results declares
        (Layout.masked_of_bitRun bitRun) inside good shown
      rw [blank_join, step, ih behind othersGood remaining]
      rfl

theorem Layout.Runs.integral {opened : Option Container} {fields : List Field}
    (runs : Runs opened fields) : Integral fields := by
  induction runs with
  | nil => exact fun _ inside => by cases inside
  | plain unmasked tail ih =>
      exact List.forall_mem_cons.2 ⟨fun masked => by simp [unmasked] at masked, ih⟩
  | first member _ _ _ _ ih | middle member _ _ _ ih | last member _ _ _ _ _ _ _ _ ih =>
      exact List.forall_mem_cons.2 ⟨fun _ => member.exists_width, ih⟩

theorem Layout.runs_before_plain {opened : Option Container} {earlier rest : List Field}
    {field : Field} (unmasked : field.tags.bitMask = none)
    (runs : Runs opened (earlier ++ field :: rest)) :
    Runs opened earlier ∧ Runs none (field :: rest) := by
  induction earlier generalizing opened with
  | nil =>
      cases runs with
      | plain _ tail => exact ⟨.nil, .plain unmasked tail⟩
      | first member | middle member | last member =>
          have masked := member.mask
          simp [unmasked] at masked
  | cons other earlier ih =>
      cases runs with
      | plain unmasked tail => exact (ih tail).imp_left (.plain unmasked)
      | first member role width order tail =>
          exact (ih tail).imp_left (.first member role width order)
      | middle member role disjoint tail =>
          exact (ih tail).imp_left (.middle member role disjoint)
      | last member role disjoint width order runWidth runOrder fits tail =>
          exact (ih tail).imp_left
            (.last member role disjoint width order runWidth runOrder fits)

/-- Elements that take bytes are read back until the payload is used up. -/
theorem readElements_untilEnd {α : Type} {encode : α → Except PayloadError Bytes}
    {read : Bytes → Reading α} {values : List α}
    (undone : ∀ value ∈ values, ∀ bytes, encode value = .ok bytes →
      bytes ≠ [] ∧ ∀ rest, read (bytes ++ rest) = { value, rest })
    {bytes : Bytes} (encoded : encodeEach encode values = .ok bytes) {count : Nat}
    (enough : bytes.length ≤ count) :
    readElements read true count bytes = { value := values, rest := [] } := by
  induction values generalizing bytes count with
  | nil =>
      obtain rfl := Except.ok.inj encoded
      cases count <;> simp [readElements]
  | cons value values ih =>
      obtain ⟨first, later, head, tail, rfl⟩ := encodeEach_cons_eq_ok encoded
      obtain ⟨nonempty, readHead⟩ := undone value List.mem_cons_self first head
      have positive := List.length_pos_iff.2 nonempty
      rw [List.length_append] at enough
      obtain ⟨count, rfl⟩ := Nat.exists_eq_add_of_lt (positive.trans_le (by omega : _ ≤ count))
      have shorter : later.length ≠ (first ++ later).length := by
        rw [List.length_append]
        omega
      have readTail := ih (fun other member => undone other (List.mem_cons_of_mem _ member)) tail
        (by omega : later.length ≤ 0 + count)
      simp only [readElements, List.append_eq_nil_iff, nonempty, false_and, and_false, if_false,
        readHead, Reading.andThen, if_neg shorter, readTail]
      rfl

namespace WireType

variable {tags : FieldTags} {bytes : Bytes}

theorem decode_encode_list_untilEnd {element : WireType} {values : List element.Value}
    (unannounced : tags.length = none) (delimited : element.SelfDelimiting tags.element)
    (takesBytes : element.TakesBytes tags.element)
    (canonical : (WireType.list element).Canonical tags values)
    (encoded : (WireType.list element).encode tags values = .ok bytes)
    (destination : List element.Value) :
    (WireType.list element).decode tags destination bytes = { value := values, rest := [] } := by
  simp only [WireType.encode, FieldTags.writeLength, unannounced] at encoded
  obtain ⟨written, body, rfl⟩ := map_eq_ok encoded
  simp only [WireType.decode, FieldTags.readList, FieldTags.takeLength, unannounced]
  refine readElements_untilEnd ?_ body le_rfl
  intro value member bytes head
  obtain ⟨good, fresh⟩ := canonical value member
  refine ⟨?_, ?_⟩
  · rintro rfl
    exact takesBytes value head
  · intro rest
    rw [← fresh]
    exact decode_encode element tags.element value delimited good head rest

theorem decode_encode_text_untilEnd {value : String} (plain : tags.hex = none)
    (unannounced : tags.length = none)
    (encoded : WireType.text.encode tags value = .ok bytes) (destination : String) :
    WireType.text.decode tags destination bytes = { value, rest := [] } := by
  simp only [WireType.encode, FieldTags.writeText, plain, FieldTags.writeLength, unannounced,
    Except.map, Except.mapError, List.nil_append, Except.ok.injEq] at encoded
  subst encoded
  have whole := takeBytes_append (Utf8.encode value) []
  rw [List.append_nil] at whole
  simp only [WireType.decode, FieldTags.readText, plain, FieldTags.takeLength, unannounced,
    Option.getD_none, whole, Utf8.decode?_encode]

/-- Something missing is told from something present by the end of the payload. -/
theorem decode_encode_optional {inner : WireType} {held : Option inner.Value}
    (delimited : inner.SelfDelimiting tags) (takesBytes : inner.TakesBytes tags)
    (canonical : (WireType.optional inner).Canonical tags held)
    (encoded : (WireType.optional inner).encode tags held = .ok bytes) :
    (WireType.optional inner).decode tags none bytes = { value := held, rest := [] } := by
  cases held with
  | none =>
      obtain rfl := Except.ok.inj encoded
      rfl
  | some value =>
      obtain ⟨good, fresh⟩ := canonical value rfl
      -- No bytes would be read as something missing.
      have nonempty : bytes ≠ [] := by
        rintro rfl
        exact takesBytes value encoded
      have read := decode_encode inner tags value delimited good encoded []
      rw [List.append_nil, fresh] at read
      simp only [WireType.decode, if_neg nonempty, Option.getD_none, read]
      rfl

end WireType

namespace Fields

section Ends

variable {before : Fields} {name : String} {type : WireType} {pairs : List (String × String)}
variable {earlier : List Field} {last : Field} {values : before.Values} {value : type.Value}
variable {bytes : Bytes}

/-- A last field without a mask is read back up to the end of the payload if its
type is. -/
theorem decode_encode_only {known : List (Option Nat)} (unmasked : last.tags.bitMask = none)
    (canonical : (Fields.cons name type pairs .nil).Canonical [last] known (value, ()))
    (held : (Fields.cons name type pairs .nil).LastMemberHeld [last] known (value, ()))
    (undone : ∀ {bytes : Bytes} {value : type.Value}, type.Canonical last.tags value →
      type.LastMemberHeld value → type.encode last.tags value = .ok bytes →
        type.decode last.tags (type.blank value) bytes = { value, rest := [] })
    (word : Nat) {collected : Nat}
    (encoded : (Fields.cons name type pairs .nil).encode [last] known collected (value, ()) =
      .ok bytes) :
    (Fields.cons name type pairs .nil).decode [last] known word
        ((Fields.cons name type pairs .nil).blank (value, ())) bytes =
      { value := (value, ()), rest := [] } := by
  simp only [Fields.blank]
  cases present : last.isPresent known with
  | false =>
      obtain ⟨same, -⟩ := canonical_of_absent present canonical
      rw [encode_of_absent present] at encoded
      obtain rfl := Except.ok.inj encoded
      rw [same, decode_of_absent present]
      rfl
  | true =>
      obtain ⟨good, -⟩ := canonical_of_plain present unmasked canonical
      obtain ⟨own, -⟩ := held
      simp only [unmasked, present, forall_const] at own
      obtain ⟨first, later, head, remaining, rfl⟩ := encode_plain_cases present unmasked encoded
      obtain rfl := Except.ok.inj remaining
      rw [List.append_nil, decode_of_plain present unmasked, undone good own head]
      rfl

variable (same : earlier.length = before.declarations.length)
variable (declares : List.Forall₂ Layout.Declares (earlier ++ [last])
  (before.append (.cons name type pairs .nil)).declarations)
variable (runs : Layout.Runs none (earlier ++ [last])) (delimited : before.SelfDelimiting earlier)
variable (canonical : (before.append (.cons name type pairs .nil)).Canonical (earlier ++ [last]) []
  (before.join _ values (value, ())))
variable (held : (before.append (.cons name type pairs .nil)).LastMemberHeld (earlier ++ [last]) []
  (before.join _ values (value, ())))

include same declares runs delimited canonical held

/-- A record that ends with a bit run is read back like one with no open end. -/
theorem decode_encode_end_of_masked {bits : BitMask} (masked : last.tags.bitMask = some bits)
    (encoded : (before.append (.cons name type pairs .nil)).encode (earlier ++ [last]) [] 0
      (before.join _ values (value, ())) = .ok bytes) :
    (before.append (.cons name type pairs .nil)).decode (earlier ++ [last]) [] 0
        ((before.append (.cons name type pairs .nil)).blank (before.join _ values (value, ())))
          bytes = { value := before.join _ values (value, ()), rest := [] } := by
  have nonempty : Fields.cons name type pairs .nil ≠ .nil := by simp
  have endHeld := (lastMemberHeld_join nonempty before earlier same [] values).1 held
  have told : (Fields.cons name type pairs .nil).Separable [last] (value, ()) := by
    simpa [Separable, Fields.LastMemberHeld, masked] using endHeld
  have frontTold := separable_of_selfDelimiting before earlier values
    (declares_append same declares).1 (List.forall_mem_append.1 runs.integral).1 delimited
  have read := decode_encode_of_separable (segments_of_runs runs declares)
    ((separable_join before earlier same values).2 ⟨frontTold, told⟩) canonical 0 encoded []
  rwa [List.append_nil] at read

/-- A record is read back whose last field is, up to the end of the payload. -/
theorem decode_encode_end_of_plain (unmasked : last.tags.bitMask = none)
    (undone : ∀ {bytes : Bytes} {value : type.Value}, type.Canonical last.tags value →
      type.LastMemberHeld value → type.encode last.tags value = .ok bytes →
        type.decode last.tags (type.blank value) bytes = { value, rest := [] })
    (encoded : (before.append (.cons name type pairs .nil)).encode (earlier ++ [last]) [] 0
      (before.join _ values (value, ())) = .ok bytes) :
    (before.append (.cons name type pairs .nil)).decode (earlier ++ [last]) [] 0
        ((before.append (.cons name type pairs .nil)).blank (before.join _ values (value, ())))
          bytes = { value := before.join _ values (value, ()), rest := [] } := by
  have nonempty : Fields.cons name type pairs .nil ≠ .nil := by simp
  have endHeld := (lastMemberHeld_join nonempty before earlier same [] values).1 held
  obtain ⟨good, endGood⟩ := (canonical_join before earlier same [] values).1 canonical
  obtain ⟨declares, endDeclares⟩ := declares_append same declares
  obtain ⟨runs, tail⟩ := Layout.runs_before_plain unmasked runs
  have segments : (Fields.cons name type pairs .nil).Segments [last] :=
    segments_of_runs tail endDeclares
  rw [encode_append segments (value, ()) 0 before earlier same] at encoded
  cases head : before.encode earlier [] 0 values with
  | error error => simp [head, Except.bind] at encoded
  | ok front =>
      rw [head] at encoded
      obtain ⟨back, remaining, rfl⟩ := map_eq_ok encoded
      have readFront := Fields.decode_encode before earlier [] values declares delimited good runs
        0 head back
      have readLast := decode_encode_only unmasked endGood endHeld undone 0 remaining
      rw [blank_join, decode_append segments _ 0 before earlier same, readFront]
      simp only [Reading.andThen]
      rw [readLast]
      rfl

end Ends

end Fields

namespace WireType

variable {tags : FieldTags} {bytes : Bytes}

/-- A value whose end is the end of the payload is read back from its own bytes. -/
theorem decode_encode_openEnded {type : WireType} (openEnded : type.OpenEnded tags)
    {value : type.Value} (canonical : type.Canonical tags value)
    (held : type.LastMemberHeld value) (encoded : type.encode tags value = .ok bytes) :
    type.decode tags (type.blank value) bytes = { value, rest := [] } := by
  induction openEnded generalizing bytes with
  | text plain unannounced => exact decode_encode_text_untilEnd plain unannounced encoded _
  | list unannounced delimited takesBytes =>
      exact decode_encode_list_untilEnd unannounced delimited takesBytes canonical encoded _
  | optional delimited takesBytes =>
      exact decode_encode_optional delimited takesBytes canonical encoded
  | @record record name before type pairs layout earlier last tags parsed parts delimited _ ih =>
      have declares := Layout.declares_of_parse parsed
      have runs := Layout.runs_of_parse parsed
      have canonical := canonical layout parsed
      have held := held layout parsed
      rw [parts] at declares runs canonical held
      have same : earlier.length = before.declarations.length := by
        have lengths := declares.length_eq
        simp only [Fields.declarations_append, List.length_append, Fields.declarations,
          List.length_singleton] at lengths
        omega
      simp only [WireType.encode, parsed, Layout.transferred, parts] at encoded
      simp only [WireType.decode, WireType.blank, parsed, Layout.transferred, parts]
      obtain ⟨values, ⟨value, ⟨⟩⟩, rfl⟩ := Fields.exists_join before _ value
      cases masked : last.tags.bitMask with
      | some bits =>
          exact Fields.decode_encode_end_of_masked same declares runs delimited canonical held
            masked encoded
      | none =>
          exact Fields.decode_encode_end_of_plain same declares runs delimited canonical held
            masked ih encoded

/-- A canonical value of an open-ended type is read back exactly from its payload,
and nothing is left unread.  In particular nothing, an empty list and an empty text
come back as such, unless what is missing is a member of a bit run. -/
theorem ofPayload_toPayload_of_openEnded (type : WireType)
    (openEnded : type.OpenEnded payloadTags) (value : type.Value)
    (canonical : type.Canonical payloadTags value) (held : type.LastMemberHeld value)
    {payload : Bytes} (encoded : type.toPayload value = .ok payload) :
    type.ofPayload (type.blank value) payload = { value, rest := [] } :=
  decode_encode_openEnded openEnded canonical held encoded

/-- A record that ends in another record behind a condition, which ends in a list
without a length prefix. -/
theorem ofPayload_toPayload_of_nested_list :
    let report : WireType := .record "Report"
      (.ofList [("status", .uint .one, []), ("records", .list (.uint .two), [])]) none
    let type : WireType := .record "Answer" (.ofList
      [("mode", .uint .one, []), ("low", .uint .one, [("bitmask", "start"), ("bits", "0x0f")]),
        ("high", .uint .one, [("bitmask", "end"), ("bits", "0xf0")]),
        ("report", report, [("cond", "mode==1")])]) none
    let value : type.Value := (1, 0x2, 0x3, (0, [0x0006, 0x0008], ()), ())
    let payload : Bytes := [0x01, 0x32, 0x00, 0x06, 0x00, 0x08, 0x00]
    type.OpenEnded payloadTags ∧ type.Canonical payloadTags value ∧
      type.LastMemberHeld value ∧ type.toPayload value = .ok payload ∧
        type.ofPayload (type.blank value) payload = { value, rest := [] } := by
  intro report type value payload
  have reportOpen (tags : FieldTags) : report.OpenEnded tags :=
    @OpenEnded.record _ _ (.ofList [("status", .uint .one, [])]) _ _ _ [_] _ _ rfl rfl
      ⟨trivial, trivial⟩ (.list rfl trivial (takesBytes_uint .two rfl))
  have openEnded : type.OpenEnded payloadTags :=
    @OpenEnded.record _ _ (.ofList
        [("mode", .uint .one, []), ("low", .uint .one, [("bitmask", "start"), ("bits", "0x0f")]),
          ("high", .uint .one, [("bitmask", "end"), ("bits", "0xf0")])]) _ _ _ [_, _, _] _ _
      rfl rfl ⟨trivial, trivial, trivial, trivial⟩ (reportOpen _)
  have canonical : type.Canonical payloadTags value := by
    intro layout parsed
    obtain rfl := Except.ok.inj parsed
    refine ⟨trivial, rfl, rfl, ?_, trivial⟩
    intro layout parsed
    obtain rfl := Except.ok.inj parsed
    exact ⟨trivial, fun _ _ => ⟨trivial, rfl⟩, trivial⟩
  have held : type.LastMemberHeld value := by
    intro layout parsed
    obtain rfl := Except.ok.inj parsed
    refine ⟨by simp, by simp, by simp, fun _ _ => ?_, trivial⟩
    intro layout parsed
    obtain rfl := Except.ok.inj parsed
    exact ⟨by simp, fun _ _ => trivial, trivial⟩
  have encoded : type.toPayload value = .ok payload := by
    decide +kernel
  exact ⟨openEnded, canonical, held, encoded,
    ofPayload_toPayload_of_openEnded type openEnded value canonical held encoded⟩

/-- A missing member at the end of a bit run takes part in the word with zero, and
is read back as zero. -/
theorem ofPayload_toPayload_ne_of_missing_member :
    let type : WireType := .record "Flags" (.ofList
      [("low", .uint .one, [("bitmask", "start"), ("bits", "0x0f")]),
        ("high", .optional (.uint .one), [("bitmask", "end"), ("bits", "0xf0")])]) none
    let value : type.Value := (1, none, ())
    type.OpenEnded payloadTags ∧ type.Canonical payloadTags value ∧
      type.toPayload value = .ok [0x01] ∧
        type.ofPayload (type.blank value) [0x01] = { value := (1, some 0, ()), rest := [] } ∧
          type.ofPayload (type.blank value) [0x01] ≠ { value, rest := [] } := by
  intro type value
  have openEnded : type.OpenEnded payloadTags :=
    @OpenEnded.record _ _ (.ofList
        [("low", .uint .one, [("bitmask", "start"), ("bits", "0x0f")])]) _ _ _ [_] _ _ rfl rfl
      ⟨trivial, trivial⟩ (.optional trivial (takesBytes_uint .one rfl))
  have canonical : type.Canonical payloadTags value := by
    intro layout parsed
    obtain rfl := Except.ok.inj parsed
    exact ⟨rfl, rfl, trivial⟩
  have read : type.ofPayload (type.blank value) [0x01] =
      { value := (1, some 0, ()), rest := [] } := rfl
  refine ⟨openEnded, canonical, by decide +kernel, read, ?_⟩
  rw [read]
  intro same
  have held : some (0 : BitVec 8) = none :=
    congrArg (fun reading : Reading type.Value => reading.value.2.1) same
  cases held

end WireType

end ZigbeeHost
