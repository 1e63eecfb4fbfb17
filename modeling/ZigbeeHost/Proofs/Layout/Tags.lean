import ZigbeeHost.Payload.FieldTags
import Mathlib.Data.List.Induction

/-!
# What a list of tags declares

The tags of a field are read from left to right, but the outcome can be said
without that order: if every pair can be read, then each tag has the value of its
last pair.  So only the order of pairs with one tag matters.  A role needs a mask,
wherever in the list the mask stands, and this is not looked into before all pairs
have been read.  If some pair cannot be read, the first such pair is the error.
-/

namespace ZigbeeHost

theorem TagKind.ofName?_eq_some_iff {text : String} {kind : TagKind} :
    TagKind.ofName? text = some kind ↔ kind.name = text := by
  constructor
  · intro found
    simpa using List.find?_some found
  · rintro rfl
    cases kind <;> decide

theorem TagKind.name_inj {kind other : TagKind} : kind.name = other.name ↔ kind = other := by
  refine ⟨fun same => ?_, congrArg TagKind.name⟩
  have found := TagKind.ofName?_eq_some_iff.2 same
  rw [TagKind.ofName?_eq_some_iff.2 rfl] at found
  exact (Option.some.inj found).symm

namespace Tag

/-- The pair names a tag, and the tag can take the value. -/
def IsReadable (pair : String × String) : Prop :=
  ∃ tag, Tag.read pair = .ok tag

instance decidableIsReadable (pair : String × String) : Decidable (IsReadable pair) :=
  match here : Tag.read pair with
  | .ok tag => isTrue ⟨tag, here⟩
  | .error _ => isFalse fun ⟨_, read⟩ => nomatch here.symm.trans read

theorem read_eq_ok_iff {pair : String × String} {tag : Tag} :
    Tag.read pair = .ok tag ↔
      ∃ kind : TagKind, pair.1 = kind.name ∧ readValue? kind pair.2 = some tag := by
  unfold Tag.read
  constructor
  · intro read
    split at read
    · cases read
    · rename_i kind named
      split at read
      · cases read
      · rename_i known value
        obtain rfl := Except.ok.inj read
        exact ⟨kind, (TagKind.ofName?_eq_some_iff.1 named).symm, value⟩
  · rintro ⟨kind, named, value⟩
    rw [TagKind.ofName?_eq_some_iff.2 named.symm]
    simp only [value]

/-- A pair alone is never short of a mask. -/
theorem read_ne_missingMask (pair : String × String) :
    Tag.read pair ≠ .error .missingMask := by
  intro read
  unfold Tag.read at read
  split at read
  · cases read
  · rename_i kind named
    split at read
    · cases kind <;> cases read
    · cases read

end Tag

namespace FieldTags

variable {field : String} {pairs : List (String × String)}

/-- Some pair has the tag. -/
def Mentions (pairs : List (String × String)) (kind : TagKind) : Prop :=
  ∃ pair ∈ pairs, pair.1 = kind.name

instance decidableMentions (pairs : List (String × String)) (kind : TagKind) :
    Decidable (Mentions pairs kind) :=
  inferInstanceAs (Decidable (∃ pair ∈ pairs, pair.1 = kind.name))

/-- The value in the last pair that has the tag. -/
def lastValue? (pairs : List (String × String)) (kind : TagKind) : Option String :=
  (pairs.filter fun pair => pair.1 = kind.name).getLast?.map Prod.snd

/-- The tags as their last pairs have them. -/
def ofLast (field : String) (pairs : List (String × String)) : FieldTags where
  field := field
  hex := (lastValue? pairs .hex).bind Width.read?
  length := (lastValue? pairs .length).bind Width.read?
  bitMask := ((lastValue? pairs .bits).bind fun value => Numeral.readMarked? value.toList).map
    fun mask => { mask, role := ((lastValue? pairs .role).bind RunRole.read?).getD .middle }
  order := ((lastValue? pairs .order).bind ByteOrder.read?).getD .little
  bound := (lastValue? pairs .bound).bind Width.readByteCount?
  condition := (lastValue? pairs .condition).bind Condition.read?

/-- The same before role and mask are joined. -/
def Draft.ofLast (field : String) (pairs : List (String × String)) : Draft where
  tags := { FieldTags.ofLast field pairs with bitMask := none }
  role := (lastValue? pairs .role).bind RunRole.read?
  mask := (lastValue? pairs .bits).bind fun value => Numeral.readMarked? value.toList

theorem lastValue?_concat (pairs : List (String × String)) (pair : String × String)
    (kind : TagKind) :
    lastValue? (pairs ++ [pair]) kind =
      if pair.1 = kind.name then some pair.2 else lastValue? pairs kind := by
  rw [lastValue?, List.filter_append, List.getLast?_append]
  by_cases same : pair.1 = kind.name
  · simp [same]
  · simp [same, lastValue?]

/-- One more pair replaces the value of its own tag and no other. -/
theorem Draft.add_ofLast {pair : String × String} {tag : Tag} (read : Tag.read pair = .ok tag) :
    (Draft.ofLast field pairs).add tag = Draft.ofLast field (pairs ++ [pair]) := by
  obtain ⟨name, value⟩ := pair
  obtain ⟨kind, rfl, known⟩ := Tag.read_eq_ok_iff.1 read
  cases kind with
  | hex | role | order | condition =>
      obtain ⟨result, found, rfl⟩ := Option.map_eq_some_iff.1 known
      simp [Draft.ofLast, FieldTags.ofLast, Draft.add, lastValue?_concat, TagKind.name_inj, found]
  | length | bits | bound =>
      obtain ⟨result, allowed, rfl⟩ := Option.map_eq_some_iff.1 known
      have found := (Option.filter_eq_some_iff.1 allowed).1
      simp [Draft.ofLast, FieldTags.ofLast, Draft.add, lastValue?_concat, TagKind.name_inj, found]

/-- Reading succeeds exactly if every pair can be read, and ends with the last
pairs. -/
theorem readPairs_eq_ok_iff {draft : Draft} :
    readPairs { tags := { field } } pairs = .ok draft ↔
      (∀ pair ∈ pairs, Tag.IsReadable pair) ∧ draft = Draft.ofLast field pairs := by
  induction pairs using List.reverseRecOn generalizing draft with
  | nil =>
      have nothing : Draft.ofLast field [] = { tags := { field } } := rfl
      simp [readPairs, nothing, eq_comm]
  | append_singleton pairs pair ih =>
      rw [readPairs_append, List.forall_mem_append, List.forall_mem_singleton]
      cases before : readPairs { tags := { field } } pairs with
      | error fault =>
          constructor
          · intro read
            cases read
          · intro readable
            rw [ih.2 ⟨readable.1.1, rfl⟩] at before
            cases before
      | ok reached =>
          obtain ⟨readable, rfl⟩ := ih.1 before
          simp only [readPairs]
          cases here : Tag.read pair with
          | error fault =>
              constructor
              · intro read
                cases read
              · rintro ⟨⟨-, tag, read⟩, -⟩
                rw [here] at read
                cases read
          | ok tag =>
              rw [Except.ok.injEq, Draft.add_ofLast here]
              exact ⟨fun same => ⟨⟨readable, tag, here⟩, same.symm⟩, fun whole => whole.2.symm⟩

/-- Reading fails exactly at the first pair that cannot be read. -/
theorem readPairs_eq_error_iff {draft : Draft} {fault : LayoutFault} :
    readPairs draft pairs = .error fault ↔
      ∃ before pair after, pairs = before ++ pair :: after ∧
        (∀ earlier ∈ before, Tag.IsReadable earlier) ∧ Tag.read pair = .error fault := by
  induction pairs generalizing draft with
  | nil => simp [readPairs]
  | cons pair pairs ih =>
      simp only [readPairs]
      cases here : Tag.read pair with
      | error first =>
          rw [Except.error.injEq]
          constructor
          · rintro rfl
            exact ⟨[], pair, pairs, rfl, by simp, here⟩
          · rintro ⟨before, other, after, split, readable, unread⟩
            cases before with
            | nil =>
                obtain ⟨rfl, -⟩ := List.cons.inj split
                exact Except.error.inj (here.symm.trans unread)
            | cons head before =>
                obtain ⟨rfl, -⟩ := List.cons.inj split
                obtain ⟨tag, read⟩ := readable _ List.mem_cons_self
                rw [here] at read
                cases read
      | ok tag =>
          rw [ih]
          constructor
          · rintro ⟨before, other, after, rfl, readable, unread⟩
            exact ⟨pair :: before, other, after, rfl,
              List.forall_mem_cons.2 ⟨⟨tag, here⟩, readable⟩, unread⟩
          · rintro ⟨before, other, after, split, readable, unread⟩
            cases before with
            | nil =>
                obtain ⟨rfl, -⟩ := List.cons.inj split
                rw [here] at unread
                cases unread
            | cons head before =>
                obtain ⟨rfl, rfl⟩ := List.cons.inj split
                exact ⟨before, other, after, rfl, (List.forall_mem_cons.1 readable).2, unread⟩

theorem mem_of_lastValue? {kind : TagKind} {value : String}
    (last : lastValue? pairs kind = some value) : (kind.name, value) ∈ pairs := by
  obtain ⟨pair, found, rfl⟩ := Option.map_eq_some_iff.1 last
  obtain ⟨member, named⟩ := List.mem_filter.1 (List.mem_of_getLast? found)
  rwa [← of_decide_eq_true named]

theorem mentions_iff {kind : TagKind} :
    Mentions pairs kind ↔ (lastValue? pairs kind).isSome = true := by
  constructor
  · rintro ⟨pair, member, named⟩
    have listed : pair ∈ pairs.filter fun pair => pair.1 = kind.name :=
      List.mem_filter.2 ⟨member, by simpa using named⟩
    rw [lastValue?, Option.isSome_map, Option.isSome_iff_ne_none, Ne,
      List.getLast?_eq_none_iff]
    exact List.ne_nil_of_mem listed
  · intro known
    obtain ⟨value, last⟩ := Option.isSome_iff_exists.1 known
    exact ⟨(kind.name, value), mem_of_lastValue? last, rfl⟩

/-- If all pairs can be read, a tag has a value exactly if some pair has the tag. -/
theorem isSome_bind_lastValue?_iff {α : Type} {kind : TagKind} {read : String → Option α}
    (readable : ∀ pair ∈ pairs, Tag.IsReadable pair)
    (reads : ∀ value tag, Tag.readValue? kind value = some tag → (read value).isSome = true) :
    ((lastValue? pairs kind).bind read).isSome = true ↔ Mentions pairs kind := by
  rw [mentions_iff]
  cases last : lastValue? pairs kind with
  | none => rfl
  | some value =>
      obtain ⟨tag, known⟩ := readable _ (mem_of_lastValue? last)
      obtain ⟨same, named, taken⟩ := Tag.read_eq_ok_iff.1 known
      obtain rfl := TagKind.name_inj.1 named
      exact iff_of_true (reads value tag taken) rfl

/-- Role and mask are joined if there is a mask, or no role. -/
theorem Draft.finish_ofLast (field : String) (pairs : List (String × String)) :
    (Draft.ofLast field pairs).finish =
      if (Draft.ofLast field pairs).role.isSome = true ∧
          ¬ (Draft.ofLast field pairs).mask.isSome = true then .error .missingMask
      else .ok (FieldTags.ofLast field pairs) := by
  have joined : FieldTags.ofLast field pairs = { (Draft.ofLast field pairs).tags with
      bitMask := (Draft.ofLast field pairs).mask.map fun mask =>
        { mask, role := (Draft.ofLast field pairs).role.getD .middle } } := rfl
  have unjoined : (Draft.ofLast field pairs).tags.bitMask = none := rfl
  generalize Draft.ofLast field pairs = draft at joined unjoined ⊢
  obtain ⟨tags, role, mask⟩ := draft
  rw [joined]
  cases mask with
  | none =>
      cases role with
      | none =>
          cases tags
          cases unjoined
          simp [Draft.finish]
      | some role => simp [Draft.finish]
  | some mask => cases role <;> simp [Draft.finish]

theorem read_of_readable (field : String) (readable : ∀ pair ∈ pairs, Tag.IsReadable pair) :
    FieldTags.read field pairs =
      if Mentions pairs .role ∧ ¬ Mentions pairs .bits then .error .missingMask
      else .ok (ofLast field pairs) := by
  have role : (Draft.ofLast field pairs).role.isSome = true ↔ Mentions pairs .role := by
    refine isSome_bind_lastValue?_iff readable fun value tag known => ?_
    obtain ⟨role, found, -⟩ := Option.map_eq_some_iff.1 known
    rw [found, Option.isSome_some]
  have mask : (Draft.ofLast field pairs).mask.isSome = true ↔ Mentions pairs .bits := by
    refine isSome_bind_lastValue?_iff readable fun value tag known => ?_
    obtain ⟨mask, allowed, -⟩ := Option.map_eq_some_iff.1 known
    rw [(Option.filter_eq_some_iff.1 allowed).1, Option.isSome_some]
  have drafted : readPairs { tags := { field } } pairs = .ok (Draft.ofLast field pairs) :=
    readPairs_eq_ok_iff.2 ⟨readable, rfl⟩
  simp only [FieldTags.read, drafted, Draft.finish_ofLast, role, mask]

/-- A list of pairs is read exactly if every pair can be read and a role comes with
a mask. -/
theorem read_eq_ok_iff_last {tags : FieldTags} :
    FieldTags.read field pairs = .ok tags ↔
      (∀ pair ∈ pairs, Tag.IsReadable pair) ∧
        (Mentions pairs .role → Mentions pairs .bits) ∧ tags = ofLast field pairs := by
  constructor
  · intro read
    have readable : ∀ pair ∈ pairs, Tag.IsReadable pair := by
      cases drafted : readPairs { tags := { field } } pairs with
      | error fault => simp [FieldTags.read, drafted] at read
      | ok draft => exact (readPairs_eq_ok_iff.1 drafted).1
    rw [read_of_readable field readable] at read
    split at read
    · cases read
    · rename_i masked
      exact ⟨readable, fun role => not_not.1 fun unmasked => masked ⟨role, unmasked⟩,
        (Except.ok.inj read).symm⟩
  · rintro ⟨readable, masked, rfl⟩
    rw [read_of_readable field readable, if_neg]
    exact fun wrong => wrong.2 (masked wrong.1)

/-- It is refused at its first pair that cannot be read, or for the lack of a
mask. -/
theorem read_eq_error_iff {fault : LayoutFault} :
    FieldTags.read field pairs = .error fault ↔
      (∃ before pair after, pairs = before ++ pair :: after ∧
        (∀ earlier ∈ before, Tag.IsReadable earlier) ∧ Tag.read pair = .error fault) ∨
      (fault = .missingMask ∧ (∀ pair ∈ pairs, Tag.IsReadable pair) ∧
        Mentions pairs .role ∧ ¬ Mentions pairs .bits) := by
  have first := @readPairs_eq_error_iff pairs { tags := { field } } fault
  by_cases readable : ∀ pair ∈ pairs, Tag.IsReadable pair
  · -- No pair is in the way, so only the mask can be missing.
    have drafted : readPairs { tags := { field } } pairs = .ok (Draft.ofLast field pairs) :=
      readPairs_eq_ok_iff.2 ⟨readable, rfl⟩
    rw [← first, drafted, or_iff_right nofun, read_of_readable field readable]
    split
    · rename_i unmasked
      rw [Except.error.injEq]
      exact ⟨fun same => ⟨same.symm, readable, unmasked⟩, fun missing => missing.1.symm⟩
    · rename_i masked
      exact ⟨nofun, fun missing => absurd missing.2.2 masked⟩
  · rw [or_iff_left fun missing => readable missing.2.1, ← first]
    cases drafted : readPairs { tags := { field } } pairs with
    | error cause => simp [FieldTags.read, drafted]
    | ok draft => exact absurd (readPairs_eq_ok_iff.1 drafted).1 readable

theorem parse_eq_ok_iff {record : String} {tags : FieldTags} :
    parse record field pairs = .ok tags ↔ FieldTags.read field pairs = .ok tags := by
  simp only [parse]
  cases FieldTags.read field pairs <;> simp [Except.mapError]

/-- An error names the record and the field. -/
theorem parse_eq_error_iff {record : String} {error : ConfigurationError} :
    parse record field pairs = .error error ↔
      error.record = record ∧ error.field = field ∧
        FieldTags.read field pairs = .error error.fault := by
  obtain ⟨errorRecord, errorField, fault⟩ := error
  simp only [parse]
  cases FieldTags.read field pairs with
  | error cause => simp [Except.mapError, eq_comm]
  | ok tags => simp [Except.mapError]

/-- Lists that have the same pairs of every tag, in the same order, have the same
last values and can be read together. -/
theorem read_eq_ok_of_same_tags {other : List (String × String)}
    (same : ∀ name, (other.filter fun pair => pair.1 = name) =
      pairs.filter fun pair => pair.1 = name) {tags : FieldTags}
    (read : FieldTags.read field pairs = .ok tags) :
    FieldTags.read field other = .ok tags := by
  have member (pair : String × String) : pair ∈ other ↔ pair ∈ pairs := by
    have listed := congrArg (pair ∈ ·) (same pair.1)
    simpa using listed
  obtain ⟨readable, masked, rfl⟩ := read_eq_ok_iff_last.1 read
  have last : lastValue? other = lastValue? pairs := by
    funext kind
    rw [lastValue?, lastValue?, same]
  refine read_eq_ok_iff_last.2 ⟨?_, ?_, ?_⟩
  · exact fun pair inside => readable pair ((member pair).1 inside)
  · simpa only [Mentions, member] using masked
  · rw [ofLast, ofLast, last]

/-- A pair can be read exactly if nothing but a mask is missing when it stands alone. -/
theorem isReadable_iff_alone (record field : String) (pair : String × String) :
    Tag.IsReadable pair ↔
      ∀ error, parse record field [pair] = .error error → error.fault = .missingMask := by
  constructor
  · rintro ⟨tag, here⟩ error failed
    rcases read_eq_error_iff.1 (parse_eq_error_iff.1 failed).2.2 with
      ⟨before, other, after, split, -, unread⟩ | ⟨missing, -⟩
    · have member : other ∈ [pair] := by simp [split]
      rw [List.mem_singleton.1 member, here] at unread
      cases unread
    · exact missing
  · intro only
    cases here : Tag.read pair with
    | ok tag => exact ⟨tag, here⟩
    | error fault =>
        have failed : parse record field [pair] = .error { record, field, fault } :=
          parse_eq_error_iff.2 ⟨rfl, rfl,
            read_eq_error_iff.2 (.inl ⟨[], pair, [], rfl, by simp, here⟩)⟩
        obtain rfl : fault = .missingMask := only _ failed
        exact absurd here (Tag.read_ne_missingMask pair)

/-- Reading the pairs of a field succeeds exactly if every pair can be read on its own and
a role comes with a mask; then each tag has the value of its last pair.  Pairs of
different tags may change places.  An error is that of the first pair that cannot be
read, and only if there is none, that of a role without a mask. -/
theorem parse_takes_last (record field : String) (pairs : List (String × String)) :
    (∀ tags, parse record field pairs = .ok tags ↔
      (∀ pair ∈ pairs, Tag.IsReadable pair) ∧ (Mentions pairs .role → Mentions pairs .bits) ∧
        tags = ofLast field pairs) ∧
    (∀ pair, Tag.IsReadable pair ↔
      ∀ error, parse record field [pair] = .error error → error.fault = .missingMask) ∧
    (∀ other, (∀ name, (other.filter fun pair => pair.1 = name) =
        pairs.filter fun pair => pair.1 = name) →
      ∀ tags, parse record field other = .ok tags ↔ parse record field pairs = .ok tags) ∧
    (∀ error, parse record field pairs = .error error ↔
      error.record = record ∧ error.field = field ∧
        ((∃ before pair after, pairs = before ++ pair :: after ∧
            (∀ earlier ∈ before, Tag.IsReadable earlier) ∧ Tag.read pair = .error error.fault) ∨
          (error.fault = .missingMask ∧ (∀ pair ∈ pairs, Tag.IsReadable pair) ∧
            Mentions pairs .role ∧ ¬ Mentions pairs .bits))) ∧
    ∀ error, parse record field pairs = .error error → error.fault = .missingMask →
      ∀ pair ∈ pairs, Tag.IsReadable pair := by
  refine ⟨?_, isReadable_iff_alone record field, ?_, ?_, ?_⟩
  · intro tags
    rw [parse_eq_ok_iff, read_eq_ok_iff_last]
  · intro other same tags
    rw [parse_eq_ok_iff, parse_eq_ok_iff]
    exact ⟨read_eq_ok_of_same_tags fun name => (same name).symm, read_eq_ok_of_same_tags same⟩
  · intro error
    rw [parse_eq_error_iff, read_eq_error_iff]
  · intro error failed missing
    rcases read_eq_error_iff.1 (parse_eq_error_iff.1 failed).2.2 with
      ⟨before, pair, after, -, -, unread⟩ | ⟨-, readable, -⟩
    · rw [missing] at unread
      exact absurd unread (Tag.read_ne_missingMask pair)
    · exact readable

/-- A mask that is given twice, with the role before or behind the second one; a bad
bound that hides an unknown tag and a missing mask; and a role on its own. -/
theorem parse_takes_last_of_two_masks :
    let pairs := [("bits", "0x0f"), ("bitmask", "end"), ("bits", "0xf0"), ("endianness", "be")]
    let other := [("bits", "0x0f"), ("bits", "0xf0"), ("endianness", "be"), ("bitmask", "end")]
    let broken := [("bitmask", "start"), ("bound", "9"), ("size", "1")]
    let lone := [("hex", "2"), ("bitmask", "start")]
    parse "Report" "high" pairs =
        .ok { field := "high", bitMask := some { mask := 0xf0, role := .last }, order := .big } ∧
      parse "Report" "high" other = parse "Report" "high" pairs ∧
      parse "Report" "high" broken =
        .error { record := "Report", field := "high", fault := .unsupportedWidth .bound "9" } ∧
      parse "Report" "high" lone =
        .error { record := "Report", field := "high", fault := .missingMask } ∧
      ∀ pair ∈ lone, Tag.IsReadable pair := by
  intro pairs other broken lone
  have readable : ∀ pair ∈ pairs, Tag.IsReadable pair := by decide
  have masked : Mentions pairs .role → Mentions pairs .bits := fun _ => by decide
  have same : ∀ name, (other.filter fun pair => pair.1 = name) =
      pairs.filter fun pair => pair.1 = name := by
    intro name
    by_cases role : "bitmask" = name
    · subst role
      decide
    · simp [other, pairs, List.filter_cons, role]
  have parsed := (parse_takes_last "Report" "high" pairs).1 _ |>.2 ⟨readable, masked, rfl⟩
  have moved := ((parse_takes_last "Report" "high" pairs).2.2.1 other same _).2 parsed
  have refused := ((parse_takes_last "Report" "high" broken).2.2.2.1
    { record := "Report", field := "high", fault := .unsupportedWidth .bound "9" }).2
      ⟨rfl, rfl, .inl ⟨[("bitmask", "start")], ("bound", "9"), [("size", "1")], rfl,
        by decide, rfl⟩⟩
  have unmasked : parse "Report" "high" lone =
      .error { record := "Report", field := "high", fault := .missingMask } := rfl
  exact ⟨parsed, moved.trans parsed.symm, refused, unmasked,
    (parse_takes_last "Report" "high" lone).2.2.2.2 _ unmasked rfl⟩

end FieldTags

end ZigbeeHost
