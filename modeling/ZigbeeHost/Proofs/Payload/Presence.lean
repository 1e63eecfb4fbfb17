import ZigbeeHost.Proofs.Payload.Members

/-!
# When reader and writer agree on which fields are present

The writer decides a condition on the integer that the caller has put into the
tested field, the reader on the one that it has read so far.  The two differ if
the tested field was itself absent, or lost bits in a bit run, and then the reader
may miss a field that was written, or look for one that was not.  For records of
integers this file says exactly when they agree: when every condition decides the
same about the integers that a complete reading would give back.
-/

namespace ZigbeeHost

namespace Layout

/-- Which of the fields are present, given the integers of those before them and
their own. -/
def presence : List Field → (earlier held : List (Option Nat)) → List Bool
  | field :: more, earlier, number :: held =>
      field.isPresent earlier :: presence more (earlier ++ [number]) held
  | _, _, _ => []

/-- The integers that reading gives back if it looks for the fields that were
written: absent fields stay zero, and members of bit runs keep the bits of their
masks. -/
def restored : List Field → (earlier held : List (Option Nat)) → List (Option Nat)
  | field :: more, earlier, number :: held =>
      (if field.isPresent earlier then
        if field.tags.bitMask.isSome then field.memberBits number else number
      else some 0) :: restored more (earlier ++ [number]) held
  | _, _, _ => []

section Appending

variable {later : List Field} {others : List (Option Nat)}

theorem presence_append (fields : List Field) (earlier held : List (Option Nat))
    (same : fields.length = held.length) :
    presence (fields ++ later) earlier (held ++ others) =
      presence fields earlier held ++ presence later (earlier ++ held) others := by
  induction fields generalizing earlier held with
  | nil =>
      obtain rfl := List.eq_nil_of_length_eq_zero same.symm
      simp [presence]
  | cons field more ih =>
      obtain ⟨number, held, rfl⟩ := List.exists_cons_of_length_eq_add_one same.symm
      simp only [List.cons_append, presence, ih (earlier ++ [number]) held (Nat.succ.inj same),
        List.append_assoc, List.nil_append]

theorem restored_append (fields : List Field) (earlier held : List (Option Nat))
    (same : fields.length = held.length) :
    restored (fields ++ later) earlier (held ++ others) =
      restored fields earlier held ++ restored later (earlier ++ held) others := by
  induction fields generalizing earlier held with
  | nil =>
      obtain rfl := List.eq_nil_of_length_eq_zero same.symm
      simp [restored]
  | cons field more ih =>
      obtain ⟨number, held, rfl⟩ := List.exists_cons_of_length_eq_add_one same.symm
      simp only [List.cons_append, restored, ih (earlier ++ [number]) held (Nat.succ.inj same),
        List.append_assoc, List.nil_append]

end Appending

/-- Members of bit runs are always present. -/
theorem presence_of_members {members : List Field}
    (present : ∀ field ∈ members, ∀ earlier, field.isPresent earlier = true)
    (earlier held : List (Option Nat)) (same : members.length = held.length) :
    presence members earlier held = List.replicate members.length true := by
  induction members generalizing earlier held with
  | nil => rfl
  | cons field more ih =>
      obtain ⟨number, held, rfl⟩ := List.exists_cons_of_length_eq_add_one same.symm
      obtain ⟨own, present⟩ := List.forall_mem_cons.1 present
      rw [presence, own, ih present _ _ (Nat.succ.inj same), List.length_cons,
        List.replicate_succ]

theorem restored_of_members {members : List Field}
    (masked : ∀ field ∈ members, field.tags.bitMask.isSome)
    (present : ∀ field ∈ members, ∀ earlier, field.isPresent earlier = true)
    (earlier held : List (Option Nat)) :
    restored members earlier held = List.zipWith Field.memberBits members held := by
  induction members generalizing earlier held with
  | nil => rfl
  | cons field more ih =>
      obtain ⟨own, masked⟩ := List.forall_mem_cons.1 masked
      obtain ⟨here, present⟩ := List.forall_mem_cons.1 present
      cases held with
      | nil => rfl
      | cons number held =>
          rw [restored, here, if_pos rfl, if_pos own, ih masked present, List.zipWith_cons_cons]

theorem present_of_members {members : List Field} {declarations : List Declaration}
    (declares : List.Forall₂ Declares members declarations)
    (masked : ∀ field ∈ members, field.tags.bitMask.isSome) :
    ∀ field ∈ members, ∀ earlier, field.isPresent earlier = true := by
  induction declares with
  | nil => simp
  | cons declared declares ih =>
      obtain ⟨own, masked⟩ := List.forall_mem_cons.1 masked
      obtain ⟨bits, own⟩ := Option.isSome_iff_exists.1 own
      exact List.forall_mem_cons.2
        ⟨Field.isPresent_of_masked declared.suits own, ih masked⟩

/-- Neither the presence of the field nor its integer is lost on the way. -/
def IsPlain (field : Field) : Prop :=
  field.tags.condition = none ∧ field.tags.bitMask = none

/-- The two lists hold an integer for each of the fields, the same one for those
that are plain. -/
structure AgreeOn (before : List Field) (read written : List (Option Nat)) : Prop where
  readLength : read.length = before.length
  writtenLength : written.length = before.length
  plain : ∀ (index : Nat) (target : Field), before[index]? = some target → IsPlain target →
    read[index]? = written[index]?

theorem agreeOn_nil : AgreeOn [] [] [] :=
  ⟨rfl, rfl, fun _ _ _ _ => rfl⟩

theorem AgreeOn.append {before : List Field} {read written : List (Option Nat)}
    (agree : AgreeOn before read written) {field : Field} {one other : Option Nat}
    (same : IsPlain field → one = other) :
    AgreeOn (before ++ [field]) (read ++ [one]) (written ++ [other]) where
  readLength := by simp [agree.readLength]
  writtenLength := by simp [agree.writtenLength]
  plain index target known plain := by
    rcases Nat.lt_or_ge index before.length with inside | beyond
    · rw [List.getElem?_append_left inside] at known
      rw [List.getElem?_append_left (agree.readLength ▸ inside),
        List.getElem?_append_left (agree.writtenLength ▸ inside)]
      exact agree.plain index target known plain
    · rw [List.getElem?_append_right beyond] at known
      rw [List.getElem?_append_right (agree.readLength ▸ beyond),
        List.getElem?_append_right (agree.writtenLength ▸ beyond), agree.readLength,
        agree.writtenLength]
      cases offset : index - before.length with
      | zero =>
          obtain rfl : field = target := by simpa [offset] using known
          simp [same plain]
      | succ position => rfl

/-- The conditions of the fields test plain fields only. -/
def TestPlain (all fields : List Field) : Prop :=
  ∀ field ∈ fields, ∀ condition, field.tags.condition = some condition →
    ∀ target, all[condition.index]? = some target → IsPlain target

theorem AgreeOn.isPresent_eq {before more : List Field} {field : Field}
    {read written : List (Option Nat)} (agree : AgreeOn before read written)
    (tested : TestPlain (before ++ more) [field]) :
    field.isPresent read = field.isPresent written := by
  cases conditional : field.tags.condition with
  | none => simp [Field.isPresent, conditional]
  | some condition =>
      have same : read[condition.index]? = written[condition.index]? := by
        rcases Nat.lt_or_ge condition.index before.length with inside | beyond
        · refine agree.plain _ _ (List.getElem?_eq_getElem inside) ?_
          apply tested field List.mem_cons_self condition conditional
          rw [List.getElem?_append_left inside, List.getElem?_eq_getElem inside]
        · rw [List.getElem?_eq_none (agree.readLength ▸ beyond),
            List.getElem?_eq_none (agree.writtenLength ▸ beyond)]
      simp [Field.isPresent, conditional, same]

/-- Conditions on plain fields decide the same about what is read back. -/
theorem presence_restored {before more : List Field} {read written held : List (Option Nat)}
    (agree : AgreeOn before read written) (tested : TestPlain (before ++ more) more) :
    presence more read (restored more written held) = presence more written held := by
  induction more generalizing before read written held with
  | nil => rfl
  | cons field more ih =>
      cases held with
      | nil => rfl
      | cons number held =>
          obtain ⟨here, later⟩ := List.forall_mem_cons.1 tested
          have own : TestPlain (before ++ field :: more) [field] :=
            List.forall_mem_singleton.2 here
          simp only [presence, restored]
          rw [agree.isPresent_eq own]
          refine congrArg _ (ih (agree.append ?_) (by simpa [TestPlain] using later))
          rintro ⟨unconditional, unmasked⟩
          simp [Field.isPresent, unconditional, unmasked]

end Layout

namespace Fields

/-- Every field is an integer. -/
def Integers : Fields → Prop
  | .nil => True
  | .cons _ type _ rest => (∃ width, type = .uint width) ∧ rest.Integers

theorem integers_append : (first later : Fields) →
    ((first.append later).Integers ↔ first.Integers ∧ later.Integers)
  | .nil, _ => by simp [Integers]
  | .cons _ _ _ rest, later => by simp [Integers, integers_append rest later, and_assoc]

theorem default_append : (first later : Fields) →
    (first.append later).default = first.join later first.default later.default
  | .nil, _ => rfl
  | .cons _ _ _ rest, later => by simp only [Fields.default, join, default_append rest later]

/-- What one unmasked field contributes to writing and to reading, if both agree
whether it is present. -/
theorem step_plain {name : String} {width : Width} {pairs : List (String × String)}
    {rest : Fields} {field : Field} {more : List Field} {written : List (Option Nat)}
    {value : BitVec width.bits} {values : rest.Values} {collected : Nat} {bytes : Bytes}
    (unmasked : field.tags.bitMask = none)
    (encoded : (Fields.cons name (.uint width) pairs rest).encode (field :: more) written
      collected (value, values) = .ok bytes) :
    ∃ (result : BitVec width.bits) (later : Bytes),
      some result.toNat = (if field.isPresent written then some value.toNat else some 0) ∧
      rest.encode more (written ++ [some value.toNat]) collected values = .ok later ∧
      ∀ read word tail, field.isPresent read = field.isPresent written →
        (Fields.cons name (.uint width) pairs rest).decode (field :: more) read word
            (Fields.cons name (.uint width) pairs rest).default (bytes ++ tail) =
          (rest.decode more (read ++ [some result.toNat]) word rest.default
            (later ++ tail)).map (result, ·) := by
  cases present : field.isPresent written with
  | false =>
      rw [encode_of_absent present] at encoded
      refine ⟨BitVec.ofNat width.bits 0, bytes, by simp, encoded, fun read word tail same => ?_⟩
      exact decode_of_absent same
  | true =>
      obtain ⟨first, later, head, remaining, rfl⟩ := encode_plain_cases present unmasked encoded
      refine ⟨value, later, by simp, remaining, fun read word tail same => ?_⟩
      rw [List.append_assoc, Fields.default, decode_of_plain same unmasked,
        WireType.decode_encode_uint head]
      rfl

theorem presence_join_iff {run after : Fields} {members more : List Field}
    {read written : List (Option Nat)} {front values : run.Values} {behind others : after.Values}
    (present : ∀ field ∈ members, ∀ earlier, field.isPresent earlier = true)
    (count : ∀ values : run.Values, members.length = (run.uints values).length) :
    Layout.presence (members ++ more) read
          ((run.append after).uints (run.join after front behind)) =
        Layout.presence (members ++ more) written
          ((run.append after).uints (run.join after values others)) ↔
      Layout.presence more (read ++ run.uints front) (after.uints behind) =
        Layout.presence more (written ++ run.uints values) (after.uints others) := by
  rw [uints_join, uints_join, Layout.presence_append _ _ _ (count front),
    Layout.presence_append _ _ _ (count values),
    Layout.presence_of_members present _ _ (count front),
    Layout.presence_of_members present _ _ (count values), List.append_cancel_left_eq]

/-- There are results with the restored integers, which the reader gives back if it
looks for the fields that were written, and only then. -/
theorem exists_restored {fields : Fields} {more : List Field} (segments : Segments fields more)
    (integers : fields.Integers) {written : List (Option Nat)} {values : fields.Values}
    {collected : Nat} {bytes : Bytes}
    (encoded : fields.encode more written collected values = .ok bytes) :
    ∃ results, fields.uints results = Layout.restored more written (fields.uints values) ∧
      ∀ read word rest,
        (Layout.presence more read (fields.uints results) =
            Layout.presence more written (fields.uints values) →
          fields.decode more read word fields.default (bytes ++ rest) =
            { value := results, rest }) ∧
        ∀ others left,
          fields.decode more read word fields.default (bytes ++ rest) =
              { value := others, rest := left } →
            Layout.presence more read (fields.uints others) =
                Layout.presence more written (fields.uints values) →
              others = results := by
  -- The results depend on the writer only.  Where reader and writer agree on a segment,
  -- the reader gives back its part of them and goes on with the next segment.
  induction segments generalizing written bytes with
  | nil =>
      obtain rfl := Except.ok.inj encoded
      exact ⟨(), rfl, fun _ _ _ => ⟨fun _ => rfl, fun _ _ _ _ => rfl⟩⟩
  | @plain name type pairs fields field more unmasked declared tail ih =>
      obtain ⟨⟨width, rfl⟩, integers⟩ := integers
      obtain ⟨value, values⟩ := values
      obtain ⟨result, later, own, remaining, step⟩ := step_plain unmasked encoded
      obtain ⟨results, shown, agreement⟩ := ih integers remaining
      refine ⟨(result, results), ?_, fun read word rest => ⟨fun same => ?_, ?_⟩⟩
      · simp only [uints, WireType.asUint, Layout.restored, unmasked, own, shown]
        rfl
      · simp only [uints, WireType.asUint, Layout.presence, List.cons.injEq] at same
        rw [step read word rest same.1, (agreement _ word rest).1 same.2]
        rfl
      · rintro ⟨other, others⟩ left decoded same
        simp only [uints, WireType.asUint, Layout.presence, List.cons.injEq] at same
        rw [step read word rest same.1] at decoded
        obtain ⟨inner, behind, pair⟩ := Reading.map_eq_success decoded
        obtain ⟨rfl, rfl⟩ := Prod.mk.inj pair
        rw [(agreement _ word rest).2 inner left behind same.2]
  | @run run after members more width bitRun declares tail ih =>
      have masked := Layout.masked_of_bitRun bitRun
      have present := Layout.present_of_members declares masked
      have count (values : run.Values) : members.length = (run.uints values).length := by
        rw [length_uints, declares.length_eq]
      obtain ⟨-, integers⟩ := (integers_append run after).1 integers
      obtain ⟨values, others, rfl⟩ := exists_join run after values
      obtain ⟨front, later, own, remaining, step⟩ := exists_run_step bitRun declares tail encoded
      obtain ⟨results, shown, agreement⟩ := ih integers remaining
      rw [default_append]
      refine ⟨run.join after front results, ?_, fun read word rest => ⟨fun same => ?_, ?_⟩⟩
      · rw [uints_join, uints_join, Layout.restored_append _ _ _ (count values),
          Layout.restored_of_members masked present, own, shown]
      · rw [presence_join_iff present count] at same
        rw [step, (agreement _ word rest).1 same]
        rfl
      · intro other left decoded same
        rw [step] at decoded
        obtain ⟨inner, behind, rfl⟩ := Reading.map_eq_success decoded
        rw [presence_join_iff present count] at same
        rw [(agreement _ word rest).2 inner left behind same]

section Record

variable {record : String} {fields : Fields} {layout : Layout} {values : fields.Values}
variable {bytes : Bytes}

/-- If the conditions of a layout test plain fields only, the reader finds exactly
the fields that were written and uses up their bytes. -/
theorem exists_ofPayload_of_testPlain (integers : fields.Integers)
    (parsed : fields.layout record = .ok layout)
    (tested : Layout.TestPlain layout.fields layout.fields)
    (encoded : (WireType.record record fields none).toPayload values = .ok bytes) :
    ∃ results, (WireType.record record fields none).ofPayload fields.default bytes =
        { value := results, rest := [] } ∧
      Layout.presence layout.fields [] (fields.uints results) =
        Layout.presence layout.fields [] (fields.uints values) := by
  have segments := segments_of_layout parsed
  simp only [WireType.toPayload, WireType.encode, parsed, Layout.transferred] at encoded
  simp only [WireType.ofPayload, WireType.decode, parsed, Layout.transferred]
  obtain ⟨results, shown, agreement⟩ := exists_restored segments integers encoded
  have same : Layout.presence layout.fields [] (fields.uints results) =
      Layout.presence layout.fields [] (fields.uints values) := by
    rw [shown]
    exact Layout.presence_restored Layout.agreeOn_nil tested
  have read := (agreement [] 0 []).1 same
  rw [List.append_nil] at read
  exact ⟨results, read, same⟩

/-- The reader finds exactly the fields that were written, and uses up their bytes,
if and only if every condition decides the same about the restored integers as about
those that were written. -/
theorem exists_ofPayload_iff_presence_restored (integers : fields.Integers)
    (parsed : fields.layout record = .ok layout)
    (encoded : (WireType.record record fields none).toPayload values = .ok bytes) :
    (∃ results, (WireType.record record fields none).ofPayload fields.default bytes =
          { value := results, rest := [] } ∧
        Layout.presence layout.fields [] (fields.uints results) =
          Layout.presence layout.fields [] (fields.uints values)) ↔
      Layout.presence layout.fields [] (Layout.restored layout.fields [] (fields.uints values)) =
        Layout.presence layout.fields [] (fields.uints values) := by
  have segments := segments_of_layout parsed
  simp only [WireType.toPayload, WireType.encode, parsed, Layout.transferred] at encoded
  simp only [WireType.ofPayload, WireType.decode, parsed, Layout.transferred]
  obtain ⟨results, shown, agreement⟩ := exists_restored segments integers encoded
  have here := agreement [] 0 []
  rw [List.append_nil] at here
  constructor
  · rintro ⟨others, read, same⟩
    obtain rfl := here.2 others [] read same
    rwa [shown] at same
  · intro same
    rw [← shown] at same
    exact ⟨results, here.1 same, same⟩

/-- A condition on the low bits of a word that keep what they were given. -/
theorem exists_ofPayload_of_tested_member :
    let fields : Fields := .ofList
      [("low", .uint .one, [("bitmask", "start"), ("bits", "0x0f")]),
        ("high", .uint .one, [("bitmask", "end"), ("bits", "0xf0")]),
        ("extra", .uint .one, [("cond", "low==3")])]
    let type : WireType := .record "Flags" fields none
    ∃ layout, fields.layout "Flags" = .ok layout ∧
      type.toPayload (0x03, 0x01, 0x09, ()) = .ok [0x13, 0x09] ∧
        ∃ results, type.ofPayload type.default [0x13, 0x09] = { value := results, rest := [] } ∧
          Layout.presence layout.fields [] (fields.uints results) = [true, true, true] := by
  intro fields type
  obtain ⟨layout, parsed⟩ : ∃ layout, fields.layout "Flags" = .ok layout := ⟨_, rfl⟩
  have integers : fields.Integers := ⟨⟨_, rfl⟩, ⟨_, rfl⟩, ⟨_, rfl⟩, trivial⟩
  have encoded : type.toPayload (0x03, 0x01, 0x09, ()) = .ok [0x13, 0x09] := by
    decide +kernel
  refine ⟨layout, parsed, encoded, ?_⟩
  obtain rfl := Except.ok.inj parsed
  exact (exists_ofPayload_iff_presence_restored integers parsed encoded).2 rfl

/-- The writer tests the integer that was given, and leaves a field out; the reader
tests the bits that fit the mask, and looks for the field. -/
theorem not_exists_ofPayload_of_truncated_target :
    let fields : Fields := .ofList
      [("low", .uint .one, [("bitmask", "start"), ("bits", "0x0f")]),
        ("high", .uint .one, [("bitmask", "end"), ("bits", "0xf0")]),
        ("extra", .uint .one, [("cond", "low==3")])]
    let type : WireType := .record "Flags" fields none
    type.toPayload (0x13, 0x00, 0x09, ()) = .ok [0x03] ∧
      type.ofPayload type.default [0x03] =
        { value := (0x03, 0x00, 0x00, ()), rest := [],
          error := some (.decode (.unexpectedEnd 1 0)) } ∧
        ¬ ∃ results, type.ofPayload type.default [0x03] = { value := results, rest := [] } := by
  intro fields type
  have read : type.ofPayload type.default [0x03] =
      { value := (0x03, 0x00, 0x00, ()), rest := [],
        error := some (.decode (.unexpectedEnd 1 0)) } := rfl
  refine ⟨by decide +kernel, read, ?_⟩
  rintro ⟨results, succeeded⟩
  rw [read] at succeeded
  cases congrArg Reading.error succeeded

-- The writer tests a field that it has left out itself, and writes the next one; the
-- reader finds zero in its place, and leaves the next one unread.
example :
    let type : WireType := .record "Chain" (.ofList
      [("mode", .uint .one, []), ("first", .uint .one, [("cond", "mode==1")]),
        ("second", .uint .one, [("cond", "first==5")])]) none
    type.toPayload (0x00, 0x05, 0x07, ()) = .ok [0x00, 0x07] ∧
      type.ofPayload type.default [0x00, 0x07] =
        { value := (0x00, 0x00, 0x00, ()), rest := [0x07] } :=
  ⟨by decide +kernel, rfl⟩

end Record

end Fields

end ZigbeeHost
