import ZigbeeHost.Proofs.Layout.WellFormed
import ZigbeeHost.Proofs.Payload.RoundTrip
import ZigbeeHost.Proofs.Payload.Segments

/-!
# The members of a bit run

A bit run is written as one word.  The word is the same whatever stands around
the run, and it gives each member the bits of its own integer that the member's
mask can hold: a value too large for its mask loses its high bits and reaches no
neighbour.  The proof collects the word on the way into the run and reads the
members from it on the way out, since the reader knows from the start the word
that the writer has only at the end.
-/

namespace ZigbeeHost

/-- An empty member is read back as zero. -/
theorem Field.memberBits_none (field : Field) :
    field.memberBits none = field.tags.bitMask.map fun _ => 0 := by
  simp [memberBits]

namespace WireType

theorem getD_asUint_lt {width : Width} : (type : WireType) →
    type.shape.uintWidth? = some width → (value : type.Value) →
      (type.asUint value).getD 0 < 2 ^ width.bits
  | .uint own, integer, value => by
      obtain rfl : own = width := by
        simpa [WireType.shape, Shape.uintWidth?, Shape.base] using integer
      exact value.isLt
  | .optional inner, integer, value => by
      cases value with
      | none => exact Nat.two_pow_pos _
      | some held => exact getD_asUint_lt inner integer held
  | .text, _, _ | .unit, _, _ | .list _, _, _ | .array _ _, _, _ => Nat.two_pow_pos _
  | .record _ _ _, _, _ | .variant _ _ _ _, _, _ => Nat.two_pow_pos _

/-- An integer field is determined by the integer that it holds. -/
theorem eq_of_asUint_eq : (type : WireType) → (value other : type.Value) → (number : Nat) →
    type.asUint value = some number → type.asUint other = some number → value = other
  | .uint _, value, other, number, one, two => by
      apply BitVec.eq_of_toNat_eq
      exact (Option.some.inj one).trans (Option.some.inj two).symm
  | .optional inner, value, other, number, one, two => by
      obtain ⟨held, rfl, one⟩ := Option.bind_eq_some_iff.1 one
      obtain ⟨held', rfl, two⟩ := Option.bind_eq_some_iff.1 two
      rw [eq_of_asUint_eq inner held held' number one two]

/-- What a member reads from the finished word does not depend on what it held
before. -/
theorem exists_setUint {type : WireType} {field : Field} {declaration : Declaration}
    {bits : BitMask} (member : Layout.IsMember field bits)
    (declared : Layout.Declares field declaration) (shape : declaration.shape = type.shape)
    {value : type.Value} {word : Nat}
    (extracted : bits.extract word =
      (type.asUint value).getD 0 &&& (bits.mask >>> bits.shift)) :
    ∃ result, type.asUint result = field.memberBits (type.asUint value) ∧
      ∀ before, (type.setUint before (bits.extract word)).2 = result := by
  obtain ⟨width, integer⟩ := Option.isSome_iff_exists.1 member.integer
  rw [declared.shape, shape] at integer
  have small : bits.extract word < 2 ^ width.bits := by
    rw [extracted]
    exact Nat.and_le_left.trans_lt (getD_asUint_lt type integer value)
  have stored (before : type.Value) :
      type.asUint (type.setUint before (bits.extract word)).2 = some (bits.extract word) := by
    rw [asUint_setUint type integer, Nat.mod_eq_of_lt small]
  refine ⟨(type.setUint value (bits.extract word)).2, ?_, ?_⟩
  · rw [stored, Field.memberBits, member.mask, Option.map_some, extracted]
  · intro before
    exact eq_of_asUint_eq type _ _ _ (stored before) (stored value)

end WireType

namespace Fields

/-- The rest of a run adds its bits to those collected before and is read from
the finished word. -/
theorem exists_word_of_runTail {container : Layout.Container} {members : List Field}
    (closes : Layout.RunTail container members) {run : Fields}
    (declares : List.Forall₂ Layout.Declares members run.declarations) (values : run.Values)
    {collected : Nat} (within : collected &&& container.used = collected) :
    ∃ word, word < 2 ^ container.width.bits ∧ word &&& container.used = collected ∧
      (∀ earlier, run.encode members earlier collected values =
        .ok (container.order.write container.width.bytes word)) ∧
      ∃ results,
        run.uints results = List.zipWith Field.memberBits members (run.uints values) ∧
          ∀ earlier destination payload, run.decode members earlier word destination payload =
            { value := results, rest := payload } := by
  induction closes generalizing run collected with
  | @last field bits container member role disjoint width runWidth runOrder fits =>
      cases run with
      | nil => cases declares
      | cons name type pairs rest =>
          obtain ⟨declared, declares⟩ := List.forall₂_cons.1 declares
          cases rest with
          | cons => cases declares
          | nil =>
              obtain ⟨value, values⟩ := values
              have present := Field.isPresent_of_masked declared.suits member.mask
              have finished : bits.insert collected ((type.asUint value).getD 0) &&&
                  (container.used ||| bits.mask) =
                    bits.insert collected ((type.asUint value).getD 0) :=
                BitMask.insert_within within
              -- Layouts are accepted only if the masks of a run fit its container.
              have small : bits.insert collected ((type.asUint value).getD 0) ≤
                  container.used ||| bits.mask := by
                rw [← finished]
                exact Nat.and_le_right
              obtain ⟨result, shown, stored⟩ := WireType.exists_setUint member declared rfl
                (BitMask.extract_of_insert within disjoint finished)
              refine ⟨_, Width.le_maxValue_iff.1 (small.trans fits),
                BitMask.and_used_of_insert within disjoint finished, ?_, (result, ()), ?_, ?_⟩
              · intro earlier
                rw [encode_of_last (present earlier) member.mask role,
                  Field.containerBytes_of_runWidth runWidth, runOrder]
                simp [Fields.encode, Except.map]
              · simp [uints, shown]
              · intro earlier destination payload
                rw [decode_of_inside (present earlier) member.mask (by simp [role]), stored]
                rfl
  | @middle field more bits container member role disjoint tail ih =>
      cases run with
      | nil => cases declares
      | cons name type pairs rest =>
          obtain ⟨declared, declares⟩ := List.forall₂_cons.1 declares
          obtain ⟨value, values⟩ := values
          have present := Field.isPresent_of_masked declared.suits member.mask
          have inside : bits.insert collected ((type.asUint value).getD 0) &&&
              (container.claim bits.mask).used =
                bits.insert collected ((type.asUint value).getD 0) :=
            BitMask.insert_within within
          obtain ⟨word, fits, finished, written, results, shown, read⟩ :=
            ih declares values inside
          obtain ⟨result, own, stored⟩ := WireType.exists_setUint member declared rfl
            (BitMask.extract_of_insert within disjoint finished)
          refine ⟨word, fits, BitMask.and_used_of_insert within disjoint finished, ?_,
            (result, results), ?_, ?_⟩
          · intro earlier
            rw [encode_of_middle (present earlier) member.mask role, written]
            rfl
          · simp [uints, own, shown]
          · intro earlier destination payload
            obtain ⟨before, others⟩ := destination
            rw [decode_of_inside (present earlier) member.mask (by simp [role]), stored, read]
            rfl

/-- The values of a run are written as one word, and reading the word gives the
results, wherever the run stands. -/
structure Packs (run : Fields) (members : List Field) (values results : run.Values)
    (word : Bytes) : Prop where
  shown : run.uints results = List.zipWith Field.memberBits members (run.uints values)
  written : ∀ earlier container, run.encode members earlier container values = .ok word
  read : ∀ earlier container destination rest,
    run.decode members earlier container destination (word ++ rest) = { value := results, rest }

/-- A complete run is written as one word of its container's width. -/
theorem exists_packs {width : Width} {members : List Field}
    (bitRun : Layout.BitRun width members) {run : Fields}
    (declares : List.Forall₂ Layout.Declares members run.declarations) (values : run.Values) :
    ∃ word results, word.length = width.bytes ∧ Packs run members values results word := by
  cases bitRun with
  | @first field more bits width order member role runWidth runOrder closes =>
      cases run with
      | nil => cases declares
      | cons name type pairs rest =>
          obtain ⟨declared, declares⟩ := List.forall₂_cons.1 declares
          obtain ⟨value, values⟩ := values
          have present := Field.isPresent_of_masked declared.suits member.mask
          have within : bits.insert 0 ((type.asUint value).getD 0) &&& (0 ||| bits.mask) =
              bits.insert 0 ((type.asUint value).getD 0) :=
            BitMask.insert_within (Nat.zero_and 0)
          rw [Nat.zero_or] at within
          obtain ⟨word, fits, finished, written, results, shown, read⟩ :=
            exists_word_of_runTail closes declares values within
          have finished : word &&& (0 ||| bits.mask) =
              bits.insert 0 ((type.asUint value).getD 0) := by
            rw [Nat.zero_or]
            exact finished
          obtain ⟨result, own, stored⟩ := WireType.exists_setUint member declared rfl
            (BitMask.extract_of_insert (Nat.zero_and 0) (Nat.zero_and _) finished)
          refine ⟨order.write width.bytes word, (result, results),
            ByteOrder.length_write order width.bytes word, ?_⟩
          exact
            { shown := by simp [uints, own, shown]
              written := fun earlier container => by
                rw [encode_of_first (present earlier) member.mask role, written]
              read := fun earlier container destination rest => by
                obtain ⟨before, others⟩ := destination
                have taken : field.runOrder.take field.containerBytes
                    (order.write width.bytes word ++ rest) = .ok (word, rest) := by
                  rw [Field.containerBytes_of_runWidth runWidth, runOrder]
                  apply ByteOrder.take_write
                  rwa [← Width.two_pow_bits]
                rw [decode_of_first (present earlier) member.mask role taken, stored, read]
                rfl }

/-- What a bit run contributes to writing and to reading the fields from it on. -/
theorem exists_run_step {width : Width} {members more : List Field} {run after : Fields}
    (bitRun : Layout.BitRun width members)
    (declares : List.Forall₂ Layout.Declares members run.declarations)
    (segments : Segments after more) {values : run.Values} {others : after.Values}
    {written : List (Option Nat)} {collected : Nat} {bytes : Bytes}
    (encoded : (run.append after).encode (members ++ more) written collected
      (run.join after values others) = .ok bytes) :
    ∃ results later,
      run.uints results = List.zipWith Field.memberBits members (run.uints values) ∧
      after.encode more (written ++ run.uints values) collected others = .ok later ∧
      ∀ read word destination behind rest,
        (run.append after).decode (members ++ more) read word
            (run.join after destination behind) (bytes ++ rest) =
          (after.decode more (read ++ run.uints results) word behind (later ++ rest)).map
            (run.join after results) := by
  have same := declares.length_eq
  obtain ⟨word, results, -, packs⟩ := exists_packs bitRun declares values
  rw [encode_append segments others collected run members same, packs.written] at encoded
  obtain ⟨later, remaining, rfl⟩ := map_eq_ok encoded
  refine ⟨results, later, packs.shown, remaining, ?_⟩
  intro read container destination behind rest
  rw [decode_append segments behind container run members same, List.append_assoc, packs.read]
  rfl

end Fields

namespace Layout

theorem exists_runs_of_append {opened : Option Container} {earlier rest : List Field}
    (runs : Runs opened (earlier ++ rest)) : ∃ opened, Runs opened rest := by
  induction earlier generalizing opened with
  | nil => exact ⟨opened, runs⟩
  | cons field earlier ih => cases runs with
    | plain _ tail | first _ _ _ _ tail | middle _ _ _ tail | last _ _ _ _ _ _ _ _ tail =>
        exact ih tail

theorem role_of_member {field : Field} {bits : BitMask} {role : RunRole}
    (member : IsMember field bits) (known : field.role? = some role) : bits.role = role := by
  rw [role?_of_mask member.mask] at known
  exact Option.some.inj known

theorem unmasked_of_role? {field : Field} {role : RunRole}
    (known : field.role? = some role) : field.tags.bitMask ≠ none := by
  intro unmasked
  simp [Field.role?, unmasked] at known

/-- The fields up to the next last member close an open run, whose container has
that member's width. -/
theorem runTail_of_roles {container : Container} {middle later : List Field} {last : Field}
    (runs : Runs (some container) (middle ++ [last] ++ later))
    (continues : ∀ field ∈ middle, field.role? = some .middle)
    (closes : last.role? = some .last) :
    RunTail container (middle ++ [last]) ∧ last.shape.uintWidth? = some container.width ∧
      Runs none later := by
  induction middle generalizing container with
  | nil =>
      cases runs with
      | middle member role => simp [role_of_member member closes] at role
      | last member role disjoint width order runWidth runOrder fits tail =>
          exact ⟨.last member role disjoint width runWidth runOrder fits, width, tail⟩
  | cons field middle ih =>
      obtain ⟨continued, continues⟩ := List.forall_mem_cons.1 continues
      cases runs with
      | last member role => simp [role_of_member member continued] at role
      | middle member role disjoint tail =>
          obtain ⟨tail, width, runs⟩ := ih tail continues
          exact ⟨.middle member role disjoint tail, width, runs⟩

/-- Fields of a checked layout from a first member up to the next last one are a
complete run in a container of the last one's width. -/
theorem bitRun_of_roles {opened : Option Container} {middle later : List Field}
    {first last : Field} (runs : Runs opened (first :: (middle ++ [last]) ++ later))
    (opens : first.role? = some .first)
    (continues : ∀ field ∈ middle, field.role? = some .middle)
    (closes : last.role? = some .last) :
    ∃ width, BitRun width (first :: (middle ++ [last])) ∧
      last.shape.uintWidth? = some width ∧ Runs none later := by
  cases runs with
  | plain unmasked => exact absurd unmasked (unmasked_of_role? opens)
  | middle member role => simp [role_of_member member opens] at role
  | last member role => simp [role_of_member member opens] at role
  | first member role runWidth runOrder tail =>
      obtain ⟨tail, container, runs⟩ := runTail_of_roles tail continues closes
      exact ⟨_, .first member role runWidth runOrder tail, container, runs⟩

end Layout

namespace Fields

section Record

variable {record : String} {layout : Layout} {before run after : Fields}
variable {earlier middle later : List Field} {first last : Field}

/-- A run anywhere in a checked record is complete, and segments follow it. -/
theorem bitRun_of_layout
    (parsed : (before.append (run.append after)).layout record = .ok layout)
    (parts : layout.fields = earlier ++ (first :: (middle ++ [last]) ++ later))
    (front : earlier.length = before.declarations.length)
    (back : later.length = after.declarations.length)
    (opens : first.role? = some .first)
    (continues : ∀ field ∈ middle, field.role? = some .middle)
    (closes : last.role? = some .last) :
    ∃ width, Layout.BitRun width (first :: (middle ++ [last])) ∧
      last.shape.uintWidth? = some width ∧
        List.Forall₂ Layout.Declares (first :: (middle ++ [last])) run.declarations ∧
          Segments after later := by
  obtain ⟨opened, runs⟩ :=
    Layout.exists_runs_of_append (parts ▸ Layout.runs_of_parse parsed)
  obtain ⟨width, bitRun, container, tail⟩ :=
    Layout.bitRun_of_roles runs opens continues closes
  have declares := Layout.declares_of_parse parsed
  rw [parts] at declares
  obtain ⟨-, rest⟩ := declares_append front declares
  have inside : (first :: (middle ++ [last])).length = run.declarations.length := by
    have same := rest.length_eq
    rw [declarations_append, List.length_append, List.length_append] at same
    omega
  obtain ⟨members, behind⟩ := declares_append inside rest
  exact ⟨width, bitRun, container, members, segments_of_runs tail behind⟩

/-- The members of a bit run do not interfere.  Whatever they hold, the run is
written as one word of its last member's width, between the bytes of the fields
before and behind.  Read from there, each member gets the bits of its own integer
that its shifted mask can hold, and one that was empty gets zero. -/
theorem members_keep_own_bits
    (parsed : (before.append (run.append after)).layout record = .ok layout)
    (parts : layout.fields = earlier ++ (first :: (middle ++ [last]) ++ later))
    (front : earlier.length = before.declarations.length)
    (back : later.length = after.declarations.length)
    (opens : first.role? = some .first)
    (continues : ∀ field ∈ middle, field.role? = some .middle)
    (closes : last.role? = some .last) (values : run.Values) :
    ∃ (width : Width) (word : Bytes) (results : run.Values),
      last.shape.uintWidth? = some width ∧ word.length = width.bytes ∧
      run.uints results =
        List.zipWith Field.memberBits (first :: (middle ++ [last])) (run.uints values) ∧
      (∀ tags ahead behind,
        (WireType.record record (before.append (run.append after)) none).encode tags
            (before.join _ ahead (run.join after values behind)) =
          (before.encode earlier [] 0 ahead).bind fun front =>
            (after.encode later (before.uints ahead ++ run.uints values) 0 behind).map
              fun back => front ++ (word ++ back)) ∧
      ∀ tags ahead own behind payload front rest,
        before.decode earlier [] 0 ahead payload = { value := front, rest := word ++ rest } →
          (WireType.record record (before.append (run.append after)) none).decode tags
              (before.join _ ahead (run.join after own behind)) payload =
            (after.decode later (before.uints front ++ run.uints results) 0 behind rest).map
              fun back => before.join _ front (run.join after results back) := by
  obtain ⟨width, bitRun, container, declares, segments⟩ :=
    bitRun_of_layout parsed parts front back opens continues closes
  obtain ⟨word, results, length, packs⟩ := exists_packs bitRun declares values
  have whole := Segments.run bitRun declares segments
  have same := declares.length_eq
  refine ⟨width, word, results, container, length, packs.shown, ?_, ?_⟩
  · intro tags ahead behind
    simp only [WireType.encode, parsed, Layout.transferred, parts]
    rw [encode_append whole _ 0 before earlier front]
    simp only [encode_append segments behind 0 run _ same, packs.written, List.nil_append,
      Except.bind, map_map]
  · intro tags ahead own behind payload front' rest read
    simp only [WireType.decode, parsed, Layout.transferred, parts]
    rw [decode_append whole _ 0 before earlier front, read]
    simp only [Reading.andThen, decode_append segments behind 0 run _ same, packs.read,
      List.nil_append]
    rfl

/-- Three members of different widths in a big-endian word: the first is too large
for its mask, which has a gap, and the second is empty. -/
theorem members_keep_own_bits_of_mixed_run :
    let before : Fields := .ofList [("mode", .uint .one, [])]
    let run : Fields := .ofList
      [("low", .uint .one, [("bitmask", "start"), ("bits", "0x0005")]),
        ("middle", .optional (.uint .four), [("bitmask", "middle"), ("bits", "0x00f0")]),
        ("high", .uint .two, [("bitmask", "end"), ("bits", "0x0f0a"), ("endianness", "be")])]
    let after : Fields := .ofList [("count", .uint .one, [])]
    let type : WireType := .record "Report" (before.append (run.append after)) none
    let payload : Bytes := [7, 2, 5, 9]
    type.toPayload (7, 0xff, none, 0x0100, 9, ()) = .ok payload ∧
      ∃ results, run.uints results = [some 5, some 0, some 0x0100] ∧
        type.ofPayload type.default payload =
          { value := before.join _ (7, ()) (run.join after results (9, ())), rest := [] } := by
  intro before run after type payload
  obtain ⟨layout, parsed⟩ : ∃ layout, (before.append (run.append after)).layout "Report" =
      .ok layout := ⟨_, rfl⟩
  obtain rfl := Except.ok.inj parsed
  obtain ⟨width, word, results, -, -, shown, written, read⟩ :=
    @members_keep_own_bits "Report" _ before run after [_] [_] [_] _ _ parsed rfl rfl rfl rfl
      (by decide) rfl (0xff, none, 0x0100, ())
  have encoded : type.toPayload (7, 0xff, none, 0x0100, 9, ()) = .ok payload := by
    decide +kernel
  have same : payload = 7 :: (word ++ [9]) :=
    Except.ok.inj (encoded.symm.trans (written payloadTags (7, ()) (9, ())))
  obtain rfl : [2, 5] = word := List.append_cancel_right (List.cons.inj same).2
  exact ⟨encoded, results, shown,
    read payloadTags (0, ()) run.default (0, ()) payload (7, ()) [9] rfl⟩

end Record

end Fields

end ZigbeeHost
