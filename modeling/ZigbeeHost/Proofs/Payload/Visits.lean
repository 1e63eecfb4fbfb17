import ZigbeeHost.Proofs.Layout.Containers
import ZigbeeHost.Proofs.Payload.Elements
import ZigbeeHost.Proofs.Payload.Segments

/-!
# What the codec looks at, field by field

Writing and reading a record look at three things that only a checked layout puts in
place: the container of a run, which would be taken for one byte if it were missing;
the word of the run, whose bits must fit in that container; and the integer that a
condition tests, which must have been visited before.  Here the visits of a whole
record are listed, and each of them is shown to find what it looks for, whatever the
values or the payload are.
-/

namespace ZigbeeHost

/-- One field as the codec comes to it. -/
structure Visit where
  field : Field
  /-- The integers of the fields that have been visited. -/
  earlier : List (Option Nat)
  /-- The word of the run that is open behind the field. -/
  word : Nat
  /-- What is written or read for the field. -/
  bytes : Bytes

namespace Visit

/-- A condition tests a field that has been visited. -/
def LooksBack (visit : Visit) : Prop :=
  ∀ condition, visit.field.tags.condition = some condition →
    condition.index < visit.earlier.length

/-- The last field of a run knows the container, in which the whole word is written. -/
def ClosesRun (visit : Visit) : Prop :=
  visit.field.role? = some .last →
    ∃ width, visit.field.runWidth = some width ∧ visit.word < 2 ^ width.bits ∧
      visit.bytes = visit.field.runOrder.write width.bytes visit.word

/-- The first field of a run knows the container, which is read there as a whole or is
cut off. -/
def OpensRun (visit : Visit) (error : Option PayloadError) : Prop :=
  visit.field.role? = some .first →
    ∃ width, visit.field.runWidth = some width ∧
      (visit.bytes.length = width.bytes ∧ visit.field.runOrder.read visit.bytes = visit.word ∨
        ∃ available, error = some (.decode (.unexpectedEnd width.bytes available)))

/-- If the container has been read, it does not matter what becomes of the record. -/
theorem OpensRun.of_success {visit : Visit} (opens : visit.OpensRun none)
    (error : Option PayloadError) : visit.OpensRun error := by
  intro first
  obtain ⟨width, known, read | ⟨available, missing⟩⟩ := opens first
  · exact ⟨width, known, .inl read⟩
  · cases missing

end Visit

namespace Fields

/-- The fields that writing comes to, up to the first that cannot be written. -/
def writes : (fields : Fields) → List Field → List (Option Nat) → Nat → fields.Values → List Visit
  | .nil, _, _, _, _ => []
  | .cons _ _ _ _, [], _, _, _ => []
  | .cons _ type _ rest, field :: more, earlier, container, (value, values) =>
      match field.write earlier container type value with
      | .error _ => [{ field, earlier, word := container, bytes := [] }]
      | .ok (word, bytes) =>
          { field, earlier, word, bytes } ::
            rest.writes more (earlier ++ [type.asUint value]) word values

/-- The fields that reading comes to, up to the first that cannot be read. -/
def reads : (fields : Fields) → List Field → List (Option Nat) → Nat → fields.Values → Bytes →
    List Visit
  | .nil, _, _, _, _, _ => []
  | .cons _ _ _ _, [], _, _, _, _ => []
  | .cons _ type _ rest, field :: more, earlier, container, (value, values), payload =>
      let reading := field.read earlier container type value payload
      let visit : Visit :=
        { field, earlier, word := reading.value.1, bytes := consumed payload reading.rest }
      match reading.error with
      | some _ => [visit]
      | none =>
          visit :: rest.reads more (earlier ++ [type.asUint reading.value.2]) reading.value.1 values
            reading.rest

section Writing

variable {field : Field} {more : List Field} {container : Nat} {bits : BitMask}

/-- The bytes of a record are those of its visits. -/
theorem bytes_of_encode : (fields : Fields) → (more : List Field) →
    (earlier : List (Option Nat)) → (container : Nat) → (values : fields.Values) →
    {bytes : Bytes} → fields.encode more earlier container values = .ok bytes →
      bytes = (fields.writes more earlier container values).flatMap Visit.bytes
  | .nil, _, _, _, _, _, encoded => (Except.ok.inj encoded).symm
  | .cons _ _ _ _, [], _, _, _, _, encoded => (Except.ok.inj encoded).symm
  | .cons _ type _ rest, field :: more, earlier, container, (value, values), bytes, encoded => by
      rw [encode_cons] at encoded
      simp only [writes]
      cases outcome : field.write earlier container type value with
      | error error =>
          rw [outcome] at encoded
          cases encoded
      | ok written =>
          rw [outcome] at encoded
          obtain ⟨others, tail, rfl⟩ := map_eq_ok encoded
          rw [List.flatMap_cons, bytes_of_encode rest more _ _ values tail]

/-- The fields are visited in order, each with the integers of those before it. -/
theorem writes_getElem? : (fields : Fields) → (more : List Field) →
    (earlier : List (Option Nat)) → (container : Nat) → (values : fields.Values) →
    {index : Nat} → {visit : Visit} →
    (fields.writes more earlier container values)[index]? = some visit →
      more[index]? = some visit.field ∧ index < (fields.uints values).length ∧
        visit.earlier = earlier ++ (fields.uints values).take index
  | .nil, _, _, _, _, _, _, known => by cases known
  | .cons _ _ _ _, [], _, _, _, _, _, known => by cases known
  | .cons _ type _ rest, field :: more, earlier, container, (value, values), index, visit,
      known => by
      simp only [writes] at known
      split at known
      · cases index with
        | zero =>
            obtain rfl := Option.some.inj known
            simp [uints]
        | succ index => cases known
      · cases index with
        | zero =>
            obtain rfl := Option.some.inj known
            simp [uints]
        | succ index =>
            obtain ⟨visited, inside, before⟩ := writes_getElem? rest more _ _ values known
            exact ⟨visited, Nat.succ_lt_succ inside, by simpa [uints] using before⟩

/-- What may be in the word of the run that is open: bits that its members have claimed. -/
def HoldsClaimed (opened : Option Layout.Container) (word : Nat) : Prop :=
  ∀ run, opened = some run → word &&& run.used = word

theorem tail_of_plain {opened : Option Layout.Container}
    (runs : Layout.Runs opened (field :: more)) (unmasked : field.tags.bitMask = none) :
    opened = none ∧ Layout.Runs none more := by
  cases runs with
  | plain _ tail => exact ⟨rfl, tail⟩
  | first member | middle member | last member =>
      have masked := member.mask
      simp [unmasked] at masked

/-- A member adds bits of its own mask to the word, so that the word of a run that
closes fits in the container. -/
theorem exists_tail_of_masked {opened : Option Layout.Container}
    (runs : Layout.Runs opened (field :: more)) (masked : field.tags.bitMask = some bits)
    (holds : HoldsClaimed opened container) (number : Nat) :
    let word := bits.insert (if bits.role = .first then 0 else container) number
    ∃ next, Layout.Runs next more ∧ HoldsClaimed next word ∧
      (bits.role = .last → ∃ width, field.runWidth = some width ∧ word < 2 ^ width.bits) := by
  intro word
  cases runs with
  | plain unmasked tail => simp [unmasked] at masked
  | @first _ _ own _ _ member role runWidth runOrder tail =>
      obtain rfl : own = bits := Option.some.inj (member.mask.symm.trans masked)
      refine ⟨_, tail, ?_, fun last => by simp [role] at last⟩
      rintro run ⟨⟩
      have within : own.insert 0 number &&& (0 ||| own.mask) = own.insert 0 number :=
        BitMask.insert_within (Nat.and_zero 0)
      simpa [word, role] using within
  | @middle _ _ own run member role disjoint tail =>
      obtain rfl : own = bits := Option.some.inj (member.mask.symm.trans masked)
      refine ⟨_, tail, ?_, fun last => by simp [role] at last⟩
      rintro _ ⟨⟩
      simpa [word, role, Layout.Container.claim] using BitMask.insert_within (holds run rfl)
  | @last _ _ own run member role disjoint width order runWidth runOrder fits tail =>
      obtain rfl : own = bits := Option.some.inj (member.mask.symm.trans masked)
      have closed : HoldsClaimed none word := fun _ opened => by cases opened
      refine ⟨none, tail, closed, fun _ => ⟨run.width, runWidth, ?_⟩⟩
      have within : word &&& (run.used ||| own.mask) = word := by
        simpa [word, role] using BitMask.insert_within (holds run rfl)
      refine Width.le_maxValue_iff.1 (Nat.le_trans ?_ fits)
      rw [← within]
      exact Nat.and_le_right

theorem closesRun_of_writes : (fields : Fields) → (more later : List Field) →
    {opened : Option Layout.Container} → Layout.Runs opened (more ++ later) →
    (∀ field ∈ more, Layout.Suits field.shape field.tags) →
    (earlier : List (Option Nat)) → {container : Nat} → HoldsClaimed opened container →
    (values : fields.Values) →
      ∀ visit ∈ fields.writes more earlier container values, visit.ClosesRun
  | .nil, _, _, _, _, _, _, _, _, _, _, inside => by cases inside
  | .cons _ _ _ _, [], _, _, _, _, _, _, _, _, _, inside => by cases inside
  | .cons _ type _ rest, field :: more, later, opened, runs, suits, earlier, container, holds,
      (value, values), visit, inside => by
      obtain ⟨own, suits⟩ := List.forall_mem_cons.1 suits
      simp only [writes] at inside
      cases masked : field.tags.bitMask with
      | none =>
          have plain : field.role? ≠ some .last := by simp [Field.role?, masked]
          obtain ⟨rfl, tail⟩ := tail_of_plain runs masked
          split at inside
          · obtain rfl := List.mem_singleton.1 inside
            exact fun last => absurd last plain
          · rename_i word bytes written
            obtain rfl := Field.word_of_write_plain masked written
            rcases List.mem_cons.1 inside with rfl | inside
            · exact fun last => absurd last plain
            · exact closesRun_of_writes rest more later tail suits _ holds values visit inside
      | some bits =>
          have present := Field.isPresent_of_masked own masked earlier
          obtain ⟨next, tail, claimed, closed⟩ :=
            exists_tail_of_masked runs masked holds ((type.asUint value).getD 0)
          rw [Field.write_of_masked present masked] at inside
          rcases List.mem_cons.1 inside with rfl | inside
          · intro last
            have role : bits.role = .last := by simpa [Field.role?, masked] using last
            obtain ⟨width, known, small⟩ := closed role
            refine ⟨width, known, small, ?_⟩
            simp only [role, if_true, Field.containerBytes_of_runWidth known]
          · exact closesRun_of_writes rest more later tail suits _ claimed values visit inside

end Writing

section Reading

/-- What a reading takes and what it leaves make up the payload. -/
theorem consumed_append_rest {α : Type} {read : Bytes → Reading α} (consumes : Consumes read)
    (payload : Bytes) : consumed payload (read payload).rest ++ (read payload).rest = payload := by
  have split := consumes payload
  generalize (read payload).rest = rest at split ⊢
  obtain ⟨taken, rfl⟩ := split
  rw [consumed_append]

/-- So do the bytes of all visits and what is left behind the record. -/
theorem payload_of_reads : (fields : Fields) → (more : List Field) →
    (earlier : List (Option Nat)) → (container : Nat) → (destination : fields.Values) →
    (payload : Bytes) →
      (fields.reads more earlier container destination payload).flatMap Visit.bytes ++
        (fields.decode more earlier container destination payload).rest = payload
  | .nil, _, _, _, _, _ => rfl
  | .cons _ _ _ _, [], _, _, _, _ => rfl
  | .cons _ type _ rest, field :: more, earlier, container, (value, values), payload => by
      have consumes : Consumes (field.read earlier container type value) :=
        Consumes.field (WireType.consumes type field.tags value)
      have own := consumed_append_rest consumes payload
      rw [decode_cons]
      simp only [reads]
      cases outcome : (field.read earlier container type value payload).error with
      | some error => simpa [Reading.andThen, outcome, Reading.map] using own
      | none =>
          simp only [Reading.andThen, outcome, Reading.map, List.flatMap_cons, List.append_assoc]
          rw [payload_of_reads rest more _ _ values, own]

/-- The fields are visited in order, each with the integers that the destination has
got for those before it. -/
theorem reads_getElem? : (fields : Fields) → (more : List Field) →
    (earlier : List (Option Nat)) → (container : Nat) → (destination : fields.Values) →
    (payload : Bytes) → {index : Nat} → {visit : Visit} →
    (fields.reads more earlier container destination payload)[index]? = some visit →
      more[index]? = some visit.field ∧ index < (fields.uints destination).length ∧
        visit.earlier = earlier ++
          (fields.uints (fields.decode more earlier container destination payload).value).take index
  | .nil, _, _, _, _, _, _, _, known => by cases known
  | .cons _ _ _ _, [], _, _, _, _, _, _, known => by cases known
  | .cons _ type _ rest, field :: more, earlier, container, (value, values), payload, index,
      visit, known => by
      rw [decode_cons]
      simp only [reads] at known
      cases outcome : (field.read earlier container type value payload).error with
      | some error =>
          rw [outcome] at known
          cases index with
          | zero =>
              obtain rfl := Option.some.inj known
              simp [uints]
          | succ index => cases known
      | none =>
          rw [outcome] at known
          cases index with
          | zero =>
              obtain rfl := Option.some.inj known
              simp [uints]
          | succ index =>
              obtain ⟨visited, inside, before⟩ := reads_getElem? rest more _ _ values _ known
              refine ⟨visited, Nat.succ_lt_succ inside, ?_⟩
              simpa [Reading.andThen, outcome, Reading.map, uints] using before

/-- A record stops where its first field stops. -/
theorem error_of_read {name : String} {type : WireType} {pairs : List (String × String)}
    {rest : Fields} {field : Field} {more : List Field} {earlier : List (Option Nat)}
    {container : Nat} {value : type.Value} {values : rest.Values} {payload : Bytes}
    {error : PayloadError}
    (failed : (field.read earlier container type value payload).error = some error) :
    ((Fields.cons name type pairs rest).decode (field :: more) earlier container
      (value, values) payload).error = some error := by
  rw [decode_cons]
  simp only [Reading.andThen, failed, Reading.map]

/-- The word of a run is read from as many bytes as its container has, or these are
missing. -/
theorem opensRun_of_read {type : WireType} {field : Field} {earlier : List (Option Nat)}
    {container : Nat} {value : type.Value} {payload : Bytes}
    (suits : Layout.Suits field.shape field.tags)
    (contained : field.role? = some .first → ∃ width, field.runWidth = some width) :
    Visit.OpensRun
      { field, earlier, word := (field.read earlier container type value payload).value.1,
        bytes := consumed payload (field.read earlier container type value payload).rest }
      (field.read earlier container type value payload).error := by
  intro first
  obtain ⟨width, runWidth⟩ := contained first
  obtain ⟨bits, masked, role⟩ : ∃ bits, field.tags.bitMask = some bits ∧ bits.role = .first :=
    Layout.exists_mask_of_role? first
  have present := Field.isPresent_of_masked suits masked earlier
  have read : field.read earlier container type value payload =
      .ofTaken (container, value) payload
        (fun word => (word, (type.setUint value (bits.extract word)).2))
        (field.runOrder.take width.bytes payload) := by
    simp only [Field.read, present, masked, role, if_true,
      Field.containerBytes_of_runWidth runWidth]
  refine ⟨width, runWidth, ?_⟩
  rw [read]
  cases taken : field.runOrder.take width.bytes payload with
  | error cause =>
      right
      simp only [ByteOrder.take, takeBytes] at taken
      split at taken
      · obtain rfl := Except.error.inj taken
        exact ⟨payload.length, rfl⟩
      · cases taken
  | ok result =>
      left
      obtain ⟨number, after⟩ := result
      obtain ⟨word, length, rfl, rfl⟩ := ByteOrder.take_eq_ok taken
      simp only [Reading.ofTaken, consumed_append, length, and_self]

theorem opensRun_of_reads : (fields : Fields) → (more : List Field) →
    (∀ field ∈ more, Layout.Suits field.shape field.tags ∧
      (field.role? = some .first → ∃ width, field.runWidth = some width)) →
    (earlier : List (Option Nat)) → (container : Nat) → (destination : fields.Values) →
    (payload : Bytes) →
      ∀ visit ∈ fields.reads more earlier container destination payload,
        visit.OpensRun (fields.decode more earlier container destination payload).error
  | .nil, _, _, _, _, _, _, _, inside => by cases inside
  | .cons _ _ _ _, [], _, _, _, _, _, _, inside => by cases inside
  | .cons _ type _ rest, field :: more, known, earlier, container, (value, values), payload,
      visit, inside => by
      obtain ⟨⟨suits, contained⟩, known⟩ := List.forall_mem_cons.1 known
      have own := @opensRun_of_read type field earlier container value payload suits contained
      simp only [reads] at inside
      cases outcome : (field.read earlier container type value payload).error with
      | some error =>
          rw [outcome] at inside own
          obtain rfl := List.mem_singleton.1 inside
          rwa [error_of_read outcome]
      | none =>
          rw [outcome] at inside own
          rcases List.mem_cons.1 inside with rfl | inside
          · exact own.of_success _
          · have later := opensRun_of_reads rest more known _ _ values _ visit inside
            rw [decode_cons]
            simpa only [Reading.andThen, outcome, Reading.map] using later

end Reading

end Fields

namespace Layout

variable {record : String} {declarations : List Declaration} {layout : Layout}

theorem exists_transferred_append (layout : Layout) (limit : Option Nat) :
    ∃ later, layout.fields = layout.transferred limit ++ later := by
  cases limit with
  | none => exact ⟨[], (List.append_nil _).symm⟩
  | some count => exact ⟨layout.fields.drop count, (List.take_append_drop count _).symm⟩

theorem getElem?_of_transferred {limit : Option Nat} {index : Nat} {field : Field}
    (known : (layout.transferred limit)[index]? = some field) :
    layout.fields[index]? = some field := by
  obtain ⟨later, split⟩ := exists_transferred_append layout limit
  obtain ⟨inside, -⟩ := List.getElem?_eq_some_iff.1 known
  rw [split, List.getElem?_append_left inside, known]

/-- A visit with as many integers before it as there are fields finds what it tests. -/
theorem looksBack_of_resolved (resolved : Resolved layout.fields) {visit : Visit}
    (visited : layout.fields[visit.earlier.length]? = some visit.field) : visit.LooksBack :=
  fun condition declared => (resolved _ _ condition visited declared).1

/-- What the codec may assume of a checked layout, and what follows for every run over
it, whatever the values or the payload.  The fields are the declared ones.  Containers
are held at the ends of runs and all masks fit in them, and conditions point back at the
integer of their name.  So each visit tests what has been visited before; the first and
the last field of a run know its container; and the word that is written has no bit
beyond it. -/
theorem visits_sound_of_parse (parsed : parse record declarations = .ok layout) :
    layout.record = record ∧
    (layout.fields.map fun field => (field.name, field.shape)) =
      (declarations.map fun declaration => (declaration.name, declaration.shape)) ∧
    Sealed layout.fields ∧
    Resolved layout.fields ∧
    (∀ (limit : Option Nat) (fields : Fields) (values : fields.Values),
      let visits := fields.writes (layout.transferred limit) [] 0 values
      (∀ bytes, fields.encode (layout.transferred limit) [] 0 values = .ok bytes →
        bytes = visits.flatMap Visit.bytes) ∧
      ∀ index visit, visits[index]? = some visit →
        layout.fields[index]? = some visit.field ∧
        visit.earlier.length = index ∧ visit.earlier = (fields.uints values).take index ∧
        visit.LooksBack ∧ visit.ClosesRun) ∧
    ∀ (limit : Option Nat) (fields : Fields) (destination : fields.Values) (payload : Bytes),
      let visits := fields.reads (layout.transferred limit) [] 0 destination payload
      let reading := fields.decode (layout.transferred limit) [] 0 destination payload
      visits.flatMap Visit.bytes ++ reading.rest = payload ∧
      ∀ index visit, visits[index]? = some visit →
        layout.fields[index]? = some visit.field ∧
        visit.earlier.length = index ∧ visit.earlier = (fields.uints reading.value).take index ∧
        visit.LooksBack ∧ visit.OpensRun reading.error := by
  have resolved := resolved_of_parse parsed
  have isSealed := sealed_of_parse parsed
  have suits := suits_of_parse parsed
  refine ⟨record_of_parse parsed, signatures_of_parse parsed, isSealed, resolved, ?_, ?_⟩
  · intro limit fields values visits
    obtain ⟨later, split⟩ := exists_transferred_append layout limit
    refine ⟨fun _ => Fields.bytes_of_encode fields _ [] 0 values, fun index visit known => ?_⟩
    have inside := List.mem_of_getElem? known
    obtain ⟨visited, held, before⟩ := Fields.writes_getElem? fields _ [] 0 values known
    replace visited := getElem?_of_transferred visited
    rw [List.nil_append] at before
    obtain rfl : visit.earlier.length = index := by
      rw [before, List.length_take_of_le held.le]
    refine ⟨visited, rfl, before, looksBack_of_resolved resolved visited, ?_⟩
    have runs : Runs none (layout.transferred limit ++ later) := split ▸ runs_of_parse parsed
    exact Fields.closesRun_of_writes fields _ later runs
      (fun field member => suits field (split ▸ List.mem_append_left later member)) []
      (fun _ opened => by cases opened) values visit inside
  · intro limit fields destination payload visits reading
    refine ⟨Fields.payload_of_reads fields _ [] 0 destination payload, fun index visit known => ?_⟩
    have inside := List.mem_of_getElem? known
    obtain ⟨visited, held, before⟩ := Fields.reads_getElem? fields _ [] 0 destination payload known
    replace visited := getElem?_of_transferred visited
    rw [List.nil_append] at before
    obtain rfl : visit.earlier.length = index := by
      rw [Fields.length_uints] at held
      rw [before, List.length_take_of_le (by rw [Fields.length_uints]; exact held.le)]
    refine ⟨visited, rfl, before, looksBack_of_resolved resolved visited, ?_⟩
    obtain ⟨later, split⟩ := exists_transferred_append layout limit
    refine Fields.opensRun_of_reads fields _ (fun field member => ?_) [] 0 destination payload
      visit inside
    have listed : field ∈ layout.fields := split ▸ List.mem_append_left later member
    exact ⟨suits field listed, fun first => isSealed.exists_width listed (.inl first)⟩

/-- Two runs, the first of them with a big-endian word of two bytes that its first field
learns, and a condition behind them.  The values are larger than their masks, and the
payload ends within the second run. -/
theorem visits_sound_of_parse_of_two_runs :
    let fields : Fields := .ofList
      [("kind", .uint .one, []),
        ("low", .uint .one, [("bitmask", "start"), ("bits", "0x000f")]),
        ("high", .uint .two, [("bitmask", "end"), ("bits", "0x0ff0"), ("endianness", "be")]),
        ("one", .uint .one, [("bitmask", "start"), ("bits", "0x01")]),
        ("other", .optional (.uint .one), [("bits", "0x02")]),
        ("rest", .uint .one, [("bitmask", "end"), ("bits", "0xfc")]),
        ("extra", .uint .one, [("cond", "kind==2")])]
    ∃ layout, parse "Report" fields.declarations = .ok layout ∧
      Resolved layout.fields ∧
      (layout.fields.map Field.runWidth =
        [none, some .two, some .two, some .one, none, some .one, none]) ∧
      (∃ visit, (fields.writes layout.fields [] 0
          (2, 0xff, 0xffff, 1, none, 0xff, 7, ()))[2]? = some visit ∧
        visit.bytes = [0x0f, 0xff] ∧ visit.ClosesRun) ∧
      ∃ visit, (fields.reads layout.fields [] 0 fields.default [2, 0x0f, 0xff])[3]? = some visit ∧
        visit.bytes = [] ∧
        visit.OpensRun (some (.decode (.unexpectedEnd 1 0))) := by
  intro fields
  obtain ⟨layout, parsed⟩ : ∃ layout, parse "Report" fields.declarations = .ok layout :=
    ⟨_, rfl⟩
  obtain ⟨-, -, -, resolved, writing, reading⟩ := visits_sound_of_parse parsed
  refine ⟨layout, parsed, resolved, ?_⟩
  obtain rfl := Except.ok.inj parsed
  have written := (writing none fields (2, 0xff, 0xffff, 1, none, 0xff, 7, ())).2 2 _ rfl
  have missing := (reading none fields fields.default [2, 0x0f, 0xff]).2 3 _ rfl
  exact ⟨by decide, ⟨_, rfl, rfl, written.2.2.2.2⟩, _, rfl, rfl, missing.2.2.2.2⟩

end Layout

end ZigbeeHost
