import ZigbeeHost.Proofs.Layout.Runs
import ZigbeeHost.Proofs.Layout.Tags
import ZigbeeHost.Proofs.Payload.Integers

/-!
# Well-formed declarations

Which declarations make a layout can be said without the loop that checks them:
the tags of each field can be read and mean something where they stand, and the
fields are unmasked ones and complete bit runs, one after the other.  The loop
accepts exactly these declarations.  What ties the two together is the set of
bits that an open run has claimed, which is all that the loop remembers of the
run when it judges the next field.
-/

namespace ZigbeeHost

/-- The place of a field in its bit run, if the field has a mask. -/
def Field.role? (field : Field) : Option RunRole :=
  field.tags.bitMask.map BitMask.role

namespace Layout

/-- The field that a declaration declares, with its tags as they have been
read. -/
def Reads (record : String) (declaration : Declaration) (field : Field) : Prop :=
  ∃ tags, FieldTags.parse record declaration.name declaration.tags = .ok tags ∧
    field = { name := declaration.name, shape := declaration.shape, tags }

/-- The tags of a field suit its shape and the fields before it. -/
structure Meaningful (earlier : List Field) (field : Field) : Prop where
  hex : field.tags.hex.isSome →
    field.shape.base = .text ∨
      ∃ element, field.shape.base = .list element ∧ element.base = .text
  length : field.tags.length.isSome →
    (field.shape.base = .text ∧ field.tags.hex = none) ∨
      ∃ element, field.shape.base = .list element
  bound : ∀ bound, field.tags.bound = some bound →
    field.tags.bitMask = none ∧
      ∃ declared, field.shape.base = .uint declared ∧ bound ≤ declared.bytes
  /-- The first field that has the name of the target is an integer. -/
  condition : ∀ condition, field.tags.condition = some condition →
    field.tags.bitMask = none ∧
      ∃ target width, (earlier.find? fun other => other.name = condition.target) = some target ∧
        target.shape.base = .uint width

/-- The masks of the fields that have one, in order. -/
def masks (fields : List Field) : List Nat :=
  fields.filterMap fun field => field.tags.bitMask.map BitMask.mask

/-- The bits of some masks. -/
def union (masks : List Nat) : Nat :=
  masks.foldr (· ||| ·) 0

/-- Fields that stand together: one without a mask, or a complete bit run. -/
inductive IsSegment : List Field → Prop where
  | plain {field : Field} (unmasked : field.tags.bitMask = none) : IsSegment [field]
  | run {first last : Field} {middle : List Field} {width : Width}
      (opens : first.role? = some .first)
      (continues : ∀ field ∈ middle, field.role? = some .middle)
      (closes : last.role? = some .last)
      (disjoint : (masks (first :: (middle ++ [last]))).Pairwise fun one other =>
        one &&& other = 0)
      (container : last.shape.base = .uint width)
      (fits : union (masks (first :: (middle ++ [last]))) < 2 ^ width.bits) :
      IsSegment (first :: (middle ++ [last]))

/-- The fields are meaningful one after the other, after some earlier ones. -/
def MeaningfulFrom (earlier fields : List Field) : Prop :=
  ∀ before field after, fields = before ++ field :: after → Meaningful (earlier ++ before) field

/-- Masks belong to integers. -/
def Integral (fields : List Field) : Prop :=
  ∀ field ∈ fields, field.tags.bitMask.isSome → ∃ width, field.shape.base = .uint width

/-- The fields fall into segments. -/
def Segmented (fields : List Field) : Prop :=
  ∃ segments : List (List Field),
    fields = segments.flatten ∧ ∀ segment ∈ segments, IsSegment segment

/-- The fields make a layout. -/
structure WellFormed (fields : List Field) : Prop where
  meaningful : MeaningfulFrom [] fields
  integral : Integral fields
  segmented : Segmented fields

section Tags

variable {shape : Shape} {tags : FieldTags} {earlier : List Field}

theorem element_base_eq_text_iff :
    shape.base.element = .text ↔
      shape.base = .text ∨ ∃ element, shape.base = .list element ∧ element.base = .text := by
  cases shape.base <;> simp [Shape.element]

theorem isDynamic_iff :
    isDynamic shape tags = true ↔
      (shape.base = .text ∧ tags.hex = none) ∨ ∃ element, shape.base = .list element := by
  cases base : shape.base <;> simp [isDynamic, base]

theorem checkHex_eq_ok_iff :
    checkHex shape tags = .ok () ↔ (tags.hex.isSome → shape.base.element = .text) := by
  refine ⟨hex_of_checkHex, fun suits => ?_⟩
  rw [checkHex, if_neg]
  exact fun wrong => wrong.2 (suits wrong.1)

theorem checkLength_eq_ok_iff :
    checkLength shape tags = .ok () ↔ (tags.length.isSome → isDynamic shape tags = true) := by
  refine ⟨length_of_checkLength, fun suits => ?_⟩
  rw [checkLength, if_neg]
  exact fun wrong => wrong.2 (suits wrong.1)

theorem checkBound_eq_ok_iff :
    checkBound shape tags = .ok () ↔
      ∀ bound, tags.bound = some bound →
        tags.bitMask = none ∧ ∃ declared, shape.base = .uint declared ∧ bound ≤ declared.bytes := by
  constructor
  · intro checked bound tagged
    obtain ⟨unmasked, declared, width, narrow⟩ := bound_of_checkBound checked tagged
    exact ⟨unmasked, declared, Shape.uintWidth?_eq_some_iff.1 width, narrow⟩
  · intro suits
    cases tagged : tags.bound with
    | none => simp only [checkBound, tagged]
    | some bound =>
        obtain ⟨unmasked, declared, base, narrow⟩ := suits bound tagged
        simp only [checkBound, tagged, Shape.uintWidth?_eq_some_iff.2 base, unmasked]
        rw [if_neg (by simp), if_neg (Nat.not_lt.2 narrow)]

/-- A condition can be resolved if the first field of its name is an integer. -/
theorem exists_integerIndex?_iff {target : String} :
    (∃ index, integerIndex? earlier target = some index) ↔
      ∃ field width, (earlier.find? fun other => other.name = target) = some field ∧
        field.shape.base = .uint width := by
  simp only [integerIndex?, List.findIdx?_eq_map_findFinIdx?_val,
    List.find?_eq_map_findFinIdx?_getElem]
  cases earlier.findFinIdx? fun other => other.name = target with
  | none => simp
  | some index => simp [Option.isSome_iff_exists, Shape.uintWidth?_eq_some_iff]

theorem exists_resolveCondition_iff :
    (∃ resolved, resolveCondition earlier tags = .ok resolved) ↔
      ∀ condition, tags.condition = some condition →
        tags.bitMask = none ∧
          ∃ target width,
            (earlier.find? fun other => other.name = condition.target) = some target ∧
              target.shape.base = .uint width := by
  constructor
  · rintro ⟨resolved, checked⟩ condition declared
    rcases resolveCondition_cases checked with
      ⟨unconditional, -⟩ | ⟨same, index, known, unmasked, found, -⟩
    · rw [unconditional] at declared
      cases declared
    · obtain rfl := Option.some.inj (known.symm.trans declared)
      exact ⟨unmasked, exists_integerIndex?_iff.1 ⟨index, found⟩⟩
  · intro suits
    cases declared : tags.condition with
    | none => exact ⟨tags, by simp only [resolveCondition, declared]⟩
    | some condition =>
        obtain ⟨unmasked, target⟩ := suits condition declared
        obtain ⟨index, found⟩ := exists_integerIndex?_iff.2 target
        refine ⟨{ tags with condition := some { condition with index } }, ?_⟩
        simp only [resolveCondition, declared, unmasked, found]
        rw [if_neg (by simp)]

theorem bitMask_of_resolveCondition {resolved : FieldTags}
    (checked : resolveCondition earlier tags = .ok resolved) :
    resolved.bitMask = tags.bitMask := by
  rcases resolveCondition_cases checked with ⟨-, rfl⟩ | ⟨_, _, -, -, -, rfl⟩ <;> rfl

end Tags

/-- What the checks that come before the bit runs accept. -/
theorem exists_checkTags_iff (record : String) {earlier : List Field} {declaration : Declaration}
    {bits : Option BitMask} :
    (∃ resolved, checkTags earlier declaration = .ok resolved ∧ resolved.bitMask = bits) ↔
      ∃ field, Reads record declaration field ∧ Meaningful earlier field ∧
        field.tags.bitMask = bits := by
  constructor
  · rintro ⟨resolved, checked, rfl⟩
    obtain ⟨tags, read, hex, length, bound, condition⟩ := checkTags_cases checked
    refine ⟨_, ⟨tags, FieldTags.parse_eq_ok_iff.2 read, rfl⟩, ?_,
      (bitMask_of_resolveCondition condition).symm⟩
    exact
      { hex := fun tagged => element_base_eq_text_iff.1 (checkHex_eq_ok_iff.1 hex tagged)
        length := fun tagged => isDynamic_iff.1 (checkLength_eq_ok_iff.1 length tagged)
        bound := checkBound_eq_ok_iff.1 bound
        condition := exists_resolveCondition_iff.1 ⟨resolved, condition⟩ }
  · rintro ⟨field, ⟨tags, read, rfl⟩, meaningful, rfl⟩
    have hex := checkHex_eq_ok_iff.2 fun tagged =>
      element_base_eq_text_iff.2 (meaningful.hex tagged)
    have length := checkLength_eq_ok_iff.2 fun tagged =>
      isDynamic_iff.2 (meaningful.length tagged)
    have bound := checkBound_eq_ok_iff.2 meaningful.bound
    obtain ⟨resolved, condition⟩ := exists_resolveCondition_iff.2 meaningful.condition
    refine ⟨resolved, ?_, bitMask_of_resolveCondition condition⟩
    simp only [checkTags, FieldTags.parse_eq_ok_iff.1 read, bind, Except.bind]
    simp only [hex, length, bound, condition]

/-- The bits that the open run has claimed, if a run is open. -/
def Progress.claimed (progress : Progress) : Option Nat :=
  progress.run.map OpenRun.used

/-- The masked fields form complete bit runs, the first of which may have been
opened before and have claimed some bits. -/
inductive Closes : Option Nat → List Field → Prop where
  | nil : Closes none []
  | plain {field : Field} {rest : List Field} (unmasked : field.tags.bitMask = none)
      (tail : Closes none rest) : Closes none (field :: rest)
  | first {field : Field} {rest : List Field} {bits : BitMask} (member : IsMember field bits)
      (role : bits.role = .first) (tail : Closes (some bits.mask) rest) :
      Closes none (field :: rest)
  | middle {field : Field} {rest : List Field} {bits : BitMask} {used : Nat}
      (member : IsMember field bits) (role : bits.role = .middle)
      (disjoint : used &&& bits.mask = 0) (tail : Closes (some (used ||| bits.mask)) rest) :
      Closes (some used) (field :: rest)
  | last {field : Field} {rest : List Field} {bits : BitMask} {used : Nat} {width : Width}
      (member : IsMember field bits) (role : bits.role = .last)
      (disjoint : used &&& bits.mask = 0) (container : field.shape.uintWidth? = some width)
      (fits : used ||| bits.mask ≤ width.maxValue) (tail : Closes none rest) :
      Closes (some used) (field :: rest)

/-- Only the mask and the shape of a field matter to its run. -/
theorem Closes.congr_head {claimed : Option Nat} {field other : Field} {rest : List Field}
    (closes : Closes claimed (field :: rest)) (bits : other.tags.bitMask = field.tags.bitMask)
    (shape : other.shape = field.shape) : Closes claimed (other :: rest) := by
  have moved {mask : BitMask} (member : IsMember field mask) : IsMember other mask :=
    ⟨bits.trans member.mask, by rw [shape]; exact member.integer⟩
  cases closes with
  | plain unmasked tail => exact .plain (bits.trans unmasked) tail
  | first member role tail => exact .first (moved member) role tail
  | middle member role disjoint tail => exact .middle (moved member) role disjoint tail
  | last member role disjoint container fits tail =>
      exact .last (moved member) role disjoint (shape ▸ container) fits tail

/-- A field that continues the runs so far can be added. -/
theorem Closes.exists_add {progress : Progress} {field : Field} {rest : List Field}
    (closes : Closes progress.claimed (field :: rest)) :
    ∃ next, progress.add field = .ok next ∧ Closes next.claimed rest := by
  generalize state : progress.claimed = claimed at closes
  cases closes with
  | plain unmasked tail =>
      have closed : progress.run = none := Option.map_eq_none_iff.1 state
      refine ⟨{ progress with settled := progress.settled ++ [field] }, ?_, state ▸ tail⟩
      simp only [Progress.add, unmasked, closed]
  | @first _ _ bits member role tail =>
      have closed : progress.run = none := Option.map_eq_none_iff.1 state
      obtain ⟨width, integer⟩ := Option.isSome_iff_exists.1 member.integer
      refine ⟨{ progress with run := some { first := field, members := [], used := bits.mask } },
        ?_, tail⟩
      simp only [Progress.add, member.mask, closed, integer, role]
  | @middle _ _ bits used member role disjoint tail =>
      obtain ⟨run, opened, rfl⟩ := Option.map_eq_some_iff.1 state
      obtain ⟨width, integer⟩ := Option.isSome_iff_exists.1 member.integer
      refine ⟨{ progress with
        run := some { run with
          members := run.members ++ [field], used := run.used ||| bits.mask } }, ?_, tail⟩
      simp only [Progress.add, member.mask, opened, integer, role, Progress.extendRun]
      rw [if_neg (not_not.2 disjoint), if_neg (by simp)]
      rfl
  | @last _ _ bits used width member role disjoint container fits tail =>
      obtain ⟨run, opened, rfl⟩ := Option.map_eq_some_iff.1 state
      refine ⟨{ settled := progress.settled ++ run.first.withContainer width field.tags.order ::
        (run.members ++ [field.withContainer width field.tags.order]) }, ?_, tail⟩
      simp only [Progress.add, member.mask, opened, container, role, Progress.extendRun]
      rw [if_neg (not_not.2 disjoint), if_pos trivial, if_neg (Nat.not_lt.2 fits)]
      rfl

/-- A field that has been added continues the runs so far. -/
theorem Closes.of_add {progress next : Progress} {field : Field} {rest : List Field}
    (added : progress.add field = .ok next) (tail : Closes next.claimed rest) :
    Closes progress.claimed (field :: rest) := by
  rcases Progress.add_cases added with
    ⟨unmasked, closed, rfl⟩ | ⟨bits, member, role, closed, rfl⟩ |
      ⟨bits, run, member, role, opened, disjoint, rfl⟩ |
        ⟨bits, run, width, member, role, opened, disjoint, container, fits, rfl⟩
  · simp only [Progress.claimed, closed, Option.map_none]
    exact .plain unmasked tail
  · simp only [Progress.claimed, closed, Option.map_none]
    exact .first member role tail
  · simp only [Progress.claimed, opened, Option.map_some]
    exact .middle member role disjoint tail
  · simp only [Progress.claimed, opened, Option.map_some]
    exact .last member role disjoint container fits tail

theorem meaningfulFrom_nil (earlier : List Field) : MeaningfulFrom earlier [] := by
  intro before field after split
  simp at split

theorem meaningfulFrom_cons_iff {earlier rest : List Field} {field : Field} :
    MeaningfulFrom earlier (field :: rest) ↔
      Meaningful earlier field ∧ MeaningfulFrom (earlier ++ [field]) rest := by
  constructor
  · intro meaningful
    refine ⟨by simpa using meaningful [] field rest rfl, fun before other after split => ?_⟩
    have later := meaningful (field :: before) other after (by rw [split, List.cons_append])
    simpa using later
  · rintro ⟨first, later⟩ before other after split
    cases before with
    | nil =>
        obtain ⟨rfl, rfl⟩ := List.cons.inj split
        simpa using first
    | cons head before =>
        obtain ⟨rfl, rfl⟩ := List.cons.inj split
        simpa using later before other after rfl

/-- What a condition can see of an earlier field. -/
def signature (field : Field) : String × Shape :=
  (field.name, field.shape)

theorem Meaningful.congr_earlier {earlier other : List Field} {field : Field}
    (meaningful : Meaningful earlier field)
    (same : earlier.map signature = other.map signature) : Meaningful other field where
  hex := meaningful.hex
  length := meaningful.length
  bound := meaningful.bound
  condition condition declared := by
    obtain ⟨unmasked, target, width, found, base⟩ := meaningful.condition condition declared
    have seen := congrArg (List.find? fun entry => entry.1 = condition.target) same
    rw [List.find?_map, List.find?_map] at seen
    change (earlier.find? fun field => field.name = condition.target).map signature =
      (other.find? fun field => field.name = condition.target).map signature at seen
    rw [found, Option.map_some] at seen
    obtain ⟨moved, foundMoved, sameEntry⟩ := Option.map_eq_some_iff.1 seen.symm
    have shape : moved.shape = target.shape := congrArg Prod.snd sameEntry
    exact ⟨unmasked, moved, width, foundMoved, shape ▸ base⟩

theorem MeaningfulFrom.congr_earlier {earlier other fields : List Field}
    (meaningful : MeaningfulFrom earlier fields)
    (same : earlier.map signature = other.map signature) : MeaningfulFrom other fields := by
  intro before field after split
  apply (meaningful before field after split).congr_earlier
  simp only [List.map_append, same]

theorem Reads.signature_eq {record : String} {declaration : Declaration} {field : Field}
    (read : Reads record declaration field) :
    signature field = (declaration.name, declaration.shape) := by
  obtain ⟨tags, -, rfl⟩ := read
  rfl

theorem signature_of_add {progress next : Progress} {field other : Field}
    (added : progress.add field = .ok next) (same : signature other = signature field) :
    next.fields.map signature = (progress.fields ++ [other]).map signature := by
  have seen : signature ∘ Field.bare = signature := rfl
  have bare := congrArg (List.map signature) (Progress.bare_fields_of_add added)
  rw [List.map_append, List.map_map, List.map_map, seen] at bare
  rw [bare, List.map_append]
  simp only [List.map_cons, List.map_nil, same]
  rfl

/-- The loop accepts the remaining declarations exactly if their tags can be
read and mean something after the fields so far, and all bit runs are closed. -/
theorem exists_checkFrom_iff (record : String) {progress : Progress}
    {declarations : List Declaration} :
    (∃ checked, checkFrom progress declarations = .ok checked) ↔
      ∃ fields, List.Forall₂ (Reads record) declarations fields ∧
        MeaningfulFrom progress.fields fields ∧ Closes progress.claimed fields := by
  induction declarations generalizing progress with
  | nil =>
      constructor
      · rintro ⟨checked, finished⟩
        simp only [checkFrom, Progress.finish] at finished
        cases opened : progress.run with
        | none =>
            refine ⟨[], .nil, meaningfulFrom_nil _, ?_⟩
            simp only [Progress.claimed, opened, Option.map_none]
            exact .nil
        | some run => simp [opened] at finished
      · rintro ⟨fields, reads, -, closes⟩
        cases reads
        generalize state : progress.claimed = claimed at closes
        cases closes
        have closed : progress.run = none := Option.map_eq_none_iff.1 state
        exact ⟨progress.settled, by simp only [checkFrom, Progress.finish, closed]⟩
  | cons declaration declarations ih =>
      constructor
      · rintro ⟨checked, accepted⟩
        simp only [checkFrom] at accepted
        split at accepted
        · cases accepted
        · rename_i next step
          simp only [addDeclaration] at step
          split at step
          · cases step
          · rename_i tags suited
            obtain ⟨fields, reads, meaningful, closes⟩ := ih.1 ⟨checked, accepted⟩
            obtain ⟨field, read, here, bits⟩ := (exists_checkTags_iff record).1 ⟨tags, suited, rfl⟩
            have shown := read.signature_eq
            have shape : field.shape = declaration.shape := congrArg Prod.snd shown
            refine ⟨field :: fields, .cons read reads, meaningfulFrom_cons_iff.2 ⟨here, ?_⟩, ?_⟩
            · exact meaningful.congr_earlier (signature_of_add step shown)
            · exact (Closes.of_add step closes).congr_head bits shape
      · rintro ⟨fields, reads, meaningful, closes⟩
        cases reads with
        | @cons _ field _ rest read reads =>
            obtain ⟨here, later⟩ := meaningfulFrom_cons_iff.1 meaningful
            obtain ⟨tags, suited, bits⟩ := (exists_checkTags_iff record).2 ⟨field, read, here, rfl⟩
            have shown := read.signature_eq
            have shape : declaration.shape = field.shape := (congrArg Prod.snd shown).symm
            have continued : Closes progress.claimed
                ({ name := declaration.name, shape := declaration.shape, tags } :: rest) :=
              closes.congr_head bits shape
            obtain ⟨next, step, tail⟩ := continued.exists_add
            obtain ⟨checked, accepted⟩ := ih.2 ⟨rest, reads,
              later.congr_earlier (signature_of_add step shown).symm, tail⟩
            exact ⟨checked, by simp only [checkFrom, addDeclaration, suited, step, accepted]⟩

section Segments

variable {first last field : Field} {middle rest fields : List Field} {bits : BitMask}
variable {used : Nat}

theorem masks_cons (masked : field.tags.bitMask = some bits) (rest : List Field) :
    masks (field :: rest) = bits.mask :: masks rest := by
  simp [masks, masked]

theorem role?_of_mask (masked : field.tags.bitMask = some bits) :
    field.role? = some bits.role := by
  rw [Field.role?, masked, Option.map_some]

theorem exists_mask_of_role? {role : RunRole} (known : field.role? = some role) :
    ∃ bits, field.tags.bitMask = some bits ∧ bits.role = role :=
  Option.map_eq_some_iff.1 known

/-- The fields that close an open run which has claimed some bits. -/
structure Finishes (used : Nat) (middle : List Field) (last : Field) : Prop where
  continues : ∀ field ∈ middle, field.role? = some .middle
  closes : last.role? = some .last
  fresh : ∀ mask ∈ masks (middle ++ [last]), used &&& mask = 0
  disjoint : (masks (middle ++ [last])).Pairwise fun one other => one &&& other = 0
  fits : ∃ width, last.shape.base = .uint width ∧
    used ||| union (masks (middle ++ [last])) ≤ width.maxValue

/-- A complete run is a field that opens it and fields that close it. -/
theorem isSegment_of_finishes (masked : first.tags.bitMask = some bits)
    (role : bits.role = .first) (finishes : Finishes bits.mask middle last) :
    IsSegment (first :: (middle ++ [last])) := by
  obtain ⟨width, container, fits⟩ := finishes.fits
  refine .run (role ▸ role?_of_mask masked) finishes.continues finishes.closes ?_ container ?_
  · rw [masks_cons masked]
    exact List.pairwise_cons.2 ⟨finishes.fresh, finishes.disjoint⟩
  · rw [masks_cons masked]
    exact Width.le_maxValue_iff.1 fits

theorem finishes_last (member : IsMember last bits) (role : bits.role = .last)
    (disjoint : used &&& bits.mask = 0) {width : Width}
    (container : last.shape.uintWidth? = some width)
    (fits : used ||| bits.mask ≤ width.maxValue) : Finishes used [] last where
  continues _ inside := by cases inside
  closes := role ▸ role?_of_mask member.mask
  fresh mask inside := by
    rw [List.nil_append, masks_cons member.mask] at inside
    obtain rfl := List.mem_singleton.1 inside
    exact disjoint
  disjoint := by
    rw [List.nil_append, masks_cons member.mask]
    exact List.pairwise_singleton _ _
  fits := by
    refine ⟨width, Shape.uintWidth?_eq_some_iff.1 container, ?_⟩
    rw [List.nil_append, masks_cons member.mask]
    simpa [union, masks] using fits

/-- One more field in the middle claims its bits before all others do. -/
theorem finishes_cons_iff (member : IsMember field bits) (role : bits.role = .middle) :
    Finishes used (field :: middle) last ↔
      used &&& bits.mask = 0 ∧ Finishes (used ||| bits.mask) middle last := by
  have split : masks (field :: middle ++ [last]) = bits.mask :: masks (middle ++ [last]) :=
    masks_cons member.mask _
  have joined (others : List Nat) :
      used ||| union (bits.mask :: others) = used ||| bits.mask ||| union others :=
    (Nat.or_assoc _ _ _).symm
  constructor
  · intro finishes
    have fresh := finishes.fresh
    have disjoint := finishes.disjoint
    obtain ⟨width, container, fits⟩ := finishes.fits
    rw [split] at fresh disjoint fits
    obtain ⟨own, disjoint⟩ := List.pairwise_cons.1 disjoint
    refine ⟨fresh _ List.mem_cons_self, ?_⟩
    exact
      { continues := fun other inside => finishes.continues other (List.mem_cons_of_mem _ inside)
        closes := finishes.closes
        fresh := fun mask inside => by
          rw [Nat.and_or_distrib_right, fresh mask (List.mem_cons_of_mem _ inside),
            own mask inside]
          rfl
        disjoint := disjoint
        fits := ⟨width, container, joined _ ▸ fits⟩ }
  · rintro ⟨here, finishes⟩
    have later (mask : Nat) (inside : mask ∈ masks (middle ++ [last])) :
        used &&& mask = 0 ∧ bits.mask &&& mask = 0 := by
      have fresh := finishes.fresh mask inside
      rwa [Nat.and_or_distrib_right, Nat.or_eq_zero_iff] at fresh
    obtain ⟨width, container, fits⟩ := finishes.fits
    exact
      { continues := List.forall_mem_cons.2 ⟨role ▸ role?_of_mask member.mask, finishes.continues⟩
        closes := finishes.closes
        fresh := by
          rw [split]
          exact List.forall_mem_cons.2 ⟨here, fun mask inside => (later mask inside).1⟩
        disjoint := by
          rw [split]
          exact List.pairwise_cons.2 ⟨fun mask inside => (later mask inside).2, finishes.disjoint⟩
        fits := ⟨width, container, by rw [split, joined]; exact fits⟩ }

/-- One more part goes in front of fields that fall into parts. -/
theorem exists_parts_append {IsPart : List Field → Prop} {part : List Field} (first : IsPart part)
    (others : ∃ parts : List (List Field),
      fields = parts.flatten ∧ ∀ part ∈ parts, IsPart part) :
    ∃ parts : List (List Field),
      part ++ fields = parts.flatten ∧ ∀ part ∈ parts, IsPart part := by
  obtain ⟨parts, rfl, all⟩ := others
  exact ⟨part :: parts, by rw [List.flatten_cons], List.forall_mem_cons.2 ⟨first, all⟩⟩

/-- Fields whose runs are closed fall into segments, after the fields that close
the run which is open. -/
theorem Closes.segmented {claimed : Option Nat} (closes : Closes claimed fields) :
    match claimed with
    | none => Segmented fields
    | some used => ∃ middle last rest, fields = middle ++ last :: rest ∧
        Finishes used middle last ∧ Segmented rest := by
  induction closes with
  | nil => exact ⟨[], rfl, fun _ inside => by cases inside⟩
  | plain unmasked tail ih => exact exists_parts_append (.plain unmasked) ih
  | first member role tail ih =>
      obtain ⟨middle, last, rest, rfl, finishes, segmented⟩ := ih
      have opened := isSegment_of_finishes member.mask role finishes
      simpa [Segmented] using exists_parts_append opened segmented
  | middle member role disjoint tail ih =>
      obtain ⟨middle, last, rest, rfl, finishes, segmented⟩ := ih
      exact ⟨_ :: middle, last, rest, rfl, (finishes_cons_iff member role).2 ⟨disjoint, finishes⟩,
        segmented⟩
  | last member role disjoint container fits tail ih =>
      exact ⟨[], _, _, rfl, finishes_last member role disjoint container fits, ih⟩

theorem IsMember.exists_width (member : IsMember field bits) :
    ∃ width, field.shape.base = .uint width := by
  obtain ⟨width, known⟩ := Option.isSome_iff_exists.1 member.integer
  exact ⟨width, Shape.uintWidth?_eq_some_iff.1 known⟩

theorem isMember_of_integral (integral : Integral fields) (inside : field ∈ fields)
    (masked : field.tags.bitMask = some bits) : IsMember field bits := by
  obtain ⟨width, base⟩ := integral field inside (by rw [masked]; rfl)
  exact ⟨masked, by rw [Shape.uintWidth?_eq_some_iff.2 base]; rfl⟩

theorem Closes.integral {claimed : Option Nat} (closes : Closes claimed fields) :
    Integral fields := by
  induction closes with
  | nil => exact fun _ inside => by cases inside
  | plain unmasked tail ih =>
      exact List.forall_mem_cons.2 ⟨fun masked => by simp [unmasked] at masked, ih⟩
  | first member role tail ih =>
      exact List.forall_mem_cons.2 ⟨fun _ => member.exists_width, ih⟩
  | middle member role disjoint tail ih =>
      exact List.forall_mem_cons.2 ⟨fun _ => member.exists_width, ih⟩
  | last member role disjoint container fits tail ih =>
      exact List.forall_mem_cons.2 ⟨fun _ => member.exists_width, ih⟩

theorem closes_of_finishes (integral : Integral (middle ++ [last]))
    (finishes : Finishes used middle last) (tail : Closes none rest) :
    Closes (some used) (middle ++ last :: rest) := by
  induction middle generalizing used with
  | nil =>
      obtain ⟨bits, masked, role⟩ := exists_mask_of_role? finishes.closes
      have member := isMember_of_integral integral (by simp) masked
      obtain ⟨width, container, fits⟩ := finishes.fits
      have fresh := finishes.fresh
      rw [List.nil_append, masks_cons masked] at fresh fits
      refine .last member role (fresh _ List.mem_cons_self)
        (Shape.uintWidth?_eq_some_iff.2 container) ?_ tail
      simpa [union, masks] using fits
  | cons field middle ih =>
      obtain ⟨bits, masked, role⟩ :=
        exists_mask_of_role? (finishes.continues field List.mem_cons_self)
      have member := isMember_of_integral integral List.mem_cons_self masked
      obtain ⟨disjoint, later⟩ := (finishes_cons_iff member role).1 finishes
      exact .middle member role disjoint (ih (List.forall_mem_cons.1 integral).2 later)

theorem closes_of_isSegment {segment : List Field} (integral : Integral segment)
    (isSegment : IsSegment segment) (tail : Closes none rest) :
    Closes none (segment ++ rest) := by
  cases isSegment with
  | plain unmasked => exact .plain unmasked tail
  | @run first last middle width opens continues closes disjoint container fits =>
      obtain ⟨bits, masked, role⟩ := exists_mask_of_role? opens
      have member := isMember_of_integral integral List.mem_cons_self masked
      rw [masks_cons masked] at disjoint fits
      obtain ⟨fresh, disjoint⟩ := List.pairwise_cons.1 disjoint
      have finishes : Finishes bits.mask middle last :=
        ⟨continues, closes, fresh, disjoint, width, container, Width.le_maxValue_iff.2 fits⟩
      have closed := closes_of_finishes (List.forall_mem_cons.1 integral).2 finishes tail
      simpa using Closes.first member role closed

theorem closes_none_iff : Closes none fields ↔ Integral fields ∧ Segmented fields := by
  constructor
  · exact fun closes => ⟨closes.integral, closes.segmented⟩
  · rintro ⟨integral, segments, rfl, all⟩
    induction segments with
    | nil => exact .nil
    | cons segment segments ih =>
        obtain ⟨first, all⟩ := List.forall_mem_cons.1 all
        rw [List.flatten_cons] at integral ⊢
        obtain ⟨here, later⟩ := List.forall_mem_append.1 integral
        exact closes_of_isSegment here first (ih all later)

end Segments

/-- A list of declarations makes a layout exactly if the tags of each can be
read and the declared fields are well formed. -/
theorem exists_parse_iff_wellFormed (record : String) (declarations : List Declaration) :
    (∃ layout, parse record declarations = .ok layout) ↔
      ∃ fields, List.Forall₂ (Reads record) declarations fields ∧ WellFormed fields := by
  have loop : (∃ layout, parse record declarations = .ok layout) ↔
      ∃ checked, checkFrom {} declarations = .ok checked := by
    simp only [parse]
    cases checkFrom {} declarations <;> simp
  have started : Progress.claimed {} = none := rfl
  rw [loop, exists_checkFrom_iff record, started]
  constructor
  · rintro ⟨fields, reads, meaningful, closes⟩
    obtain ⟨integral, segmented⟩ := closes_none_iff.1 closes
    exact ⟨fields, reads, meaningful, integral, segmented⟩
  · rintro ⟨fields, reads, wellFormed⟩
    exact ⟨fields, reads, wellFormed.meaningful,
      closes_none_iff.2 ⟨wellFormed.integral, wellFormed.segmented⟩⟩

end Layout

end ZigbeeHost
