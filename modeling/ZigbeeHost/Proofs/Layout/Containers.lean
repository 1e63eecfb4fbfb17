import ZigbeeHost.Proofs.Layout.WellFormed

/-!
# What the codec may assume of a layout

The loop that checks declarations goes back to a field that it has passed: the first
field of a run learns its container only when the run closes, however many fields
later.  A condition, once resolved, holds a bare position.  This file says what is
true of both once the loop is done.  The ends of a run, and no other fields, carry
the container of its last field; and every position points back, at an integer of
the name that was asked for.
-/

namespace ZigbeeHost

namespace Layout

/-- What holds at the start, and is kept whenever the field of a declaration is added,
holds of the fields that are checked. -/
theorem invariant_of_parse {Invariant : Progress → Prop} (start : Invariant {})
    (step : ∀ {progress next : Progress} {declaration : Declaration} {tags : FieldTags},
      Invariant progress → checkTags progress.fields declaration = .ok tags →
      progress.add { name := declaration.name, shape := declaration.shape, tags } = .ok next →
      Invariant next)
    {record : String} {declarations : List Declaration} {layout : Layout}
    (parsed : parse record declarations = .ok layout) :
    Invariant { settled := layout.fields } := by
  have loop : ∀ (declarations : List Declaration) (progress : Progress) (fields : List Field),
      Invariant progress → checkFrom progress declarations = .ok fields →
        Invariant { settled := fields } := by
    intro declarations
    induction declarations with
    | nil =>
        rintro ⟨settled, run⟩ fields holds checked
        cases run with
        | none =>
            obtain rfl := Except.ok.inj checked
            exact holds
        | some run => cases checked
    | cons declaration declarations ih =>
        intro progress fields holds checked
        simp only [checkFrom] at checked
        split at checked
        · cases checked
        · rename_i next added
          simp only [addDeclaration] at added
          split at added
          · cases added
          · rename_i tags accepted
            exact ih next fields (step holds accepted added) checked
  simp only [parse] at parsed
  split at parsed
  · cases parsed
  · rename_i fields checked
    obtain rfl := Except.ok.inj parsed
    exact loop declarations {} fields start checked

section Conditions

variable {fields other : List Field} {field : Field}

/-- The position points at an integer field of the name. -/
def PointsAt (fields : List Field) (name : String) (index : Nat) : Prop :=
  ∃ target width, fields[index]? = some target ∧ target.name = name ∧
    target.shape.base = .uint width

/-- Every condition points at an integer field that stands before its own and has the
name of its target. -/
def Resolved (fields : List Field) : Prop :=
  ∀ (index : Nat) (field : Field) (condition : Condition),
    fields[index]? = some field → field.tags.condition = some condition →
      condition.index < index ∧ PointsAt fields condition.target condition.index

theorem pointsAt_of_integerIndex? {name : String} {index : Nat}
    (found : integerIndex? fields name = some index) : PointsAt fields name index := by
  simp only [integerIndex?, bind, Option.bind_eq_some_iff] at found
  obtain ⟨position, first, target, known, integer⟩ := found
  obtain ⟨suited, same⟩ := Option.ite_none_right_eq_some.1 integer
  obtain rfl := Option.some.inj same
  obtain ⟨width, known_width⟩ := Option.isSome_iff_exists.1 suited
  obtain ⟨inside, named, -⟩ := List.findIdx?_eq_some_iff_getElem.1 first
  obtain rfl : fields[position] = target := by simpa [inside] using known
  exact ⟨_, width, known, of_decide_eq_true named, Shape.uintWidth?_eq_some_iff.1 known_width⟩

/-- The containers of runs do not matter to conditions. -/
theorem PointsAt.congr_bare {name : String} {index : Nat} (points : PointsAt fields name index)
    (same : fields.map Field.bare = other.map Field.bare) : PointsAt other name index := by
  obtain ⟨target, width, known, named, integer⟩ := points
  have bare : (other.map Field.bare)[index]? = some target.bare := by
    rw [← same, List.getElem?_map, known, Option.map_some]
  rw [List.getElem?_map] at bare
  obtain ⟨moved, found, sameTarget⟩ := Option.map_eq_some_iff.1 bare
  have sameName : moved.name = target.name := (congrArg Field.name sameTarget :)
  have sameShape : moved.shape = target.shape := (congrArg Field.shape sameTarget :)
  exact ⟨moved, width, found, sameName.trans named, sameShape ▸ integer⟩

theorem Resolved.congr_bare (resolved : Resolved fields)
    (same : fields.map Field.bare = other.map Field.bare) : Resolved other := by
  intro index field condition known declared
  have bare : (fields.map Field.bare)[index]? = some field.bare := by
    rw [same, List.getElem?_map, known, Option.map_some]
  rw [List.getElem?_map] at bare
  obtain ⟨moved, found, sameField⟩ := Option.map_eq_some_iff.1 bare
  have tags : moved.tags = field.tags := (congrArg Field.tags sameField :)
  obtain ⟨back, points⟩ := resolved index moved condition found (tags ▸ declared)
  exact ⟨back, points.congr_bare same⟩

theorem PointsAt.append {name : String} {index : Nat} (points : PointsAt fields name index)
    (later : List Field) : PointsAt (fields ++ later) name index := by
  obtain ⟨target, width, known, suited⟩ := points
  obtain ⟨inside, -⟩ := List.getElem?_eq_some_iff.1 known
  exact ⟨target, width, by rw [List.getElem?_append_left inside, known], suited⟩

theorem PointsAt.lt_length {name : String} {index : Nat} (points : PointsAt fields name index) :
    index < fields.length := by
  obtain ⟨target, width, known, -⟩ := points
  exact (List.getElem?_eq_some_iff.1 known).1

theorem Resolved.concat (resolved : Resolved fields)
    (points : ∀ condition, field.tags.condition = some condition →
      PointsAt fields condition.target condition.index) : Resolved (fields ++ [field]) := by
  intro index other condition known declared
  rcases Nat.lt_or_ge index fields.length with inside | beyond
  · rw [List.getElem?_append_left inside] at known
    obtain ⟨back, points⟩ := resolved index other condition known declared
    exact ⟨back, points.append [field]⟩
  · rw [List.getElem?_append_right beyond] at known
    obtain ⟨-, rfl⟩ : index - fields.length = 0 ∧ field = other := by
      simpa [List.getElem?_singleton] using known
    have own := points condition declared
    exact ⟨Nat.lt_of_lt_of_le own.lt_length beyond, own.append [field]⟩

/-- What was resolved among the earlier fields points at one of them. -/
theorem pointsAt_of_checkTags {declaration : Declaration} {tags : FieldTags}
    (checked : checkTags fields declaration = .ok tags) {condition : Condition}
    (declared : tags.condition = some condition) :
    PointsAt fields condition.target condition.index := by
  obtain ⟨unresolved, -, -, -, -, resolved⟩ := checkTags_cases checked
  rcases resolveCondition_cases resolved with ⟨unconditional, rfl⟩ | ⟨_, index, -, -, found, rfl⟩
  · rw [unconditional] at declared
    cases declared
  · obtain rfl := Option.some.inj declared
    exact pointsAt_of_integerIndex? found

/-- The conditions of a checked layout are resolved. -/
theorem resolved_of_parse {record : String} {declarations : List Declaration} {layout : Layout}
    (parsed : parse record declarations = .ok layout) : Resolved layout.fields := by
  refine @invariant_of_parse (fun progress => Resolved progress.fields) ?_ ?_ _ _ _ parsed
  · intro index field condition known
    cases known
  · intro progress next declaration tags resolved accepted added
    have appended : Resolved (progress.fields ++
        [{ name := declaration.name, shape := declaration.shape, tags }]) :=
      resolved.concat fun condition declared => pointsAt_of_checkTags accepted declared
    refine appended.congr_bare ?_
    rw [Progress.bare_fields_of_add added, List.map_append]
    rfl

end Conditions

section Ends

variable {fields : List Field} {field : Field}

/-- A field that has a container is an end of a run. -/
def HeldAtEnd (field : Field) : Prop :=
  field.runWidth = none ∨ field.role? = some .first ∨ field.role? = some .last

/-- The fields so far hold containers at the ends of runs only, and a run that is open
has been opened by a first field. -/
structure Progress.AtEnds (progress : Progress) : Prop where
  held : ∀ field ∈ progress.fields, HeldAtEnd field
  opened : ∀ run, progress.run = some run → run.first.role? = some .first

theorem Progress.atEnds_of_add {progress next : Progress} (atEnds : progress.AtEnds)
    (bare : field.runWidth = none) (added : progress.add field = .ok next) : next.AtEnds := by
  have held := atEnds.held
  rcases Progress.add_cases added with
    ⟨-, closed, rfl⟩ | ⟨bits, member, role, closed, rfl⟩ | ⟨bits, run, -, -, opened, -, rfl⟩ |
      ⟨bits, run, width, member, role, opened, -, -, -, rfl⟩
  · simp only [Progress.fields, closed] at held
    refine ⟨List.forall_mem_append.2 ⟨held, List.forall_mem_singleton.2 (.inl bare)⟩, ?_⟩
    exact fun run opened => by cases opened
  · simp only [Progress.fields, closed] at held
    refine ⟨List.forall_mem_append.2 ⟨held, List.forall_mem_singleton.2 (.inl bare)⟩, ?_⟩
    intro run opened
    obtain rfl := Option.some.inj opened
    exact role ▸ role?_of_mask member.mask
  · simp only [Progress.fields, opened] at held
    refine ⟨?_, ?_⟩
    · simp only [Progress.fields, ← List.cons_append, ← List.append_assoc]
      exact List.forall_mem_append.2 ⟨held, List.forall_mem_singleton.2 (.inl bare)⟩
    · intro continued same
      obtain rfl := Option.some.inj same
      exact atEnds.opened run opened
  · simp only [Progress.fields, opened] at held
    obtain ⟨settled, held⟩ := List.forall_mem_append.1 held
    obtain ⟨-, members⟩ := List.forall_mem_cons.1 held
    refine ⟨List.forall_mem_append.2 ⟨settled, List.forall_mem_cons.2 ⟨?_, ?_⟩⟩, ?_⟩
    · exact .inr (.inl (atEnds.opened run opened))
    · refine List.forall_mem_append.2 ⟨members, List.forall_mem_singleton.2 ?_⟩
      exact .inr (.inr (role ▸ role?_of_mask member.mask))
    · exact fun run opened => by cases opened

theorem heldAtEnd_of_parse {record : String} {declarations : List Declaration} {layout : Layout}
    (parsed : parse record declarations = .ok layout) :
    ∀ field ∈ layout.fields, HeldAtEnd field := by
  have start : Progress.AtEnds {} :=
    { held := fun _ inside => by cases inside
      opened := fun _ opened => by cases opened }
  exact (invariant_of_parse start
    (fun atEnds _ added => Progress.atEnds_of_add atEnds rfl added) parsed).held

end Ends

/-- Fields that stand together, with their containers: one without a mask, or a bit run.
Both ends of a run, and none of the other fields, have the width and the byte order of
its last field; and all masks of the run fit in that width. -/
inductive IsSealed : List Field → Prop where
  | plain {field : Field} (unmasked : field.tags.bitMask = none)
      (bare : field.runWidth = none) : IsSealed [field]
  | run {first last : Field} {middle : List Field} {width : Width}
      (opens : first.role? = some .first)
      (continues : ∀ field ∈ middle, field.role? = some .middle ∧ field.runWidth = none)
      (closes : last.role? = some .last)
      (integer : last.shape.base = .uint width)
      (container : ∀ field ∈ [first, last],
        field.runWidth = some width ∧ field.runOrder = last.tags.order)
      (fits : ∀ mask ∈ masks (first :: (middle ++ [last])), mask < 2 ^ width.bits) :
      IsSealed (first :: (middle ++ [last]))

/-- The fields fall into unmasked fields and sealed runs. -/
def Sealed (fields : List Field) : Prop :=
  ∃ segments : List (List Field),
    fields = segments.flatten ∧ ∀ segment ∈ segments, IsSealed segment

section Runs

variable {fields middle : List Field} {field first last : Field} {bits : BitMask}
variable {container : Container}

/-- The fields that close an open run whose container is known. -/
structure Completes (container : Container) (middle : List Field) (last : Field) : Prop where
  continues : ∀ field ∈ middle, field.role? = some .middle ∧ field.runWidth = none
  closes : last.role? = some .last
  integer : last.shape.base = .uint container.width
  order : last.tags.order = container.order
  runWidth : last.runWidth = some container.width
  runOrder : last.runOrder = container.order
  used : container.used ≤ container.width.maxValue
  fits : ∀ mask ∈ masks (middle ++ [last]), mask ≤ container.width.maxValue

theorem Completes.cons (member : IsMember field bits) (role : bits.role = .middle)
    (bare : field.runWidth = none) (completes : Completes (container.claim bits.mask) middle last) :
    Completes container (field :: middle) last where
  continues :=
    List.forall_mem_cons.2 ⟨⟨role ▸ role?_of_mask member.mask, bare⟩, completes.continues⟩
  closes := completes.closes
  integer := completes.integer
  order := completes.order
  runWidth := completes.runWidth
  runOrder := completes.runOrder
  used := Nat.le_trans Nat.left_le_or completes.used
  fits := by
    rw [List.cons_append, masks_cons member.mask]
    exact List.forall_mem_cons.2
      ⟨Nat.le_trans Nat.right_le_or completes.used, completes.fits⟩

theorem isSealed_of_completes {width : Width} {order : ByteOrder}
    (member : IsMember first bits) (role : bits.role = .first)
    (runWidth : first.runWidth = some width) (runOrder : first.runOrder = order)
    (completes : Completes { width, order, used := bits.mask } middle last) :
    IsSealed (first :: (middle ++ [last])) := by
  have lastOrder : last.tags.order = order := completes.order
  refine .run (role ▸ role?_of_mask member.mask) completes.continues completes.closes
    completes.integer (List.forall_mem_cons.2 ⟨⟨runWidth, ?_⟩, List.forall_mem_singleton.2 ?_⟩) ?_
  · rw [runOrder, lastOrder]
  · exact ⟨completes.runWidth, by rw [completes.runOrder, lastOrder]⟩
  · rw [masks_cons member.mask]
    refine List.forall_mem_cons.2 ⟨Width.le_maxValue_iff.1 completes.used, fun mask inside => ?_⟩
    exact Width.le_maxValue_iff.1 (completes.fits mask inside)

/-- Runs are sealed if containers are held at their ends only, after the fields that
close the run which is open. -/
theorem Runs.sealed {opened : Option Container} (runs : Runs opened fields)
    (held : ∀ field ∈ fields, HeldAtEnd field) :
    match opened with
    | none => Sealed fields
    | some container => ∃ middle last rest, fields = middle ++ last :: rest ∧
        Completes container middle last ∧ Sealed rest := by
  induction runs with
  | nil => exact ⟨[], rfl, fun _ inside => by cases inside⟩
  | plain unmasked tail ih =>
      obtain ⟨own, held⟩ := List.forall_mem_cons.1 held
      refine exists_parts_append (.plain unmasked ?_) (ih held)
      simpa [HeldAtEnd, Field.role?, unmasked] using own
  | first member role runWidth runOrder tail ih =>
      obtain ⟨middle, last, rest, rfl, completes, later⟩ := ih (List.forall_mem_cons.1 held).2
      have run := isSealed_of_completes member role runWidth runOrder completes
      simpa [Sealed] using exists_parts_append run later
  | middle member role disjoint tail ih =>
      obtain ⟨own, held⟩ := List.forall_mem_cons.1 held
      obtain ⟨middle, last, rest, rfl, completes, later⟩ := ih held
      refine ⟨_ :: middle, last, rest, rfl, completes.cons member role ?_, later⟩
      simpa [HeldAtEnd, role?_of_mask member.mask, role] using own
  | last member role disjoint width order runWidth runOrder fits tail ih =>
      refine ⟨[], _, _, rfl, ?_, ih (List.forall_mem_cons.1 held).2⟩
      exact
        { continues := fun _ inside => by cases inside
          closes := role ▸ role?_of_mask member.mask
          integer := Shape.uintWidth?_eq_some_iff.1 width
          order := order
          runWidth := runWidth
          runOrder := runOrder
          used := Nat.le_trans Nat.left_le_or fits
          fits := by
            rw [List.nil_append, masks_cons member.mask]
            exact List.forall_mem_singleton.2 (Nat.le_trans Nat.right_le_or fits) }

/-- The ends of a sealed run know the container. -/
theorem Sealed.exists_width (isSealed : Sealed fields) (inside : field ∈ fields)
    (isEnd : field.role? = some .first ∨ field.role? = some .last) :
    ∃ width, field.runWidth = some width := by
  obtain ⟨segments, rfl, all⟩ := isSealed
  obtain ⟨segment, listed, inside⟩ := List.mem_flatten.1 inside
  cases all segment listed with
  | plain unmasked =>
      obtain rfl := List.mem_singleton.1 inside
      simp [Field.role?, unmasked] at isEnd
  | run opens continues closes integer container =>
      rcases List.mem_cons.1 inside with rfl | inside
      · exact ⟨_, (container _ (by simp)).1⟩
      · rcases List.mem_append.1 inside with inside | inside
        · simp [(continues field inside).1] at isEnd
        · obtain rfl := List.mem_singleton.1 inside
          exact ⟨_, (container _ (by simp)).1⟩

end Runs

section Parsed

variable {record : String} {declarations : List Declaration} {layout : Layout}

/-- The runs of a checked layout are sealed. -/
theorem sealed_of_parse (parsed : parse record declarations = .ok layout) :
    Sealed layout.fields :=
  (runs_of_parse parsed).sealed (heldAtEnd_of_parse parsed)

theorem record_of_parse (parsed : parse record declarations = .ok layout) :
    layout.record = record := by
  simp only [parse] at parsed
  split at parsed
  · cases parsed
  · obtain rfl := Except.ok.inj parsed
    rfl

/-- The fields of a checked layout have the names and shapes that were declared, in the
same order. -/
theorem signatures_of_parse (parsed : parse record declarations = .ok layout) :
    layout.fields.map signature =
      declarations.map fun declaration => (declaration.name, declaration.shape) := by
  have declares := declares_of_parse parsed
  clear parsed
  generalize layout.fields = fields at declares
  induction declares with
  | nil => rfl
  | cons own _ ih => rw [List.map_cons, List.map_cons, ih, signature, own.name, own.shape]

theorem suits_of_parse (parsed : parse record declarations = .ok layout) :
    ∀ field ∈ layout.fields, Suits field.shape field.tags := by
  have suits := (declares_of_parse parsed).imp fun _ _ declared =>
    And.intro declared.suits True.intro
  exact ((List.forall₂_and_left _ _).1 suits).1

end Parsed

end Layout

end ZigbeeHost
