import ZigbeeHost.Payload.Layout
import Mathlib.Data.List.Forall2

/-!
# What a checked layout guarantees

Checking goes through the declarations from left to right and keeps an open
bit run aside until its last field fixes the container.  This file says what a
single step of that loop can do and derives what holds of every layout that
passes: its fields are the declared ones with tags that suit their shapes, and
its masked fields form complete bit runs with disjoint masks that fit in the
container.
-/

namespace ZigbeeHost

/-- The field without the container that its run has given it. -/
def Field.bare (field : Field) : Field :=
  { field with runWidth := none, runOrder := .little }

@[simp]
theorem Field.bare_withContainer (field : Field) (width : Width) (order : ByteOrder) :
    (field.withContainer width order).bare = field.bare :=
  rfl

namespace FieldTags

@[simp]
theorem Draft.field_add (draft : Draft) (tag : Tag) :
    (draft.add tag).tags.field = draft.tags.field := by
  cases tag <;> rfl

theorem field_of_readPairs {draft result : Draft} {pairs : List (String × String)}
    (read : readPairs draft pairs = .ok result) : result.tags.field = draft.tags.field := by
  induction pairs generalizing draft with
  | nil =>
      obtain rfl := Except.ok.inj read
      rfl
  | cons pair pairs ih =>
      simp only [readPairs] at read
      cases tagged : Tag.read pair with
      | error fault => simp [tagged] at read
      | ok tag =>
          rw [tagged] at read
          rw [ih read, Draft.field_add]

theorem field_of_finish {draft : Draft} {tags : FieldTags} (finished : draft.finish = .ok tags) :
    tags.field = draft.tags.field := by
  simp only [Draft.finish] at finished
  split at finished
  · cases finished
  · rw [← Except.ok.inj finished]
  · rw [← Except.ok.inj finished]

theorem field_of_read {field : String} {pairs : List (String × String)} {tags : FieldTags}
    (read : FieldTags.read field pairs = .ok tags) : tags.field = field := by
  simp only [FieldTags.read] at read
  cases known : readPairs { tags := { field } } pairs with
  | error fault => simp [known] at read
  | ok draft =>
      rw [known] at read
      rw [field_of_finish read, field_of_readPairs known]

end FieldTags

namespace Layout

/-- The tags of a field of the given shape are used where they mean
something. -/
structure Suits (shape : Shape) (tags : FieldTags) : Prop where
  hex : tags.hex.isSome → shape.base.element = .text
  length : tags.length.isSome → isDynamic shape tags = true
  bound : ∀ bound, tags.bound = some bound →
    tags.bitMask = none ∧
      ∃ declared, shape.uintWidth? = some declared ∧ bound ≤ declared.bytes
  condition : tags.bitMask.isSome → tags.condition = none

/-- A field is the checked form of a declaration, whatever its container. -/
structure Declares (field : Field) (declaration : Declaration) : Prop where
  name : field.name = declaration.name
  shape : field.shape = declaration.shape
  suits : Suits field.shape field.tags

theorem hex_of_checkHex {shape : Shape} {tags : FieldTags}
    (checked : checkHex shape tags = .ok ()) :
    tags.hex.isSome → shape.base.element = .text := by
  intro tagged
  by_contra other
  simp [checkHex, tagged, other] at checked

theorem length_of_checkLength {shape : Shape} {tags : FieldTags}
    (checked : checkLength shape tags = .ok ()) :
    tags.length.isSome → isDynamic shape tags = true := by
  intro tagged
  by_contra other
  simp [checkLength, tagged, other] at checked

theorem bound_of_checkBound {shape : Shape} {tags : FieldTags}
    (checked : checkBound shape tags = .ok ()) {bound : Nat}
    (tagged : tags.bound = some bound) :
    tags.bitMask = none ∧
      ∃ declared, shape.uintWidth? = some declared ∧ bound ≤ declared.bytes := by
  simp only [checkBound, tagged] at checked
  cases width : shape.uintWidth? with
  | none => simp [width] at checked
  | some declared =>
      simp only [width] at checked
      split at checked
      · cases checked
      · rename_i unmasked
        split at checked
        · cases checked
        · rename_i narrow
          exact ⟨by simpa using unmasked, declared, rfl, Nat.not_lt.1 narrow⟩

theorem resolveCondition_cases {earlier : List Field} {tags resolved : FieldTags}
    (checked : resolveCondition earlier tags = .ok resolved) :
    (tags.condition = none ∧ resolved = tags) ∨
      ∃ condition index, tags.condition = some condition ∧ tags.bitMask = none ∧
        integerIndex? earlier condition.target = some index ∧
          resolved = { tags with condition := some { condition with index } } := by
  cases declared : tags.condition with
  | none =>
      simp only [resolveCondition, declared, Except.ok.injEq] at checked
      exact .inl ⟨rfl, checked.symm⟩
  | some condition =>
      simp only [resolveCondition, declared] at checked
      split at checked
      · cases checked
      · rename_i unmasked
        cases found : integerIndex? earlier condition.target with
        | none => simp [found] at checked
        | some index =>
            simp only [found, Except.ok.injEq] at checked
            exact .inr ⟨condition, index, rfl, by simpa using unmasked, found, checked.symm⟩

theorem checkTags_cases {earlier : List Field} {declaration : Declaration} {tags : FieldTags}
    (checked : checkTags earlier declaration = .ok tags) :
    ∃ declared, FieldTags.read declaration.name declaration.tags = .ok declared ∧
      checkHex declaration.shape declared = .ok () ∧
      checkLength declaration.shape declared = .ok () ∧
      checkBound declaration.shape declared = .ok () ∧
      resolveCondition earlier declared = .ok tags := by
  simp only [checkTags, bind, Except.bind] at checked
  cases read : FieldTags.read declaration.name declaration.tags with
  | error fault => simp [read] at checked
  | ok declared =>
      cases hex : checkHex declaration.shape declared with
      | error fault => simp [read, hex] at checked
      | ok done =>
          cases length : checkLength declaration.shape declared with
          | error fault => simp [read, hex, length] at checked
          | ok done =>
              cases bound : checkBound declaration.shape declared with
              | error fault => simp [read, hex, length, bound] at checked
              | ok done =>
                  simp only [read, hex, length, bound] at checked
                  exact ⟨declared, rfl, hex, length, bound, checked⟩

theorem suits_of_checkTags {earlier : List Field} {declaration : Declaration} {tags : FieldTags}
    (checked : checkTags earlier declaration = .ok tags) :
    Suits declaration.shape tags := by
  obtain ⟨declared, -, hex, length, bound, resolved⟩ := checkTags_cases checked
  rcases resolveCondition_cases resolved with
    ⟨unconditional, rfl⟩ | ⟨condition, index, -, unmasked, -, rfl⟩
  · exact
      { hex := hex_of_checkHex hex
        length := length_of_checkLength length
        bound := fun _ => bound_of_checkBound bound
        condition := fun _ => unconditional }
  · exact
      { hex := hex_of_checkHex hex
        length := length_of_checkLength length
        bound := fun _ => bound_of_checkBound bound
        condition := fun masked => by simp [unmasked] at masked }

/-- The container of an open bit run, and the bits claimed so far. -/
structure Container where
  width : Width
  order : ByteOrder
  used : Nat

def Container.claim (container : Container) (mask : Nat) : Container :=
  { container with used := container.used ||| mask }

/-- A field with a mask, which is an integer. -/
structure IsMember (field : Field) (bits : BitMask) : Prop where
  mask : field.tags.bitMask = some bits
  integer : field.shape.uintWidth?.isSome = true

/-- The fields consist of unmasked fields and complete bit runs; inside a run
they start with the rest of that run. -/
inductive Runs : Option Container → List Field → Prop where
  | nil : Runs none []
  | plain {field : Field} {rest : List Field} (unmasked : field.tags.bitMask = none)
      (tail : Runs none rest) : Runs none (field :: rest)
  | first {field : Field} {rest : List Field} {bits : BitMask} {width : Width}
      {order : ByteOrder} (member : IsMember field bits) (role : bits.role = .first)
      (runWidth : field.runWidth = some width) (runOrder : field.runOrder = order)
      (tail : Runs (some { width, order, used := bits.mask }) rest) :
      Runs none (field :: rest)
  | middle {field : Field} {rest : List Field} {bits : BitMask} {container : Container}
      (member : IsMember field bits) (role : bits.role = .middle)
      (disjoint : container.used &&& bits.mask = 0)
      (tail : Runs (some (container.claim bits.mask)) rest) :
      Runs (some container) (field :: rest)
  | last {field : Field} {rest : List Field} {bits : BitMask} {container : Container}
      (member : IsMember field bits) (role : bits.role = .last)
      (disjoint : container.used &&& bits.mask = 0)
      (width : field.shape.uintWidth? = some container.width)
      (order : field.tags.order = container.order)
      (runWidth : field.runWidth = some container.width)
      (runOrder : field.runOrder = container.order)
      (fits : container.used ||| bits.mask ≤ container.width.maxValue)
      (tail : Runs none rest) :
      Runs (some container) (field :: rest)

/-- What adding a field can do: it stands alone, or it opens, continues or
closes a run. -/
theorem Progress.add_cases {progress next : Progress} {field : Field}
    (added : progress.add field = .ok next) :
    (field.tags.bitMask = none ∧ progress.run = none ∧
      next = { settled := progress.settled ++ [field] }) ∨
    (∃ bits, IsMember field bits ∧ bits.role = .first ∧ progress.run = none ∧
      next = { progress with run := some { first := field, members := [], used := bits.mask } }) ∨
    (∃ bits run, IsMember field bits ∧ bits.role = .middle ∧ progress.run = some run ∧
      run.used &&& bits.mask = 0 ∧
      next = { progress with
        run := some { run with
          members := run.members ++ [field], used := run.used ||| bits.mask } }) ∨
    (∃ bits run width, IsMember field bits ∧ bits.role = .last ∧ progress.run = some run ∧
      run.used &&& bits.mask = 0 ∧ field.shape.uintWidth? = some width ∧
      run.used ||| bits.mask ≤ width.maxValue ∧
      next = { settled := progress.settled ++ run.first.withContainer width field.tags.order ::
        (run.members ++ [field.withContainer width field.tags.order]) }) := by
  cases masked : field.tags.bitMask with
  | none =>
      cases opened : progress.run with
      | none =>
          simp only [Progress.add, masked, opened, Except.ok.injEq] at added
          exact .inl ⟨rfl, rfl, by rw [← added]⟩
      | some run => simp [Progress.add, masked, opened] at added
  | some bits =>
      cases integer : field.shape.uintWidth? with
      | none => simp [Progress.add, masked, integer] at added
      | some width =>
          have member : IsMember field bits := ⟨masked, by simp [integer]⟩
          cases opened : progress.run with
          | none =>
              cases role : bits.role with
              | first =>
                  simp only [Progress.add, masked, integer, opened, role,
                    Except.ok.injEq] at added
                  exact .inr (.inl ⟨bits, member, role, rfl, added.symm⟩)
              | middle => simp [Progress.add, masked, integer, opened, role] at added
              | last => simp [Progress.add, masked, integer, opened, role] at added
          | some run =>
              cases role : bits.role with
              | first => simp [Progress.add, masked, integer, opened, role] at added
              | middle =>
                  simp only [Progress.add, masked, integer, opened, role,
                    Progress.extendRun] at added
                  split at added
                  · cases added
                  · rename_i disjoint
                    simp only [reduceCtorEq, if_false, Except.mapError, Except.ok.injEq] at added
                    exact .inr (.inr (.inl ⟨bits, run, member, role, rfl,
                      not_not.1 disjoint, added.symm⟩))
              | last =>
                  simp only [Progress.add, masked, integer, opened, role,
                    Progress.extendRun] at added
                  split at added
                  · cases added
                  · rename_i disjoint
                    simp only [if_true] at added
                    split at added
                    · cases added
                    · rename_i fits
                      simp only [Except.mapError, Except.ok.injEq] at added
                      exact .inr (.inr (.inr ⟨bits, run, width, member, role, rfl,
                        not_not.1 disjoint, rfl, Nat.not_lt.1 fits, added.symm⟩))

/-- The fields start with those that are settled, and go on with complete runs;
an open run has got its container. -/
def Progress.CompletedBy (progress : Progress) (fields : List Field) : Prop :=
  match progress.run with
  | none => ∃ added, fields = progress.settled ++ added ∧ Runs none added
  | some run =>
      ∃ width order added,
        fields = progress.settled ++
            run.first.withContainer width order :: (run.members ++ added) ∧
          Runs (some { width, order, used := run.used }) added

theorem Progress.completedBy_of_add {progress next : Progress} {field : Field}
    {fields : List Field} (added : progress.add field = .ok next)
    (completed : next.CompletedBy fields) : progress.CompletedBy fields := by
  rcases Progress.add_cases added with
    ⟨unmasked, closed, rfl⟩ | ⟨bits, member, role, closed, rfl⟩ |
      ⟨bits, run, member, role, opened, disjoint, rfl⟩ |
        ⟨bits, run, width, member, role, opened, disjoint, integer, fits, rfl⟩
  · obtain ⟨rest, rfl, runs⟩ := completed
    simp only [Progress.CompletedBy, closed]
    exact ⟨field :: rest, by simp, .plain unmasked runs⟩
  · obtain ⟨width, order, rest, rfl, runs⟩ := completed
    simp only [Progress.CompletedBy, closed]
    exact ⟨field.withContainer width order :: rest, by simp,
      .first ⟨member.mask, member.integer⟩ role rfl rfl runs⟩
  · obtain ⟨width, order, rest, rfl, runs⟩ := completed
    simp only [Progress.CompletedBy, opened]
    exact ⟨width, order, field :: rest, by simp, .middle member role disjoint runs⟩
  · obtain ⟨rest, rfl, runs⟩ := completed
    simp only [Progress.CompletedBy, opened]
    exact ⟨width, field.tags.order, field.withContainer width field.tags.order :: rest, by simp,
      .last ⟨member.mask, member.integer⟩ role disjoint integer rfl rfl rfl fits runs⟩

theorem completedBy_of_checkFrom {progress : Progress} {declarations : List Declaration}
    {fields : List Field} (checked : checkFrom progress declarations = .ok fields) :
    progress.CompletedBy fields := by
  induction declarations generalizing progress with
  | nil =>
      simp only [checkFrom, Progress.finish] at checked
      cases opened : progress.run with
      | none =>
          simp only [opened, Except.ok.injEq] at checked
          simp only [Progress.CompletedBy, opened]
          exact ⟨[], by simp [checked], .nil⟩
      | some run => simp [opened] at checked
  | cons declaration declarations ih =>
      simp only [checkFrom] at checked
      split at checked
      · cases checked
      · rename_i next added
        simp only [addDeclaration] at added
        split at added
        · cases added
        · exact Progress.completedBy_of_add added (ih checked)

/-- The masked fields of a checked layout form complete bit runs. -/
theorem runs_of_parse {record : String} {declarations : List Declaration} {layout : Layout}
    (parsed : parse record declarations = .ok layout) : Runs none layout.fields := by
  simp only [parse] at parsed
  split at parsed
  · cases parsed
  · rename_i fields checked
    obtain rfl := Except.ok.inj parsed
    obtain ⟨added, rfl, runs⟩ := completedBy_of_checkFrom checked
    exact runs

theorem Progress.bare_fields_of_add {progress next : Progress} {field : Field}
    (added : progress.add field = .ok next) :
    next.fields.map Field.bare = progress.fields.map Field.bare ++ [field.bare] := by
  rcases Progress.add_cases added with
    ⟨-, closed, rfl⟩ | ⟨bits, -, -, closed, rfl⟩ |
      ⟨bits, run, -, -, opened, -, rfl⟩ | ⟨bits, run, width, -, -, opened, -, -, -, rfl⟩
  · simp [Progress.fields, closed]
  · simp [Progress.fields, closed]
  · simp [Progress.fields, opened]
  · simp [Progress.fields, opened]

/-- What holds of every declaration and its checked tags holds of the declarations and
the fields that are added for them. -/
theorem forall₂_of_checkFrom {related : Field → Declaration → Prop}
    (each : ∀ earlier declaration tags, checkTags earlier declaration = .ok tags →
      related { name := declaration.name, shape := declaration.shape, tags } declaration)
    {progress : Progress} {declarations : List Declaration} {fields : List Field}
    (checked : checkFrom progress declarations = .ok fields) :
    ∃ added, fields.map Field.bare = progress.fields.map Field.bare ++ added ∧
      List.Forall₂ related added declarations := by
  induction declarations generalizing progress with
  | nil =>
      simp only [checkFrom, Progress.finish] at checked
      cases opened : progress.run with
      | none =>
          simp only [opened, Except.ok.injEq] at checked
          exact ⟨[], by simp [Progress.fields, opened, checked], .nil⟩
      | some run => simp [opened] at checked
  | cons declaration declarations ih =>
      simp only [checkFrom] at checked
      split at checked
      · cases checked
      · rename_i next added
        simp only [addDeclaration] at added
        split at added
        · cases added
        · rename_i tags accepted
          obtain ⟨later, fieldsEq, others⟩ := ih checked
          let field : Field := { name := declaration.name, shape := declaration.shape, tags }
          refine ⟨field :: later, ?_, .cons (each _ _ _ accepted) others⟩
          rw [fieldsEq, Progress.bare_fields_of_add added, List.append_assoc]
          rfl

/-- The same for a whole layout, if the containers of runs do not matter. -/
theorem forall₂_of_parse {related : Field → Declaration → Prop}
    (each : ∀ earlier declaration tags, checkTags earlier declaration = .ok tags →
      related { name := declaration.name, shape := declaration.shape, tags } declaration)
    (contained : ∀ field declaration, related field.bare declaration → related field declaration)
    {record : String} {declarations : List Declaration} {layout : Layout}
    (parsed : parse record declarations = .ok layout) :
    List.Forall₂ related layout.fields declarations := by
  simp only [parse] at parsed
  split at parsed
  · cases parsed
  · rename_i fields checked
    obtain rfl := Except.ok.inj parsed
    obtain ⟨added, bareEq, all⟩ := forall₂_of_checkFrom each checked
    have bare : fields.map Field.bare = added := bareEq
    rw [← bare, List.forall₂_map_left_iff] at all
    exact all.imp contained

/-- The fields of a checked layout are the declared ones, in order, and their
tags suit their shapes. -/
theorem declares_of_parse {record : String} {declarations : List Declaration} {layout : Layout}
    (parsed : parse record declarations = .ok layout) :
    List.Forall₂ Declares layout.fields declarations :=
  forall₂_of_parse (fun _ _ _ checked => ⟨rfl, rfl, suits_of_checkTags checked⟩)
    (fun _ _ same => ⟨same.name, same.shape, same.suits⟩) parsed

/-- The tags of a checked field carry the name that was declared. -/
theorem field_of_checkTags {earlier : List Field} {declaration : Declaration} {tags : FieldTags}
    (checked : checkTags earlier declaration = .ok tags) : tags.field = declaration.name := by
  obtain ⟨declared, read, -, -, -, resolved⟩ := checkTags_cases checked
  have named := FieldTags.field_of_read read
  rcases resolveCondition_cases resolved with ⟨-, rfl⟩ | ⟨_, _, -, -, -, rfl⟩ <;> exact named

/-- Errors at the fields of a checked layout give the names that were declared. -/
theorem named_of_parse {record : String} {declarations : List Declaration} {layout : Layout}
    (parsed : parse record declarations = .ok layout) :
    List.Forall₂ (fun field declaration => field.tags.field = declaration.name)
      layout.fields declarations :=
  forall₂_of_parse (fun _ _ _ => field_of_checkTags) (fun _ _ named => named) parsed

end Layout

end ZigbeeHost
