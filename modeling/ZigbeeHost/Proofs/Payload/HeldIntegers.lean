import ZigbeeHost.Proofs.Payload.Reencoding

/-!
# Which types hold integers

Layouts judge a field by the shape of its type, while bit runs and conditions
ask the value itself for its integer, or tell it to store one.  Shape and value
agree at every depth of optional layers: a type whose shape is an integer always
stores, and has an integer to show unless one of the layers is empty, and any
other type neither stores nor shows one.
-/

namespace ZigbeeHost.WireType

/-- One of the optional layers around the value is empty. -/
inductive IsMissing : (type : WireType) → type.Value → Prop
  | outermost (inner : WireType) : IsMissing (.optional inner) none
  | inside {inner : WireType} {held : inner.Value} (missing : IsMissing inner held) :
      IsMissing (.optional inner) (some held)

theorem isMissing_some_iff {inner : WireType} {held : inner.Value} :
    IsMissing (.optional inner) (some held) ↔ inner.IsMissing held := by
  constructor
  · intro missing
    cases missing with
    | inside missing => exact missing
  · exact .inside

/-- Whether an integer is stored depends on the shape alone. -/
theorem stores_eq_isSome : (type : WireType) → (value : type.Value) → (number : Nat) →
    (type.setUint value number).1 = type.shape.uintWidth?.isSome
  | .uint _, _, _ => rfl
  | .optional inner, value, number => inner.stores_eq_isSome (value.getD inner.default) number
  | .text, _, _ | .unit, _, _ | .list _, _, _ | .array _ _, _, _ => rfl
  | .record _ _ _, _, _ | .variant _ _ _ _, _, _ => rfl

/-- There is no integer where the shape has none, or where a layer is empty. -/
theorem asUint_eq_none_iff : (type : WireType) → (value : type.Value) →
    (type.asUint value = none ↔ type.shape.uintWidth? = none ∨ type.IsMissing value)
  | .uint _, value => by
      constructor
      · intro absent
        cases absent
      · rintro (other | missing)
        · cases other
        · cases missing
  | .optional inner, none => iff_of_true rfl (.inr (.outermost inner))
  | .optional inner, some held => by
      rw [isMissing_some_iff]
      exact inner.asUint_eq_none_iff held
  | .text, _ | .unit, _ | .list _, _ | .array _ _, _ => iff_of_true rfl (.inl rfl)
  | .record _ _ _, _ | .variant _ _ _ _, _ => iff_of_true rfl (.inl rfl)

/-- For every type, however often its values are optional: if its shape is an
integer then every number can be stored in every value, the value then holds the
number cut to its width, and a value holds no integer exactly if one of its
optional layers is empty.  If its shape is anything else then no value stores or
holds an integer. -/
theorem integers_follow_shape (type : WireType) :
    (∀ width, type.shape.base = .uint width → ∀ (value : type.Value) (number : Nat),
      (type.setUint value number).1 = true ∧
        type.asUint (type.setUint value number).2 = some (number % 2 ^ (8 * width.bytes)) ∧
          (type.asUint value = none ↔ type.IsMissing value)) ∧
    ((∀ width, type.shape.base ≠ .uint width) → ∀ (value : type.Value) (number : Nat),
      (type.setUint value number).1 = false ∧ type.asUint value = none) := by
  refine ⟨fun width integer value number => ?_, fun other value number => ?_⟩
  · have known : type.shape.uintWidth? = some width := Shape.uintWidth?_eq_some_iff.2 integer
    refine ⟨?_, asUint_setUint type known value number, ?_⟩
    · rw [stores_eq_isSome, known, Option.isSome_some]
    · simp [asUint_eq_none_iff, known]
  · have unknown : type.shape.uintWidth? = none := by
      refine Option.eq_none_iff_forall_ne_some.2 fun width known => ?_
      exact other width (Shape.uintWidth?_eq_some_iff.1 known)
    refine ⟨?_, (type.asUint_eq_none_iff value).2 (.inl unknown)⟩
    rw [stores_eq_isSome, unknown, Option.isSome_none]

/-- The inner one of two optional layers is empty, and a number of three bytes is
stored into the word of two bytes below; a list under an optional layer stores
nothing. -/
theorem integers_follow_shape_of_two_layers :
    let word : WireType := .optional (.optional (.uint .two))
    let octets : WireType := .optional (.list (.uint .one))
    word.shape.base = .uint .two ∧ (word.setUint (some none) 0x12345).1 = true ∧
      word.asUint (word.setUint (some none) 0x12345).2 = some 0x2345 ∧
        (word.asUint (some none) = none ↔ word.IsMissing (some none)) ∧
          (∀ width, octets.shape.base ≠ .uint width) ∧ (octets.setUint none 7).1 = false ∧
            octets.asUint (some [7]) = none := by
  intro word octets
  have listed (width : Width) : octets.shape.base ≠ .uint width := by
    simp [octets, shape, Shape.base]
  obtain ⟨stored, shown, missing⟩ :=
    (integers_follow_shape word).1 .two rfl (some none) 0x12345
  have ignored := (integers_follow_shape octets).2 listed
  exact ⟨rfl, stored, shown, missing, listed, (ignored none 7).1, (ignored (some [7]) 7).2⟩

end ZigbeeHost.WireType
