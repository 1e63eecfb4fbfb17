import ZigbeeHost.Payload.Width

/-!
# Shapes

The shape of a field tells which tags may apply to it: what kind of value the
field holds, with the names and contents of records left out.
-/

namespace ZigbeeHost

/-- The kind of value a field holds. -/
inductive Shape where
  | uint (width : Width)
  /-- Plain text, or an address as text. -/
  | text
  | array
  | list (element : Shape)
  | record
  | optional (inner : Shape)
  | variant
deriving DecidableEq, Repr

namespace Shape

/-- The shape of the value when it is present, however often it is optional. -/
def base : Shape → Shape
  | .optional inner => inner.base
  | shape => shape

/-- The shape of a present element of a list; any other shape is its own. -/
def element : Shape → Shape
  | .list inner => inner.base
  | shape => shape

/-- The width of an integer that may be optional. -/
def uintWidth? (shape : Shape) : Option Width :=
  match shape.base with
  | .uint width => some width
  | _ => none

@[simp] theorem base_base (shape : Shape) : shape.base.base = shape.base := by
  induction shape with
  | optional inner ih => exact ih
  | _ => rfl

theorem uintWidth?_eq_some_iff {shape : Shape} {width : Width} :
    shape.uintWidth? = some width ↔ shape.base = .uint width := by
  unfold uintWidth?
  split <;> simp_all

end Shape

end ZigbeeHost
