import ZigbeeHost.Payload.Layout

/-!
# Wire types and their values

A wire type describes what a payload, or a part of it, holds. Records and
variants carry their own cons lists of fields and alternatives, so that every
definition on types is structurally recursive. `Value` gives the values of a
type: a record's values are a tuple of its fields' values, and a variant's
value is a choice among its alternatives.
-/

namespace ZigbeeHost

mutual

/-- The type of a payload or of a part of it. -/
inductive WireType where
  | uint (width : Width)
  /-- Plain text, or an address as text. -/
  | text
  /-- Nothing: no bytes and a single value. -/
  | unit
  | list (element : WireType)
  | array (element : WireType) (count : Nat)
  /-- A value that may be missing at the end of a payload. -/
  | optional (inner : WireType)
  /-- Named fields in wire order. With a limit only that many leading fields
  travel; the layout still covers all of them. -/
  | record (name : String) (fields : Fields) (limit : Option Nat)
  /-- One of several alternatives, chosen by the caller and not on the wire. -/
  | variant (name : String) (label : String) (first : WireType) (others : Alternatives)

/-- The fields of a record. -/
inductive Fields where
  | nil
  | cons (name : String) (type : WireType) (tags : List (String × String)) (rest : Fields)

/-- The alternatives of a variant after the first. -/
inductive Alternatives where
  | nil
  | cons (label : String) (type : WireType) (rest : Alternatives)

end

deriving instance DecidableEq for WireType

/-- A fixed number of values of one type. -/
@[reducible] def Tuple (α : Type) : Nat → Type
  | 0 => Unit
  | count + 1 => α × Tuple α count

namespace Tuple

/-- The same value at every place. -/
def replicate {α : Type} (value : α) : (count : Nat) → Tuple α count
  | 0 => ()
  | count + 1 => (value, replicate value count)

/-- The values in order. -/
def toList {α : Type} : (count : Nat) → Tuple α count → List α
  | 0, _ => []
  | count + 1, (value, rest) => value :: toList count rest

@[simp] theorem length_toList {α : Type} (count : Nat) (values : Tuple α count) :
    (toList count values).length = count := by
  induction count with
  | zero => rfl
  | succ count ih => simp [toList, ih]

end Tuple

mutual

/-- The values of a type. -/
@[reducible] def WireType.Value : WireType → Type
  | .uint width => BitVec width.bits
  | .text => String
  | .unit => Unit
  | .list element => List element.Value
  | .array element count => Tuple element.Value count
  | .optional inner => Option inner.Value
  | .record _ fields _ => fields.Values
  | .variant _ _ first others => first.Value ⊕ others.Choice

/-- The values of the fields of a record, as a tuple. -/
@[reducible] def Fields.Values : Fields → Type
  | .nil => Unit
  | .cons _ type _ rest => type.Value × rest.Values

/-- A value of one of the alternatives. -/
@[reducible] def Alternatives.Choice : Alternatives → Type
  | .nil => Empty
  | .cons _ type rest => type.Value ⊕ rest.Choice

end

mutual

/-- The value before anything has been stored: zero, empty, missing, or the
first alternative. -/
def WireType.default : (type : WireType) → type.Value
  | .uint width => BitVec.ofNat width.bits 0
  | .text => ""
  | .unit => ()
  | .list _ => []
  | .array element count => Tuple.replicate element.default count
  | .optional _ => none
  | .record _ fields _ => fields.default
  | .variant _ _ first _ => .inl first.default

/-- The default value of every field. -/
def Fields.default : (fields : Fields) → fields.Values
  | .nil => ()
  | .cons _ type _ rest => (type.default, rest.default)

end

namespace Fields

/-- The fields in the order of a list of names, types and tags. -/
@[reducible] def ofList : List (String × WireType × List (String × String)) → Fields
  | [] => .nil
  | (name, type, tags) :: rest => .cons name type tags (ofList rest)

end Fields

namespace Alternatives

/-- The alternatives in the order of a list of labels and types. -/
@[reducible] def ofList : List (String × WireType) → Alternatives
  | [] => .nil
  | (label, type) :: rest => .cons label type (ofList rest)

end Alternatives

namespace WireType

/-- The shape that decides which tags apply to a field of this type. -/
def shape : WireType → Shape
  | .uint width => .uint width
  | .text => .text
  | .unit => .record
  | .list element => .list element.shape
  | .array _ _ => .array
  | .optional inner => .optional inner.shape
  | .record _ _ _ => .record
  | .variant _ _ _ _ => .variant

/-- The value as an integer, for conditions and bit runs: integers have one,
and so have optional integers that are present. -/
def asUint : (type : WireType) → type.Value → Option Nat
  | .uint _, value => some value.toNat
  | .optional inner, value => value.bind inner.asUint
  | .text, _ | .unit, _ | .list _, _ | .array _ _, _ => none
  | .record _ _ _, _ | .variant _ _ _ _, _ => none

/-- Stores an integer and tells whether the type can hold one. Only the low
bits that fit are kept. A missing optional value is created first, even when
its type cannot hold an integer. -/
def setUint : (type : WireType) → type.Value → Nat → Bool × type.Value
  | .uint width, _, number => (true, BitVec.ofNat width.bits number)
  | .optional inner, value, number =>
      let stored := inner.setUint (value.getD inner.default) number
      (stored.1, some stored.2)
  | .text, value, _ => (false, value)
  | .unit, value, _ => (false, value)
  | .list _, value, _ => (false, value)
  | .array _ _, value, _ => (false, value)
  | .record _ _ _, value, _ => (false, value)
  | .variant _ _ _ _, value, _ => (false, value)

end WireType

/-- The declarations of the fields of a record. -/
def Fields.declarations : Fields → List Declaration
  | .nil => []
  | .cons name type tags rest => { name, shape := type.shape, tags } :: rest.declarations

/-- The layout of a record. -/
def Fields.layout (fields : Fields) (record : String) : Except ConfigurationError Layout :=
  Layout.parse record fields.declarations

/-- Checks the layout of a record; other types have none. Records inside the
type are checked only when they are encoded or decoded. -/
def WireType.checkLayout : WireType → Except ConfigurationError Unit
  | .record name fields _ => (fields.layout name).map fun _ => ()
  | _ => .ok ()

/-- The fields of a layout that travel under a limit. -/
def Layout.transferred (layout : Layout) : Option Nat → List Field
  | none => layout.fields
  | some count => layout.fields.take count

namespace Field

/-- Whether the field is present, given the integers held by the fields before
it. A field that holds no integer counts as zero. -/
def isPresent (field : Field) (earlier : List (Option Nat)) : Bool :=
  match field.tags.condition with
  | none => true
  | some condition => condition.holds ((earlier[condition.index]?.join).getD 0)

/-- The size of the container of the field's bit run. Checked layouts know it
for every field that opens or closes a run. -/
def containerBytes (field : Field) : Nat :=
  (field.runWidth.map Width.bytes).getD 1

theorem containerBytes_of_runWidth {field : Field} {width : Width}
    (known : field.runWidth = some width) : field.containerBytes = width.bytes := by
  simp [containerBytes, known]

end Field

end ZigbeeHost
