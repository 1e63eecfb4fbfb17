import ZigbeeHost.Payload.BitMask
import ZigbeeHost.Payload.Condition
import ZigbeeHost.Payload.Error

/-!
# The tags of a field

A field is declared with pairs of a tag name and a value. Reading goes from
left to right: the first pair that cannot be read is the error, and of several
pairs with one tag the last counts. A role in a bit run needs a mask, which is
checked once all pairs have been read.
-/

namespace ZigbeeHost

/-- One tag with its value. -/
inductive Tag where
  | hex (width : Width)
  | length (width : Width)
  | role (role : RunRole)
  | bits (mask : Nat)
  | order (order : ByteOrder)
  | bound (bytes : Nat)
  | condition (condition : Condition)
deriving DecidableEq, Repr

/-- Reads the name of a byte order. -/
def ByteOrder.read? : String → Option ByteOrder
  | "le" | "little" => some .little
  | "be" | "big" => some .big
  | _ => none

namespace Tag

/-- Reads the value of a tag of known kind. -/
def readValue? : TagKind → String → Option Tag
  | .hex, value => (Width.read? value).map .hex
  | .length, value => ((Width.read? value).filter (· ≠ .eight)).map .length
  | .role, value => (RunRole.read? value).map .role
  | .bits, value => ((Numeral.readMarked? value.toList).filter (· ≠ 0)).map .bits
  | .order, value => (ByteOrder.read? value).map .order
  | .bound, value =>
      ((Width.readByteCount? value).filter fun bytes => 1 ≤ bytes ∧ bytes ≤ 8).map .bound
  | .condition, value => (Condition.read? value).map .condition

/-- The fault of a value that a tag cannot take: the tags that name widths
call it a width, the others a value. -/
def valueFault : TagKind → String → LayoutFault
  | .hex, value => .unsupportedWidth .hex value
  | .length, value => .unsupportedWidth .length value
  | .bound, value => .unsupportedWidth .bound value
  | kind, value => .invalidTagValue kind value

/-- Reads one pair of a tag name and a value. -/
def read (pair : String × String) : Except LayoutFault Tag :=
  match TagKind.ofName? pair.1 with
  | none => .error (.unknownTag pair.1)
  | some kind =>
      match readValue? kind pair.2 with
      | none => .error (valueFault kind pair.2)
      | some tag => .ok tag

end Tag

/-- The tags of one field; a tag that was not declared is absent. -/
structure FieldTags where
  field : String
  /-- The width of an address that is held as text. -/
  hex : Option Width := none
  length : Option Width := none
  /-- The field's share of a bit run. -/
  bitMask : Option BitMask := none
  order : ByteOrder := .little
  /-- The byte count of an integer that is written narrower than its type. -/
  bound : Option Nat := none
  condition : Option Condition := none
deriving DecidableEq, Repr

namespace FieldTags

/-- The tags of a list element: those of the list without its length prefix. -/
def element (tags : FieldTags) : FieldTags :=
  { tags with length := none }

/-- What has been read of the tags of a field. Role and mask are joined only
once all pairs have been read. -/
structure Draft where
  tags : FieldTags
  role : Option RunRole := none
  mask : Option Nat := none

/-- Takes one more tag into account. -/
def Draft.add (draft : Draft) : Tag → Draft
  | .hex width => { draft with tags := { draft.tags with hex := some width } }
  | .length width => { draft with tags := { draft.tags with length := some width } }
  | .role role => { draft with role := some role }
  | .bits mask => { draft with mask := some mask }
  | .order order => { draft with tags := { draft.tags with order := order } }
  | .bound bytes => { draft with tags := { draft.tags with bound := some bytes } }
  | .condition condition =>
      { draft with tags := { draft.tags with condition := some condition } }

/-- Joins role and mask. A mask without a role is in the middle of its run; a
role without a mask is a fault. -/
def Draft.finish (draft : Draft) : Except LayoutFault FieldTags :=
  match draft.role, draft.mask with
  | some _, none => .error .missingMask
  | none, none => .ok draft.tags
  | role, some mask =>
      .ok { draft.tags with bitMask := some { mask, role := role.getD .middle } }

/-- Reads further pairs into a draft, the first of them first. -/
def readPairs (draft : Draft) : List (String × String) → Except LayoutFault Draft
  | [] => .ok draft
  | pair :: rest =>
      match Tag.read pair with
      | .error fault => .error fault
      | .ok tag => readPairs (draft.add tag) rest

/-- Reads the pairs declared for a field. -/
def read (field : String) (pairs : List (String × String)) : Except LayoutFault FieldTags :=
  match readPairs { tags := { field } } pairs with
  | .error fault => .error fault
  | .ok draft => draft.finish

/-- Reads the pairs declared for a field of a record; an error names both. -/
def parse (record field : String) (pairs : List (String × String)) :
    Except ConfigurationError FieldTags :=
  (read field pairs).mapError fun fault => { record, field, fault }

@[simp] theorem element_element (tags : FieldTags) : tags.element.element = tags.element := rfl

/-- Pairs that all can be read are added one after the other. -/
theorem readPairs_append (draft : Draft) (first second : List (String × String)) :
    readPairs draft (first ++ second) =
      match readPairs draft first with
      | .error fault => .error fault
      | .ok next => readPairs next second := by
  induction first generalizing draft with
  | nil => rfl
  | cons pair rest ih =>
      simp only [List.cons_append, readPairs]
      cases Tag.read pair with
      | error fault => rfl
      | ok tag => exact ih _

end FieldTags

end ZigbeeHost
