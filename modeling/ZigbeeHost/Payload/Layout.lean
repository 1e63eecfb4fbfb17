import ZigbeeHost.Payload.FieldTags
import ZigbeeHost.Payload.Shape

/-!
# Layouts

A layout lists the fields of a record in wire order. Declarations are checked
from left to right and the first fault is the error: each field's tags must
suit its shape, a condition must name an earlier integer field, and masked
fields must form complete bit runs with disjoint masks that fit in the
container. The container of a run is as wide as the integer of its last
field and has that field's byte order.
-/

namespace ZigbeeHost

/-- A field as it is declared: its tags are still text. -/
structure Declaration where
  name : String
  shape : Shape
  tags : List (String × String)
deriving DecidableEq, Repr

/-- A field that has been checked. -/
structure Field where
  name : String
  shape : Shape
  tags : FieldTags
  /-- The container width of the bit run that this field opens or closes. -/
  runWidth : Option Width := none
  /-- The byte order of that container. -/
  runOrder : ByteOrder := .little
deriving DecidableEq, Repr

/-- The field with the container of the bit run that it opens or closes. -/
def Field.withContainer (field : Field) (width : Width) (order : ByteOrder) : Field :=
  { field with runWidth := some width, runOrder := order }

/-- The checked fields of a record, in wire order. -/
structure Layout where
  record : String
  fields : List Field
deriving DecidableEq, Repr

namespace Layout

/-- Addresses are text, alone or as the elements of a list. -/
def checkHex (shape : Shape) (tags : FieldTags) : Except LayoutFault Unit :=
  if tags.hex.isSome ∧ shape.base.element ≠ .text then .error (.tagMismatch .hex) else .ok ()

/-- Whether values of the shape differ in length: plain text and lists do. -/
def isDynamic (shape : Shape) (tags : FieldTags) : Bool :=
  match shape.base with
  | .text => tags.hex.isNone
  | .list _ => true
  | _ => false

/-- Length prefixes belong to values whose length differs. -/
def checkLength (shape : Shape) (tags : FieldTags) : Except LayoutFault Unit :=
  if tags.length.isSome ∧ ¬ isDynamic shape tags then .error (.tagMismatch .length) else .ok ()

/-- Bounds belong to integers outside bit runs, and narrow them. -/
def checkBound (shape : Shape) (tags : FieldTags) : Except LayoutFault Unit :=
  match tags.bound with
  | none => .ok ()
  | some bound =>
      match shape.uintWidth? with
      | none => .error (.tagMismatch .bound)
      | some declared =>
          if tags.bitMask.isSome then .error (.tagMismatch .bound)
          else if bound > declared.bytes then .error (.boundTooWide bound declared.bytes)
          else .ok ()

/-- The position of the first field with the given name, if that field is an
integer. -/
def integerIndex? (fields : List Field) (target : String) : Option Nat := do
  let index ← fields.findIdx? fun field => field.name = target
  let field ← fields[index]?
  if field.shape.uintWidth?.isSome then some index else none

/-- Points the condition at the earlier field that it names. -/
def resolveCondition (earlier : List Field) (tags : FieldTags) : Except LayoutFault FieldTags :=
  match tags.condition with
  | none => .ok tags
  | some condition =>
      if tags.bitMask.isSome then .error (.tagMismatch .condition)
      else
        match integerIndex? earlier condition.target with
        | none => .error (.invalidCondition condition.target)
        | some index => .ok { tags with condition := some { condition with index } }

/-- Reads the tags of a declaration and checks all but its place in a bit run. -/
def checkTags (earlier : List Field) (declaration : Declaration) :
    Except LayoutFault FieldTags := do
  let tags ← FieldTags.read declaration.name declaration.tags
  checkHex declaration.shape tags
  checkLength declaration.shape tags
  checkBound declaration.shape tags
  resolveCondition earlier tags

/-- A bit run whose last field has not been seen yet. -/
structure OpenRun where
  /-- The field that opened the run. -/
  first : Field
  /-- The fields since then, in order. -/
  members : List Field
  /-- The bits that the run has claimed so far. -/
  used : Nat

/-- The fields that have been checked so far. -/
structure Progress where
  /-- The fields before the open run. -/
  settled : List Field := []
  run : Option OpenRun := none

namespace Progress

/-- All fields so far, in order. -/
def fields (progress : Progress) : List Field :=
  match progress.run with
  | none => progress.settled
  | some run => progress.settled ++ run.first :: run.members

/-- Adds a field that shares the container of the open run. The last field of
the run fixes the container, and the first field learns it. -/
def extendRun (progress : Progress) (run : OpenRun) (field : Field) (bits : BitMask)
    (width : Width) : Except LayoutFault Progress :=
  if run.used &&& bits.mask ≠ 0 then .error .overlappingMask
  else
    let used := run.used ||| bits.mask
    if bits.role = .last then
      if width.maxValue < used then .error (.maskTooWide width.bytes)
      else
        let first := run.first.withContainer width field.tags.order
        let last := field.withContainer width field.tags.order
        .ok { settled := progress.settled ++ first :: (run.members ++ [last]) }
    else .ok { progress with run := some { run with members := run.members ++ [field], used } }

/-- Adds one field; an error comes with the name of the field at fault, which
is the first field of a run that stays open. -/
def add (progress : Progress) (field : Field) : Except (String × LayoutFault) Progress :=
  match field.tags.bitMask, progress.run with
  | none, some run => .error (run.first.name, .unterminatedRun)
  | none, none => .ok { progress with settled := progress.settled ++ [field] }
  | some bits, run =>
      match field.shape.uintWidth? with
      | none => .error (field.name, .tagMismatch .bits)
      | some width =>
          match bits.role, run with
          | .first, some run => .error (run.first.name, .unterminatedRun)
          | .first, none =>
              .ok { progress with run := some { first := field, members := [], used := bits.mask } }
          | .middle, none => .error (field.name, .orphanBitField)
          | .last, none => .error (field.name, .orphanBitField)
          | _, some run => (progress.extendRun run field bits width).mapError (field.name, ·)

/-- The fields of a complete layout: no run may be open. -/
def finish (progress : Progress) : Except (String × LayoutFault) (List Field) :=
  match progress.run with
  | none => .ok progress.settled
  | some run => .error (run.first.name, .unterminatedRun)

end Progress

/-- Checks one declaration and adds its field. -/
def addDeclaration (progress : Progress) (declaration : Declaration) :
    Except (String × LayoutFault) Progress :=
  match checkTags progress.fields declaration with
  | .error fault => .error (declaration.name, fault)
  | .ok tags => progress.add { name := declaration.name, shape := declaration.shape, tags }

/-- Checks the remaining declarations after the fields so far. -/
def checkFrom (progress : Progress) :
    List Declaration → Except (String × LayoutFault) (List Field)
  | [] => progress.finish
  | declaration :: rest =>
      match addDeclaration progress declaration with
      | .error error => .error error
      | .ok next => checkFrom next rest

/-- Checks the declarations of a record. -/
def parse (record : String) (declarations : List Declaration) :
    Except ConfigurationError Layout :=
  match checkFrom {} declarations with
  | .error (field, fault) => .error { record, field, fault }
  | .ok fields => .ok { record, fields }

end Layout

end ZigbeeHost
