import ZigbeeHost.Payload.WireType

/-!
# Values as documents

A document shows a value to people and to other programs. Records are shown
either by field name or by position. Integers of eight bytes are written as
decimal text, because not every reader of documents holds such numbers
exactly. When a document is read, missing fields keep their default values.
-/

namespace ZigbeeHost

/-- A value in a form that does not depend on its type. -/
inductive Document where
  | null
  | number (value : Nat)
  | text (content : String)
  | list (items : List Document)
  | object (members : List (String × Document))

namespace Document

/-- How records are shown. -/
inductive Style where
  /-- By field name. -/
  | named
  /-- By position; the content of an alternative with one field is that field. -/
  | positional
deriving DecidableEq

/-- The member of an object with the given name. -/
def member? (name : String) : Document → Option Document
  | .object members => (members.find? fun entry => entry.1 = name).map Prod.snd
  | _ => none

/-- The items of a list. -/
def items? : Document → Option (List Document)
  | .list items => some items
  | _ => none

/-- A number, or its decimal text. -/
def number? : Document → Option Nat
  | .number value => some value
  | .text content => content.toNat?
  | _ => none

/-- A text. -/
def text? : Document → Option String
  | .text content => some content
  | _ => none

/-- The document of a tuple: an item for each value. -/
def ofTuple {α : Type} (view : α → Document) (count : Nat) (values : Tuple α count) : Document :=
  .list ((values.toList count).map view)

/-- Reads a tuple from the items of a list. -/
def toTuple? {α : Type} (read : Document → Option α) :
    (count : Nat) → List Document → Option (Tuple α count)
  | 0, _ => some ()
  | _ + 1, [] => none
  | count + 1, item :: rest => do return (← read item, ← toTuple? read count rest)

/-- The only item of a list stands for the list. -/
def unwrap : Document → Document
  | .list [only] => only
  | whole => whole

/-- The content of an alternative in the given style. -/
def ofContent (style : Style) (content : Document) : Document :=
  match style with
  | .named => content
  | .positional => content.unwrap

/-- The record that the content of an alternative stands for. -/
def toContent (style : Style) (document : Document) : Document :=
  match style with
  | .named => document
  | .positional => .list [document]

end Document

mutual

/-- The document of a value. -/
def WireType.document (style : Document.Style) : (type : WireType) → type.Value → Document
  | .uint .eight, value => .text (toString value.toNat)
  | .uint .one, value | .uint .two, value | .uint .four, value => .number value.toNat
  | .text, value => .text value
  | .unit, _ => .null
  | .list element, values => .list (values.map (element.document style))
  | .array element count, values => .ofTuple (element.document style) count values
  | .optional _, none => .null
  | .optional inner, some value => .object [("some", inner.document style value)]
  | .record _ fields _, values =>
      match style with
      | .named => .object (fields.documents style values)
      | .positional => .list ((fields.documents style values).map Prod.snd)
  | .variant _ label first _, .inl value =>
      .object [(label, .ofContent style (first.document style value))]
  | .variant _ _ _ others, .inr choice => others.document style choice

/-- The documents of the fields of a record, with the names of the fields. -/
def Fields.documents (style : Document.Style) :
    (fields : Fields) → fields.Values → List (String × Document)
  | .nil, _ => []
  | .cons name type _ rest, (value, values) =>
      (name, type.document style value) :: rest.documents style values

/-- The document of an alternative after the first. -/
def Alternatives.document (style : Document.Style) :
    (others : Alternatives) → others.Choice → Document
  | .cons label type _, .inl value =>
      .object [(label, .ofContent style (type.document style value))]
  | .cons _ _ rest, .inr choice => rest.document style choice

end

mutual

/-- Reads the value that a document shows. -/
def WireType.ofDocument? (style : Document.Style) :
    (type : WireType) → Document → Option type.Value
  | .uint width, document => document.number?.map (BitVec.ofNat width.bits)
  | .text, document => document.text?
  | .unit, _ => some ()
  | .list element, document => document.items?.bind (·.mapM (element.ofDocument? style))
  | .array element count, document =>
      document.items?.bind (Document.toTuple? (element.ofDocument? style) count)
  | .optional inner, document =>
      match document with
      | .null => some none
      | other => (other.member? "some").bind fun held => (inner.ofDocument? style held).map some
  | .record _ fields _, document =>
      match document with
      | .list items => fields.ofItems? style items
      | other => fields.ofMembers? style other
  | .variant _ label first others, document =>
      match document.member? label with
      | some content => (first.ofDocument? style (.toContent style content)).map .inl
      | none => (others.ofDocument? style document).map .inr

/-- Reads the fields of a record by position. -/
def Fields.ofItems? (style : Document.Style) :
    (fields : Fields) → List Document → Option fields.Values
  | .nil, _ => some ()
  | .cons _ type _ rest, [] => do return (type.default, ← rest.ofItems? style [])
  | .cons _ type _ rest, item :: more => do
      return (← type.ofDocument? style item, ← rest.ofItems? style more)

/-- Reads the fields of a record by name. -/
def Fields.ofMembers? (style : Document.Style) :
    (fields : Fields) → Document → Option fields.Values
  | .nil, _ => some ()
  | .cons name type _ rest, document => do
      let value ← match document.member? name with
        | some member => type.ofDocument? style member
        | none => some type.default
      return (value, ← rest.ofMembers? style document)

/-- Reads an alternative after the first. -/
def Alternatives.ofDocument? (style : Document.Style) :
    (others : Alternatives) → Document → Option others.Choice
  | .nil, _ => none
  | .cons label type rest, document =>
      match document.member? label with
      | some content => (type.ofDocument? style (.toContent style content)).map .inl
      | none => (rest.ofDocument? style document).map .inr

end

end ZigbeeHost
