import ZigbeeHost.Text.Quoted
import ZigbeeHost.Payload.Width

/-!
# What can go wrong with a payload

A layout may be inconsistent, a value may have no encoding, and a payload may
end too early or hold text that is not UTF-8. Each error is a cause; the
wording of a cause is its `message`.
-/

namespace ZigbeeHost

/-- The tags that the declaration of a field may carry. -/
inductive TagKind where
  | hex
  | length
  | role
  | bits
  | order
  | bound
  | condition
deriving DecidableEq, Repr

namespace TagKind

/-- The name of the tag in a declaration. -/
def name : TagKind → String
  | .hex => "hex"
  | .length => "len"
  | .role => "bitmask"
  | .bits => "bits"
  | .order => "endianness"
  | .bound => "bound"
  | .condition => "cond"

/-- All tags. -/
def all : List TagKind :=
  [.hex, .length, .role, .bits, .order, .bound, .condition]

/-- The tag of the given name, if there is one. -/
def ofName? (text : String) : Option TagKind :=
  all.find? fun kind => kind.name = text

end TagKind

/-- What is wrong with one field of a layout. -/
inductive LayoutFault where
  /-- The tag does not exist. -/
  | unknownTag (tag : String)
  /-- The value of the tag cannot be read. -/
  | invalidTagValue (tag : TagKind) (value : String)
  /-- The value of the tag names no width that the tag allows. -/
  | unsupportedWidth (tag : TagKind) (value : String)
  /-- The tag does not apply to a field of this shape. -/
  | tagMismatch (tag : TagKind)
  /-- The field has a role in a bit run, but no mask. -/
  | missingMask
  /-- The field continues or closes a bit run that no field has opened. -/
  | orphanBitField
  /-- The field opens a bit run that no field closes. -/
  | unterminatedRun
  /-- The mask shares bits with an earlier field of the run. -/
  | overlappingMask
  /-- The masks of the run do not fit in its container of `width` bytes. -/
  | maskTooWide (width : Nat)
  /-- The bound exceeds the declared width; both count bytes. -/
  | boundTooWide (bound declared : Nat)
  /-- The condition names no earlier integer field. -/
  | invalidCondition (target : String)
deriving DecidableEq, Repr

namespace LayoutFault

/-- The wording of the fault. -/
def message : LayoutFault → String
  | .unknownTag tag => s!"unknown tag `{tag}`"
  | .invalidTagValue tag value =>
      "invalid value " ++ Quoted.quote value ++ " for tag `" ++ tag.name ++ "`"
  | .unsupportedWidth tag value =>
      "unsupported width " ++ Quoted.quote value ++ " for tag `" ++ tag.name ++ "`"
  | .tagMismatch tag => "tag `" ++ tag.name ++ "` does not apply to this field type"
  | .missingMask => "bitmask role declared without a `bits` mask"
  | .orphanBitField => "masked field outside a bitmask run"
  | .unterminatedRun => "bitmask run is never closed"
  | .overlappingMask => "mask overlaps an earlier field of the same run"
  | .maskTooWide width => s!"mask exceeds the {width}-byte run container"
  | .boundTooWide bound declared =>
      s!"bound of {bound} bytes exceeds declared width of {declared}"
  | .invalidCondition target => s!"condition refers to unknown or later field `{target}`"

end LayoutFault

/-- The first fault found in the layout of a record, and the field at fault. -/
structure ConfigurationError where
  record : String
  field : String
  fault : LayoutFault
deriving DecidableEq, Repr

/-- The wording of the error: the place, then the fault. -/
def ConfigurationError.message (error : ConfigurationError) : String :=
  error.record ++ "." ++ error.field ++ ": " ++ error.fault.message

/-- Why a payload cannot be read. -/
inductive DecodeError where
  /-- The payload ends before the next item, which takes `needed` bytes. -/
  | unexpectedEnd (needed remaining : Nat)
  /-- The bytes of a text field are not UTF-8. -/
  | invalidText (field : String)
deriving DecidableEq, Repr

/-- The wording of the error. -/
def DecodeError.message : DecodeError → String
  | .unexpectedEnd needed remaining =>
      s!"unexpected end of payload: need {needed} more bytes, {remaining} remaining"
  | .invalidText field => s!"field {field} is not valid UTF-8"

/-- Why a value has no encoding. -/
inductive EncodeError where
  /-- The text is not an address of `width` bytes. -/
  | invalidHex (field value : String) (width : Nat)
  /-- The length exceeds its prefix of `width` bytes. -/
  | lengthOverflow (field : String) (length width : Nat)
  /-- The integer exceeds `width` bytes. -/
  | valueOverflow (field : String) (value width : Nat)
deriving DecidableEq, Repr

/-- The wording of the error. -/
def EncodeError.message : EncodeError → String
  | .invalidHex field value width =>
      "field " ++ field ++ ": invalid hex value " ++ Quoted.quote value ++
        s!" for a {width}-byte address"
  | .lengthOverflow field length width =>
      s!"field {field}: length {length} exceeds the {width}-byte length prefix"
  | .valueOverflow field value width =>
      s!"field {field}: value {value} does not fit in {width} bytes"

/-- Why encoding or decoding a value failed. -/
inductive PayloadError where
  | decode (cause : DecodeError)
  | encode (cause : EncodeError)
  | configuration (cause : ConfigurationError)
deriving DecidableEq, Repr

/-- The wording of the error: the activity, then its cause. -/
def PayloadError.message : PayloadError → String
  | .decode cause => "decode error: " ++ cause.message
  | .encode cause => "encode error: " ++ cause.message
  | .configuration cause => "configuration error: " ++ cause.message

end ZigbeeHost
