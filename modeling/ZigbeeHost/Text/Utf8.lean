import ZigbeeHost.Text.Hexadecimal

/-!
# Text as UTF-8 bytes

Every text has one sequence of bytes, and exactly the sequences of that kind
are read.
-/

namespace ZigbeeHost.Utf8

/-- The UTF-8 bytes of a text. -/
def encode (text : String) : Bytes := text.toByteArray.data.toList

/-- The text with the given bytes, if they are UTF-8. -/
def decode? (bytes : Bytes) : Option String := String.fromUTF8? ⟨bytes.toArray⟩

/-- Reading accepts exactly the bytes of a text. -/
theorem decode?_eq_some_iff {bytes : Bytes} {text : String} :
    decode? bytes = some text ↔ encode text = bytes := by
  unfold decode? encode String.fromUTF8?
  constructor
  · intro found
    split at found
    · obtain rfl := Option.some.inj found
      rfl
    · simp at found
  · rintro rfl
    simp [String.fromUTF8, text.isValidUTF8]

@[simp] theorem decode?_encode (text : String) : decode? (encode text) = some text :=
  decode?_eq_some_iff.2 rfl

end ZigbeeHost.Utf8
