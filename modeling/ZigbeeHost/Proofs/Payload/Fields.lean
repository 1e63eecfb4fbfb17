import ZigbeeHost.Proofs.Layout.Runs
import ZigbeeHost.Proofs.Payload.Readings

/-!
# One field of a record

Writing and reading a record treat its first field in one of five ways: it is
absent, it stands alone, or it is the first, a middle or the last member of a
bit run.  The equations below say what each case does with the field and how
the rest of the record goes on.  In all of them the record is written and read
field by field, which is said last.
-/

namespace ZigbeeHost

/-- Members of bit runs have no condition. -/
theorem Field.isPresent_of_masked {field : Field} {bits : BitMask}
    (suits : Layout.Suits field.shape field.tags) (masked : field.tags.bitMask = some bits)
    (earlier : List (Option Nat)) : field.isPresent earlier = true := by
  have unconditional := suits.condition (by simp [masked])
  simp [isPresent, unconditional]

private theorem map_unchanged {error : Type} (written : Except error Bytes) :
    written.map (fun bytes => bytes) = written := by
  cases written <;> rfl

namespace Fields

variable {name : String} {type : WireType} {pairs : List (String × String)} {rest : Fields}
variable {field : Field} {more : List Field} {earlier : List (Option Nat)}
variable {value : type.Value} {values : rest.Values} {container : Nat} {bits : BitMask}

theorem encode_of_absent (absent : field.isPresent earlier = false) :
    (Fields.cons name type pairs rest).encode (field :: more) earlier container
        (value, values) =
      rest.encode more (earlier ++ [type.asUint value]) container values :=
  if_neg (by simp [absent])

/-- The other fields follow a field that stands alone, if it can be written. -/
theorem encode_plain_eq_bind (present : field.isPresent earlier = true)
    (unmasked : field.tags.bitMask = none) :
    (Fields.cons name type pairs rest).encode (field :: more) earlier container
        (value, values) =
      (type.encode field.tags value).bind fun first =>
        (rest.encode more (earlier ++ [type.asUint value]) container values).map
          (first ++ ·) := by
  refine (if_pos present).trans ?_
  rw [unmasked]
  cases type.encode field.tags value <;> rfl

theorem encode_of_plain (present : field.isPresent earlier = true)
    (unmasked : field.tags.bitMask = none) {first : Bytes}
    (written : type.encode field.tags value = .ok first) :
    (Fields.cons name type pairs rest).encode (field :: more) earlier container
        (value, values) =
      (rest.encode more (earlier ++ [type.asUint value]) container values).map
        (first ++ ·) := by
  rw [encode_plain_eq_bind present unmasked, written]
  rfl

/-- A bit-run member adds its bits to the word, which the last member writes. -/
theorem encode_of_masked (present : field.isPresent earlier = true)
    (masked : field.tags.bitMask = some bits) :
    (Fields.cons name type pairs rest).encode (field :: more) earlier container
        (value, values) =
      (rest.encode more (earlier ++ [type.asUint value])
        (bits.insert (if bits.role = .first then 0 else container) ((type.asUint value).getD 0))
          values).map
        ((if bits.role = .last then
            field.runOrder.write field.containerBytes
              (bits.insert (if bits.role = .first then 0 else container)
                ((type.asUint value).getD 0))
          else []) ++ ·) := by
  refine (if_pos present).trans ?_
  rw [masked]

theorem encode_of_first (present : field.isPresent earlier = true)
    (masked : field.tags.bitMask = some bits) (role : bits.role = .first) :
    (Fields.cons name type pairs rest).encode (field :: more) earlier container
        (value, values) =
      rest.encode more (earlier ++ [type.asUint value])
        (bits.insert 0 ((type.asUint value).getD 0)) values := by
  simp [encode_of_masked present masked, role, map_unchanged]

theorem encode_of_middle (present : field.isPresent earlier = true)
    (masked : field.tags.bitMask = some bits) (role : bits.role = .middle) :
    (Fields.cons name type pairs rest).encode (field :: more) earlier container
        (value, values) =
      rest.encode more (earlier ++ [type.asUint value])
        (bits.insert container ((type.asUint value).getD 0)) values := by
  simp [encode_of_masked present masked, role, map_unchanged]

theorem encode_of_last (present : field.isPresent earlier = true)
    (masked : field.tags.bitMask = some bits) (role : bits.role = .last) :
    (Fields.cons name type pairs rest).encode (field :: more) earlier container
        (value, values) =
      (rest.encode more (earlier ++ [type.asUint value])
        (bits.insert container ((type.asUint value).getD 0)) values).map
          (field.runOrder.write field.containerBytes
            (bits.insert container ((type.asUint value).getD 0)) ++ ·) := by
  simp [encode_of_masked present masked, role]

theorem encode_plain_cases (present : field.isPresent earlier = true)
    (unmasked : field.tags.bitMask = none) {bytes : Bytes}
    (encoded : (Fields.cons name type pairs rest).encode (field :: more) earlier container
      (value, values) = .ok bytes) :
    ∃ first later, type.encode field.tags value = .ok first ∧
      rest.encode more (earlier ++ [type.asUint value]) container values = .ok later ∧
        bytes = first ++ later := by
  rw [encode_plain_eq_bind present unmasked] at encoded
  cases head : type.encode field.tags value with
  | error error =>
      rw [head] at encoded
      cases encoded
  | ok first =>
      rw [head] at encoded
      obtain ⟨later, tail, same⟩ := map_eq_ok encoded
      exact ⟨first, later, rfl, tail, same.symm⟩

variable {payload : Bytes}

theorem decode_of_absent (absent : field.isPresent earlier = false) :
    (Fields.cons name type pairs rest).decode (field :: more) earlier container
        (value, values) payload =
      (rest.decode more (earlier ++ [type.asUint value]) container values payload).map
        (value, ·) :=
  if_neg (by simp [absent])

theorem decode_of_plain (present : field.isPresent earlier = true)
    (unmasked : field.tags.bitMask = none) :
    (Fields.cons name type pairs rest).decode (field :: more) earlier container
        (value, values) payload =
      (type.decode field.tags value payload).andThen (·, values) fun value payload =>
        (rest.decode more (earlier ++ [type.asUint value]) container values payload).map
          (value, ·) := by
  refine (if_pos present).trans ?_
  rw [unmasked]

theorem decode_of_first (present : field.isPresent earlier = true)
    (masked : field.tags.bitMask = some bits) (role : bits.role = .first) {word : Nat}
    {after : Bytes}
    (taken : field.runOrder.take field.containerBytes payload = .ok (word, after)) :
    (Fields.cons name type pairs rest).decode (field :: more) earlier container
        (value, values) payload =
      (rest.decode more
        (earlier ++ [type.asUint (type.setUint value (bits.extract word)).2]) word values
          after).map ((type.setUint value (bits.extract word)).2, ·) := by
  refine (if_pos present).trans ?_
  rw [masked]
  refine (if_pos role).trans ?_
  rw [taken]

/-- Without the bytes of its word a bit run is not read. -/
theorem decode_of_missing_word (present : field.isPresent earlier = true)
    (masked : field.tags.bitMask = some bits) (role : bits.role = .first) {cause : DecodeError}
    (missing : field.runOrder.take field.containerBytes payload = .error cause) :
    (Fields.cons name type pairs rest).decode (field :: more) earlier container
        (value, values) payload =
      { value := (value, values), rest := payload, error := some (.decode cause) } := by
  refine (if_pos present).trans ?_
  rw [masked]
  refine (if_pos role).trans ?_
  rw [missing]

theorem decode_first_cases (present : field.isPresent earlier = true)
    (masked : field.tags.bitMask = some bits) (role : bits.role = .first)
    {results : (Fields.cons name type pairs rest).Values} {left : Bytes}
    (decoded : (Fields.cons name type pairs rest).decode (field :: more) earlier container
      (value, values) payload = { value := results, rest := left }) :
    ∃ word after, field.runOrder.take field.containerBytes payload = .ok (word, after) := by
  cases taken : field.runOrder.take field.containerBytes payload with
  | error cause =>
      rw [decode_of_missing_word present masked role taken] at decoded
      cases decoded
  | ok result => exact ⟨result.1, result.2, rfl⟩

theorem decode_of_inside (present : field.isPresent earlier = true)
    (masked : field.tags.bitMask = some bits) (role : bits.role ≠ .first) :
    (Fields.cons name type pairs rest).decode (field :: more) earlier container
        (value, values) payload =
      (rest.decode more
        (earlier ++ [type.asUint (type.setUint value (bits.extract container)).2]) container
          values payload).map ((type.setUint value (bits.extract container)).2, ·) := by
  refine (if_pos present).trans ?_
  rw [masked]
  exact if_neg role

end Fields

/-- Writes one field on its own, given the integers of the fields before it and the word
of the open bit run.  The word of the run that is open behind it comes with the bytes. -/
def Field.write (field : Field) (earlier : List (Option Nat)) (container : Nat) (type : WireType)
    (value : type.Value) : Except PayloadError (Nat × Bytes) :=
  if field.isPresent earlier then
    match field.tags.bitMask with
    | some bits =>
        let word :=
          bits.insert (if bits.role = .first then 0 else container) ((type.asUint value).getD 0)
        .ok (word, if bits.role = .last then field.runOrder.write field.containerBytes word else [])
    | none => (type.encode field.tags value).map (container, ·)
  else .ok (container, [])

namespace Field

variable {field : Field} {earlier : List (Option Nat)} {container : Nat} {type : WireType}
variable {value : type.Value} {bits : BitMask}

theorem write_of_absent (absent : field.isPresent earlier = false) :
    field.write earlier container type value = .ok (container, []) :=
  if_neg (by simp [absent])

theorem write_of_masked (present : field.isPresent earlier = true)
    (masked : field.tags.bitMask = some bits) :
    field.write earlier container type value =
      .ok (bits.insert (if bits.role = .first then 0 else container) ((type.asUint value).getD 0),
        if bits.role = .last then
          field.runOrder.write field.containerBytes
            (bits.insert (if bits.role = .first then 0 else container)
              ((type.asUint value).getD 0))
        else []) := by
  refine (if_pos present).trans ?_
  rw [masked]

theorem write_of_plain (present : field.isPresent earlier = true)
    (unmasked : field.tags.bitMask = none) :
    field.write earlier container type value =
      (type.encode field.tags value).map (container, ·) := by
  refine (if_pos present).trans ?_
  rw [unmasked]

/-- Only members of bit runs change the word. -/
theorem word_of_write_plain (unmasked : field.tags.bitMask = none) {word : Nat} {bytes : Bytes}
    (written : field.write earlier container type value = .ok (word, bytes)) :
    word = container := by
  cases present : field.isPresent earlier with
  | false =>
      rw [write_of_absent present] at written
      exact (Prod.mk.inj (Except.ok.inj written)).1.symm
  | true =>
      rw [write_of_plain present unmasked] at written
      obtain ⟨own, -, same⟩ := map_eq_ok written
      exact (Prod.mk.inj same).1.symm

end Field

/-- Reads one field on its own, given the integers of the fields before it and the word
of the open bit run.  The word of the run that is open behind it comes with its value. -/
def Field.read (field : Field) (earlier : List (Option Nat)) (container : Nat) (type : WireType)
    (value : type.Value) (payload : Bytes) : Reading (Nat × type.Value) :=
  if field.isPresent earlier then
    match field.tags.bitMask with
    | some bits =>
        if bits.role = .first then
          .ofTaken (container, value) payload
            (fun word => (word, (type.setUint value (bits.extract word)).2))
            (field.runOrder.take field.containerBytes payload)
        else
          { value := (container, (type.setUint value (bits.extract container)).2), rest := payload }
    | none => (type.decode field.tags value payload).map (container, ·)
  else { value := (container, value), rest := payload }

namespace Fields

variable {name : String} {type : WireType} {pairs : List (String × String)} {rest : Fields}
variable {field : Field} {more : List Field} {earlier : List (Option Nat)}
variable {value : type.Value} {values : rest.Values} {container : Nat} {payload : Bytes}

/-- A record is written field by field. -/
theorem encode_cons :
    (Fields.cons name type pairs rest).encode (field :: more) earlier container
        (value, values) =
      (field.write earlier container type value).bind fun written =>
        (rest.encode more (earlier ++ [type.asUint value]) written.1 values).map
          (written.2 ++ ·) := by
  cases present : field.isPresent earlier with
  | false =>
      rw [encode_of_absent present, Field.write_of_absent present]
      exact (map_unchanged _).symm
  | true =>
      cases masked : field.tags.bitMask with
      | none =>
          rw [encode_plain_eq_bind present masked, Field.write_of_plain present masked]
          cases type.encode field.tags value <;> rfl
      | some bits =>
          rw [encode_of_masked present masked, Field.write_of_masked present masked]
          rfl

/-- A record is read field by field. -/
theorem decode_cons :
    (Fields.cons name type pairs rest).decode (field :: more) earlier container
        (value, values) payload =
      (field.read earlier container type value payload).andThen (fun read => (read.2, values))
        fun read left =>
          (rest.decode more (earlier ++ [type.asUint read.2]) read.1 values left).map
            (read.2, ·) := by
  cases present : field.isPresent earlier with
  | false => simp [decode_of_absent present, Field.read, present, Reading.andThen]
  | true =>
      cases masked : field.tags.bitMask with
      | none =>
          simp only [decode_of_plain present masked, Field.read, present, masked, if_true]
          cases failed : (type.decode field.tags value payload).error <;>
            simp [Reading.andThen, Reading.map, failed]
      | some bits =>
          by_cases role : bits.role = .first
          · cases taken : field.runOrder.take field.containerBytes payload with
            | error cause =>
                simp [decode_of_missing_word present masked role taken, Field.read, present, masked,
                  role, taken, Reading.ofTaken, Reading.andThen, Reading.map]
            | ok result =>
                simp [decode_of_first present masked role taken, Field.read, present, masked,
                  role, taken, Reading.ofTaken, Reading.andThen]
          · simp [decode_of_inside present masked role, Field.read, present, masked, role,
              Reading.andThen]

/-- Without fields in the layout nothing is read. -/
theorem decode_nil (fields : Fields) (destination : fields.Values) :
    fields.decode [] earlier container destination payload =
      { value := destination, rest := payload } := by
  cases fields <;> rfl

end Fields

end ZigbeeHost
