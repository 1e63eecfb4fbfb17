import ZigbeeHost.Proofs.Payload.Readings
import ZigbeeHost.Proofs.Payload.Words

/-!
# What reading does with the bytes it uses up

Reading cuts the bytes that it uses up into pieces.  Writing the value again
gives most pieces back as they were.  The container of a bit run comes back
with the bits that some member keeps, and the length prefix of a list with the
number of elements that the list holds.  If the members keep every bit, no
piece changes.
-/

namespace ZigbeeHost

namespace Layout

/-- The bits of all members of a run together, up to its last member. -/
def runBits (bitsOf : Field → BitMask → Nat) : List Field → Nat
  | [] => 0
  | field :: more =>
      match field.tags.bitMask with
      | none => 0
      | some bits => bitsOf field bits ||| if bits.role = .last then 0 else runBits bitsOf more

/-- The bits that the members of a run claim. -/
def claimedBits : List Field → Nat :=
  runBits fun _ bits => bits.mask

/-- The bits that the members of a run keep. -/
def keptBits : List Field → Nat :=
  runBits fun field bits => (field.shape.uintWidth?.map bits.kept).getD 0

theorem keptBits_cons {field : Field} {bits : BitMask} {width : Width}
    (masked : field.tags.bitMask = some bits) (integer : field.shape.uintWidth? = some width)
    (more : List Field) :
    keptBits (field :: more) =
      bits.kept width ||| if bits.role = .last then 0 else keptBits more := by
  simp [keptBits, runBits, masked, integer]

/-- Every shifted mask fits in the integer of its field, and the masks of every
run cover its container. -/
def KeepsAllBits : List Field → Prop
  | [] => True
  | field :: more =>
      (∀ bits, field.tags.bitMask = some bits →
        (∃ width, field.shape.uintWidth? = some width ∧
          bits.mask >>> bits.shift ≤ width.maxValue) ∧
        (bits.role = .first → ∃ width, field.runWidth = some width ∧
          claimedBits (field :: more) = width.maxValue)) ∧
        KeepsAllBits more

end Layout

mutual

/-- Every record in the type travels whole and has an accepted layout that
meets the condition. -/
def WireType.AllLayouts (condition : List Field → Prop) : WireType → Prop
  | .uint _ => True
  | .text => True
  | .unit => True
  | .list element => element.AllLayouts condition
  | .array element _ => element.AllLayouts condition
  | .optional inner => inner.AllLayouts condition
  | .record name fields limit =>
      limit = none ∧
        (∃ layout, fields.layout name = .ok layout ∧ condition layout.fields) ∧
          fields.AllLayouts condition
  | .variant _ _ first others => first.AllLayouts condition ∧ others.AllLayouts condition

def Fields.AllLayouts (condition : List Field → Prop) : Fields → Prop
  | .nil => True
  | .cons _ type _ rest => type.AllLayouts condition ∧ rest.AllLayouts condition

def Alternatives.AllLayouts (condition : List Field → Prop) : Alternatives → Prop
  | .nil => True
  | .cons _ type rest => type.AllLayouts condition ∧ rest.AllLayouts condition

end

/-- A stretch of the bytes that reading has used up. -/
inductive Piece where
  /-- An integer outside bit runs, or a text with its prefix. -/
  | verbatim (raw : Bytes)
  /-- The prefix of a list: the number of elements that it announces, and the
  number that was read. -/
  | announcement (raw : Bytes) (announced held : Nat)
  /-- The container of a bit run, and the bits that its members keep. -/
  | container (order : ByteOrder) (raw : Bytes) (kept : Nat)
deriving DecidableEq, Repr

namespace Piece

/-- The bytes as they were read. -/
def raw : Piece → Bytes
  | .verbatim raw => raw
  | .announcement raw _ _ => raw
  | .container _ raw _ => raw

/-- The bytes with the bits cleared that no member keeps. -/
def rewritten : Piece → Bytes
  | .verbatim raw => raw
  | .announcement raw _ _ => raw
  | .container order raw kept => order.write raw.length (order.read raw &&& kept)

/-- A list holds as many elements as its prefix announces. -/
def IsHonored : Piece → Prop
  | .announcement _ announced held => announced = held
  | .verbatim _ => True
  | .container _ _ _ => True

instance : DecidablePred IsHonored
  | .announcement _ announced held => inferInstanceAs (Decidable (announced = held))
  | .verbatim _ => inferInstanceAs (Decidable True)
  | .container _ _ _ => inferInstanceAs (Decidable True)

end Piece

/-- The bytes of a payload before those that are left. -/
def consumed (payload rest : Bytes) : Bytes :=
  payload.take (payload.length - rest.length)

@[simp]
theorem consumed_append (taken rest : Bytes) : consumed (taken ++ rest) rest = taken := by
  simp [consumed]

/-- The pieces of the elements that `readElements` reads. -/
def elementPieces {α : Type} (read : Bytes → Reading α) (pieces : Bytes → List Piece)
    (untilEnd : Bool) : (count : Nat) → Bytes → List Piece
  | 0, _ => []
  | count + 1, payload =>
      if untilEnd ∧ payload = [] then []
      else
        let rest := (read payload).rest
        pieces payload ++
          if rest.length = payload.length then []
          else elementPieces read pieces untilEnd count rest

/-- The pieces of the elements that `readTuple` reads. -/
def tuplePieces {α : Type} (read : α → Bytes → Reading α) (pieces : α → Bytes → List Piece) :
    (count : Nat) → Tuple α count → Bytes → List Piece
  | 0, _, _ => []
  | count + 1, (value, values), payload =>
      pieces value payload ++ tuplePieces read pieces count values (read value payload).rest

mutual

/-- The pieces of the bytes that decoding a value uses up. -/
def WireType.pieces : (type : WireType) → FieldTags → type.Value → Bytes → List Piece
  | .uint width, tags, destination, payload =>
      [.verbatim (consumed payload ((WireType.uint width).decode tags destination payload).rest)]
  | .text, tags, destination, payload =>
      [.verbatim (consumed payload (WireType.text.decode tags destination payload).rest)]
  | .unit, _, _, _ => []
  | .list element, tags, _, payload =>
      let read := element.decode tags.element element.default
      let pieces := element.pieces tags.element element.default
      match tags.takeLength payload with
      | .error _ => []
      | .ok (none, body) => elementPieces read pieces true body.length body
      | .ok (some count, body) =>
          .announcement (consumed payload body) count
              (readElements read false count body).value.length ::
            elementPieces read pieces false count body
  | .array element count, tags, destination, payload =>
      tuplePieces (element.decode tags) (element.pieces tags) count destination payload
  | .optional inner, tags, destination, payload =>
      if payload = [] then [] else inner.pieces tags (destination.getD inner.default) payload
  | .record name fields limit, _, destination, payload =>
      match fields.layout name with
      | .error _ => []
      | .ok layout => fields.pieces (layout.transferred limit) [] 0 destination payload
  | .variant _ _ first _, tags, .inl destination, payload => first.pieces tags destination payload
  | .variant _ _ _ others, tags, .inr choice, payload => others.pieces tags choice payload

def Fields.pieces : (fields : Fields) → List Field → List (Option Nat) → Nat → fields.Values →
    Bytes → List Piece
  | .nil, _, _, _, _, _ => []
  | .cons _ _ _ _, [], _, _, _, _ => []
  | .cons _ type _ rest, field :: more, earlier, container, (value, values), payload =>
      let goOn (container : Nat) (value : type.Value) (payload : Bytes) : List Piece :=
        rest.pieces more (earlier ++ [type.asUint value]) container values payload
      if field.isPresent earlier then
        match field.tags.bitMask with
        | some bits =>
            if bits.role = .first then
              match field.runOrder.take field.containerBytes payload with
              | .error _ => []
              | .ok (word, after) =>
                  .container field.runOrder (consumed payload after)
                      (Layout.keptBits (field :: more)) ::
                    goOn word (type.setUint value (bits.extract word)).2 after
            else goOn container (type.setUint value (bits.extract container)).2 payload
        | none =>
            let reading := type.decode field.tags value payload
            type.pieces field.tags value payload ++ goOn container reading.value reading.rest
      else goOn container value payload

def Alternatives.pieces : (others : Alternatives) → FieldTags → others.Choice → Bytes →
    List Piece
  | .cons _ type _, tags, .inl destination, payload => type.pieces tags destination payload
  | .cons _ _ rest, tags, .inr choice, payload => rest.pieces tags choice payload

end

namespace Fields

variable {name : String} {type : WireType} {pairs : List (String × String)} {rest : Fields}
variable {field : Field} {more : List Field} {earlier : List (Option Nat)}
variable {value : type.Value} {values : rest.Values} {container : Nat} {bits : BitMask}
variable {payload : Bytes}

theorem pieces_of_absent (absent : field.isPresent earlier = false) :
    (Fields.cons name type pairs rest).pieces (field :: more) earlier container
        (value, values) payload =
      rest.pieces more (earlier ++ [type.asUint value]) container values payload := by
  simp [Fields.pieces, absent]

theorem pieces_of_plain (present : field.isPresent earlier = true)
    (unmasked : field.tags.bitMask = none) :
    (Fields.cons name type pairs rest).pieces (field :: more) earlier container
        (value, values) payload =
      type.pieces field.tags value payload ++
        rest.pieces more (earlier ++ [type.asUint (type.decode field.tags value payload).value])
          container values (type.decode field.tags value payload).rest := by
  simp [Fields.pieces, present, unmasked]

theorem pieces_of_first (present : field.isPresent earlier = true)
    (masked : field.tags.bitMask = some bits) (role : bits.role = .first) {word : Nat}
    {after : Bytes}
    (taken : field.runOrder.take field.containerBytes payload = .ok (word, after)) :
    (Fields.cons name type pairs rest).pieces (field :: more) earlier container
        (value, values) payload =
      .container field.runOrder (consumed payload after) (Layout.keptBits (field :: more)) ::
        rest.pieces more (earlier ++ [type.asUint (type.setUint value (bits.extract word)).2])
          word values after := by
  simp [Fields.pieces, present, masked, role, taken]

theorem pieces_of_inside (present : field.isPresent earlier = true)
    (masked : field.tags.bitMask = some bits) (role : bits.role ≠ .first) :
    (Fields.cons name type pairs rest).pieces (field :: more) earlier container
        (value, values) payload =
      rest.pieces more (earlier ++ [type.asUint (type.setUint value (bits.extract container)).2])
        container values payload := by
  simp [Fields.pieces, present, masked, role]

end Fields

theorem Layout.keptBits_eq_claimedBits {fields : List Field} (keeps : KeepsAllBits fields) :
    keptBits fields = claimedBits fields := by
  induction fields with
  | nil => rfl
  | cons field more ih =>
      obtain ⟨held, keeps⟩ := keeps
      cases masked : field.tags.bitMask with
      | none => simp [keptBits, claimedBits, runBits, masked]
      | some bits =>
          obtain ⟨⟨width, integer, fits⟩, -⟩ := held bits masked
          rw [keptBits_cons masked integer, BitMask.kept_eq_mask fits, ih keeps]
          simp [claimedBits, runBits, masked]

theorem Piece.rewritten_container {order : ByteOrder} {width : Width} {word : Nat}
    {payload rest : Bytes} (taken : order.take width.bytes payload = .ok (word, rest)) :
    (Piece.container order (consumed payload rest) width.maxValue).rewritten =
      consumed payload rest := by
  obtain ⟨raw, length, rfl, rfl⟩ := ByteOrder.take_eq_ok taken
  have small : order.read raw < 2 ^ width.bits := by
    rw [Width.two_pow_bits, ← length]
    exact order.read_lt raw
  simp only [rewritten, consumed_append, Width.maxValue_eq, Nat.and_two_pow_sub_one_eq_mod,
    Nat.mod_eq_of_lt small, ByteOrder.write_read]

theorem forall_elementPieces {α : Type} (read : Bytes → Reading α)
    {pieces : Bytes → List Piece} {property : Piece → Prop}
    (each : ∀ payload, ∀ piece ∈ pieces payload, property piece)
    (untilEnd : Bool) (count : Nat) (payload : Bytes) :
    ∀ piece ∈ elementPieces read pieces untilEnd count payload, property piece := by
  induction count generalizing payload with
  | zero => simp [elementPieces]
  | succ count ih =>
      intro piece member
      simp only [elementPieces] at member
      split at member
      · simp at member
      · rcases List.mem_append.1 member with first | later
        · exact each payload piece first
        · split at later
          · simp at later
          · exact ih _ piece later

theorem forall_tuplePieces {α : Type} {read : α → Bytes → Reading α}
    {pieces : α → Bytes → List Piece} {property : Piece → Prop}
    (each : ∀ value payload, ∀ piece ∈ pieces value payload, property piece) (count : Nat)
    (destination : Tuple α count) (payload : Bytes) :
    ∀ piece ∈ tuplePieces read pieces count destination payload, property piece := by
  induction count generalizing payload with
  | zero => simp [tuplePieces]
  | succ count ih =>
      intro piece member
      rcases List.mem_append.1 member with first | later
      · exact each destination.1 payload piece first
      · exact ih destination.2 _ piece later

mutual

/-- If the members of every run keep all bits of its container, no piece
changes. -/
theorem WireType.pieces_unchanged : (type : WireType) → (tags : FieldTags) →
    (destination : type.Value) → (payload : Bytes) → type.AllLayouts Layout.KeepsAllBits →
      ∀ piece ∈ type.pieces tags destination payload, piece.rewritten = piece.raw
  | .uint width, tags, destination, payload, _ => by simp [WireType.pieces, Piece.rewritten,
      Piece.raw]
  | .text, tags, destination, payload, _ => by simp [WireType.pieces, Piece.rewritten, Piece.raw]
  | .unit, tags, destination, payload, _ => by simp [WireType.pieces]
  | .list element, tags, destination, payload, keeps => by
      have elements := forall_elementPieces
        (element.decode tags.element element.default)
        (fun payload => WireType.pieces_unchanged element tags.element element.default payload
          keeps)
      intro piece member
      simp only [WireType.pieces] at member
      split at member
      · simp at member
      · exact elements _ _ _ piece member
      · rcases List.mem_cons.1 member with rfl | member
        · rfl
        · exact elements _ _ _ piece member
  | .array element count, tags, destination, payload, keeps => by
      exact forall_tuplePieces
        (fun value payload => WireType.pieces_unchanged element tags value payload keeps)
        count destination payload
  | .optional inner, tags, destination, payload, keeps => by
      intro piece member
      simp only [WireType.pieces] at member
      split at member
      · simp at member
      · exact WireType.pieces_unchanged inner tags _ payload keeps piece member
  | .record name fields limit, tags, destination, payload, keeps => by
      obtain ⟨rfl, ⟨layout, parsed, layoutKeeps⟩, keeps⟩ := keeps
      simp only [WireType.pieces, parsed, Layout.transferred]
      exact Fields.pieces_unchanged fields layout.fields [] 0 destination payload layoutKeeps keeps
  | .variant name label first others, tags, .inl destination, payload, keeps =>
      WireType.pieces_unchanged first tags destination payload keeps.1
  | .variant name label first others, tags, .inr choice, payload, keeps =>
      Alternatives.pieces_unchanged others tags choice payload keeps.2

theorem Fields.pieces_unchanged : (fields : Fields) → (more : List Field) →
    (earlier : List (Option Nat)) → (container : Nat) → (destination : fields.Values) →
    (payload : Bytes) → Layout.KeepsAllBits more → fields.AllLayouts Layout.KeepsAllBits →
      ∀ piece ∈ fields.pieces more earlier container destination payload,
        piece.rewritten = piece.raw
  | .nil, more, earlier, container, destination, payload, _, _ => by simp [Fields.pieces]
  | .cons name type pairs fields, [], earlier, container, destination, payload, _, _ => by
      simp [Fields.pieces]
  | .cons name type pairs fields, field :: more, earlier, container, (value, values), payload,
      layoutKeeps, keeps => by
      obtain ⟨held, moreKeeps⟩ := id layoutKeeps
      have later := fun earlier container payload => Fields.pieces_unchanged fields more earlier
        container values payload moreKeeps keeps.2
      cases present : field.isPresent earlier with
      | false =>
          rw [Fields.pieces_of_absent present]
          exact later _ _ _
      | true =>
          cases masked : field.tags.bitMask with
          | none =>
              rw [Fields.pieces_of_plain present masked]
              intro piece member
              rcases List.mem_append.1 member with first | member
              · exact WireType.pieces_unchanged type field.tags value payload keeps.1 piece first
              · exact later _ _ _ piece member
          | some bits =>
              by_cases role : bits.role = .first
              · cases taken : field.runOrder.take field.containerBytes payload with
                | error error => simp [Fields.pieces, present, masked, role, taken]
                | ok result =>
                    obtain ⟨word, after⟩ := result
                    obtain ⟨width, runWidth, covered⟩ := (held bits masked).2 role
                    rw [Fields.pieces_of_first present masked role taken]
                    intro piece member
                    rcases List.mem_cons.1 member with rfl | member
                    · rw [Field.containerBytes_of_runWidth runWidth] at taken
                      rw [Layout.keptBits_eq_claimedBits layoutKeeps, covered]
                      exact Piece.rewritten_container taken
                    · exact later _ _ _ piece member
              · rw [Fields.pieces_of_inside present masked role]
                exact later _ _ _

theorem Alternatives.pieces_unchanged : (others : Alternatives) → (tags : FieldTags) →
    (choice : others.Choice) → (payload : Bytes) → others.AllLayouts Layout.KeepsAllBits →
      ∀ piece ∈ others.pieces tags choice payload, piece.rewritten = piece.raw
  | .cons _ type _, tags, .inl destination, payload, keeps =>
      WireType.pieces_unchanged type tags destination payload keeps.1
  | .cons _ _ others, tags, .inr choice, payload, keeps =>
      Alternatives.pieces_unchanged others tags choice payload keeps.2

end

end ZigbeeHost
