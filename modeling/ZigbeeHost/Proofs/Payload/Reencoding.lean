import ZigbeeHost.Catalog.SimpleApi
import ZigbeeHost.Proofs.Payload.Fields
import ZigbeeHost.Proofs.Payload.Pieces

/-!
# Writing again what was read

Reading accepts arbitrary bytes, so the value need not come from the writer.
Still writing it again succeeds and gives the bytes that were used up, except
that the bits of a container which no member keeps are cleared.  The proof
follows the pieces: those of a reader partition what it has used up, and the
writer gives them back one after the other.
-/

namespace ZigbeeHost

/-- The pieces partition what was used up before the rest, and what was written
are the pieces again. -/
structure Restored (pieces : List Piece) (payload rest : Bytes)
    (written : Except PayloadError Bytes) : Prop where
  partition : payload = pieces.flatMap Piece.raw ++ rest
  rewritten : written = .ok (pieces.flatMap Piece.rewritten)

/-- Whatever the reader succeeds with is restored by the writer, if the lists
hold as many elements as announced. -/
def Restores {α : Type} (read : Bytes → Reading α) (pieces : Bytes → List Piece)
    (encode : α → Except PayloadError Bytes) : Prop :=
  ∀ payload rest value, read payload = { value, rest } →
    (∀ piece ∈ pieces payload, piece.IsHonored) →
      Restored (pieces payload) payload rest (encode value)

namespace Restored

theorem nil (payload : Bytes) : Restored [] payload payload (.ok []) :=
  ⟨rfl, rfl⟩

theorem verbatim {raw payload rest : Bytes} {written : Except PayloadError Bytes}
    (partition : payload = raw ++ rest) (same : written = .ok raw) :
    Restored [.verbatim (consumed payload rest)] payload rest written := by
  subst partition
  exact ⟨by simp [Piece.raw], by simp [Piece.rewritten, same]⟩

theorem announcement {header payload rest : Bytes} (partition : payload = header ++ rest)
    (announced held : Nat) :
    Restored [.announcement (consumed payload rest) announced held] payload rest (.ok header) := by
  subst partition
  exact ⟨by simp [Piece.raw], by simp [Piece.rewritten]⟩

theorem container {order : ByteOrder} {count word : Nat} {payload rest : Bytes}
    (taken : order.take count payload = .ok (word, rest)) (kept : Nat) :
    Restored [.container order (consumed payload rest) kept] payload rest
      (.ok (order.write count (word &&& kept))) := by
  obtain ⟨raw, rfl, rfl, rfl⟩ := ByteOrder.take_eq_ok taken
  exact ⟨by simp [Piece.raw], by simp [Piece.rewritten]⟩

theorem append {first later : List Piece} {payload middle rest : Bytes}
    {head tail written : Except PayloadError Bytes}
    (headRestored : Restored first payload middle head)
    (tailRestored : Restored later middle rest tail)
    (joined : ∀ bytes, head = .ok bytes → written = tail.map (bytes ++ ·)) :
    Restored (first ++ later) payload rest written where
  partition := by
    rw [headRestored.partition, tailRestored.partition, List.flatMap_append, List.append_assoc]
  rewritten := by
    rw [joined _ headRestored.rewritten, tailRestored.rewritten, List.flatMap_append]
    rfl

end Restored

section Sequences

variable {α : Type} {encode : α → Except PayloadError Bytes}

theorem restores_readElements {read : Bytes → Reading α} {pieces : Bytes → List Piece}
    (restores : Restores read pieces encode) (untilEnd : Bool) (count : Nat) :
    Restores (readElements read untilEnd count) (elementPieces read pieces untilEnd count)
      (encodeEach encode) := by
  induction count with
  | zero =>
      intro payload rest values read honored
      simp only [readElements, Reading.mk.injEq, and_true] at read
      obtain ⟨rfl, rfl⟩ := read
      exact .nil payload
  | succ count ih =>
      intro payload rest values read honored
      by_cases ended : untilEnd ∧ payload = []
      · simp only [readElements, if_pos ended, Reading.mk.injEq, and_true] at read
        obtain ⟨rfl, rfl⟩ := read
        simp only [elementPieces, if_pos ended]
        exact .nil payload
      · simp only [readElements, if_neg ended] at read
        obtain ⟨value, middle, head, next⟩ := Reading.andThen_eq_success read
        simp only [elementPieces, if_neg ended, head] at honored ⊢
        have first := restores _ _ _ head fun piece member =>
          honored piece (List.mem_append_left _ member)
        by_cases stuck : middle.length = payload.length
        · simp only [if_pos stuck, Reading.mk.injEq, and_true] at next
          obtain ⟨rfl, rfl⟩ := next
          simp only [if_pos stuck]
          exact first.append (.nil _) fun _ written => encodeEach_cons written []
        · simp only [if_neg stuck] at next honored ⊢
          obtain ⟨others, tail, rfl⟩ := Reading.map_eq_success next
          have later := ih _ _ _ tail fun piece member =>
            honored piece (List.mem_append_right _ member)
          exact first.append later fun _ written => encodeEach_cons written others

theorem restores_readTuple {read : α → Bytes → Reading α} {pieces : α → Bytes → List Piece}
    (restores : ∀ value, Restores (read value) (pieces value) encode) (count : Nat)
    (destination : Tuple α count) :
    Restores (readTuple read count destination) (tuplePieces read pieces count destination)
      fun values => encodeEach encode (values.toList count) := by
  induction count with
  | zero =>
      intro payload rest values read honored
      simp only [readTuple, Reading.mk.injEq, and_true] at read
      obtain ⟨-, rfl⟩ := read
      exact .nil payload
  | succ count ih =>
      intro payload rest values read honored
      obtain ⟨before, others⟩ := destination
      obtain ⟨value, middle, head, next⟩ := Reading.andThen_eq_success read
      obtain ⟨later, tail, rfl⟩ := Reading.map_eq_success next
      simp only [tuplePieces, head] at honored ⊢
      have first := restores before _ _ _ head fun piece member =>
        honored piece (List.mem_append_left _ member)
      have second := ih others _ _ _ tail fun piece member =>
        honored piece (List.mem_append_right _ member)
      exact first.append second fun _ written => encodeEach_cons written (later.toList count)

end Sequences

theorem WireType.encode_list {element : WireType} {tags : FieldTags}
    {values : List element.Value} {header : Bytes}
    (written : tags.writeLength values.length = .ok header) :
    (WireType.list element).encode tags values =
      (encodeEach (element.encode tags.element) values).map (header ++ ·) := by
  simp only [WireType.encode, written]

/-- An integer field holds what was stored, cut to its width. -/
theorem WireType.asUint_setUint {width : Width} : (type : WireType) →
    type.shape.uintWidth? = some width → (value : type.Value) → (number : Nat) →
      type.asUint (type.setUint value number).2 = some (number % 2 ^ width.bits)
  | .uint own, integer, value, number => by
      obtain rfl : own = width := by
        simpa [WireType.shape, Shape.uintWidth?, Shape.base] using integer
      simp [WireType.setUint, WireType.asUint]
  | .optional inner, integer, value, number => by
      simp only [WireType.setUint, WireType.asUint, Option.bind_some]
      exact WireType.asUint_setUint inner integer _ number
  | .text, integer, _, _ => by simp [WireType.shape, Shape.uintWidth?, Shape.base] at integer
  | .unit, integer, _, _ => by simp [WireType.shape, Shape.uintWidth?, Shape.base] at integer
  | .list _, integer, _, _ => by simp [WireType.shape, Shape.uintWidth?, Shape.base] at integer
  | .array _ _, integer, _, _ => by
      simp [WireType.shape, Shape.uintWidth?, Shape.base] at integer
  | .record _ _ _, integer, _, _ => by
      simp [WireType.shape, Shape.uintWidth?, Shape.base] at integer
  | .variant _ _ _ _, integer, _, _ => by
      simp [WireType.shape, Shape.uintWidth?, Shape.base] at integer

/-- A member that was read from a word contributes the bits of the word that it
keeps. -/
theorem insert_setUint {type : WireType} {field : Field} {declaration : Declaration}
    {bits : BitMask} (member : Layout.IsMember field bits)
    (declared : Layout.Declares field declaration) (shape : declaration.shape = type.shape) :
    ∃ width, field.shape.uintWidth? = some width ∧
      ∀ (value : type.Value) (collected word : Nat),
        bits.insert collected
            ((type.asUint (type.setUint value (bits.extract word)).2).getD 0) =
          collected ||| (word &&& bits.kept width) := by
  obtain ⟨width, integer⟩ := Option.isSome_iff_exists.1 member.integer
  refine ⟨width, integer, fun value collected word => ?_⟩
  rw [declared.shape, shape] at integer
  rw [WireType.asUint_setUint type integer, Option.getD_some, BitMask.insert_extract]

namespace WireType

variable {tags : FieldTags}

theorem restores_uint {width : Width} (fits : tags.BoundFits (.uint width))
    (destination : BitVec width.bits) :
    Restores ((WireType.uint width).decode tags destination)
      ((WireType.uint width).pieces tags destination) ((WireType.uint width).encode tags) := by
  intro payload rest value read honored
  simp only [WireType.decode] at read
  obtain ⟨number, taken, rfl⟩ := Reading.ofTaken_eq_success read
  obtain ⟨raw, partition, small, written⟩ := FieldTags.writeUint_of_takeUint fits taken
  simp only [WireType.pieces, WireType.decode, taken, Reading.ofTaken]
  apply Restored.verbatim partition
  simp only [WireType.encode, BitVec.toNat_ofNat, Nat.mod_eq_of_lt small, written]
  rfl

theorem restores_text (destination : String) :
    Restores (WireType.text.decode tags destination) (WireType.text.pieces tags destination)
      (WireType.text.encode tags) := by
  intro payload rest value read honored
  obtain ⟨raw, partition, written⟩ := FieldTags.writeText_of_readText read
  simp only [WireType.pieces, read]
  apply Restored.verbatim partition
  simp only [WireType.encode, written]
  rfl

/-- A list is restored with its prefix, if it has one. -/
theorem restores_list {element : WireType}
    (restores : Restores (element.decode tags.element element.default)
      (element.pieces tags.element element.default) (element.encode tags.element))
    (destination : List element.Value) :
    Restores ((WireType.list element).decode tags destination)
      ((WireType.list element).pieces tags destination)
      ((WireType.list element).encode tags) := by
  intro payload rest values read honored
  simp only [WireType.decode, FieldTags.readList] at read
  simp only [WireType.pieces] at honored ⊢
  cases announced : tags.takeLength payload with
  | error error => simp [announced] at read
  | ok result =>
      obtain ⟨length, body⟩ := result
      obtain ⟨header, partition, unprefixed, written⟩ :=
        FieldTags.writeLength_of_takeLength announced
      cases length with
      | none =>
          obtain rfl := unprefixed rfl
          obtain rfl : payload = body := partition
          simp only [announced] at read honored ⊢
          have elements := restores_readElements restores true _ _ _ _ read honored
          refine (Restored.nil payload).append elements fun _ same => ?_
          obtain rfl := Except.ok.inj same
          exact WireType.encode_list (written _ (by simp))
      | some count =>
          simp only [announced] at read honored ⊢
          rw [read] at honored ⊢
          obtain ⟨kept, honored⟩ := List.forall_mem_cons.1 honored
          have elements := restores_readElements restores false count _ _ _ read honored
          refine (Restored.announcement partition count _).append elements fun _ same => ?_
          obtain rfl := Except.ok.inj same
          exact WireType.encode_list (written _ (by
            rintro _ ⟨⟩
            exact kept))

end WireType

mutual

theorem WireType.restores {condition : List Field → Prop} : (type : WireType) →
    (tags : FieldTags) → (destination : type.Value) → type.AllLayouts condition →
    tags.BoundFits type.shape →
      Restores (type.decode tags destination) (type.pieces tags destination) (type.encode tags)
  | .uint width, tags, destination, _, fits => WireType.restores_uint fits destination
  | .text, tags, destination, _, _ => WireType.restores_text destination
  | .unit, tags, destination, _, _ => by
      intro payload rest value read honored
      simp only [WireType.decode, Reading.mk.injEq, and_true, true_and] at read
      subst read
      exact .nil payload
  | .list element, tags, destination, accepted, fits => by
      have unbounded : tags.element.bound = none := fits.unbounded rfl
      apply WireType.restores_list
      exact WireType.restores element tags.element element.default accepted
        (.of_unbounded unbounded _)
  | .array element count, tags, destination, accepted, fits => by
      have unbounded : tags.bound = none := fits.unbounded rfl
      have restores := fun value => WireType.restores element tags value accepted
        (.of_unbounded unbounded _)
      exact restores_readTuple restores count destination
  | .optional inner, tags, destination, accepted, fits => by
      intro payload rest held read honored
      by_cases empty : payload = []
      · simp only [WireType.decode, if_pos empty, Reading.mk.injEq, and_true] at read
        obtain ⟨rfl, rfl⟩ := read
        simp only [WireType.pieces, if_pos empty]
        exact .nil payload
      · simp only [WireType.decode, if_neg empty] at read
        simp only [WireType.pieces, if_neg empty] at honored ⊢
        obtain ⟨value, inside, rfl⟩ := Reading.map_eq_success read
        exact WireType.restores inner tags _ accepted fits _ _ _ inside honored
  | .record name fields limit, tags, destination, accepted, _ => by
      obtain ⟨rfl, ⟨layout, parsed, -⟩, accepted⟩ := accepted
      intro payload rest values read honored
      simp only [WireType.decode, parsed, Layout.transferred] at read
      simp only [WireType.pieces, WireType.encode, parsed, Layout.transferred] at honored ⊢
      exact Fields.restores fields layout.fields [] 0 0 destination accepted
        (Layout.declares_of_parse parsed) (Layout.runs_of_parse parsed) _ _ _ read honored
  | .variant name label first others, tags, .inl destination, accepted, fits => by
      intro payload rest choice read honored
      have unbounded : tags.bound = none := fits.unbounded rfl
      obtain ⟨value, inside, rfl⟩ := Reading.map_eq_success read
      exact WireType.restores first tags destination accepted.1 (.of_unbounded unbounded _)
        _ _ _ inside honored
  | .variant name label first others, tags, .inr destination, accepted, fits => by
      intro payload rest choice read honored
      have unbounded : tags.bound = none := fits.unbounded rfl
      obtain ⟨value, inside, rfl⟩ := Reading.map_eq_success read
      exact Alternatives.restores others tags destination accepted.2 unbounded _ _ _ inside honored

/-- Between bit runs the words of reader and writer do not matter. -/
theorem Fields.restores {condition : List Field → Prop} : (fields : Fields) →
    (more : List Field) → (earlier : List (Option Nat)) → (word collected : Nat) →
    (destination : fields.Values) → fields.AllLayouts condition →
    List.Forall₂ Layout.Declares more fields.declarations → Layout.Runs none more →
      Restores (fields.decode more earlier word destination)
        (fields.pieces more earlier word destination) (fields.encode more earlier collected)
  | .nil, more, earlier, word, collected, destination, _, _, _ => by
      intro payload rest values read honored
      simp only [Fields.decode, Reading.mk.injEq, and_true, true_and] at read
      subst read
      exact .nil payload
  | .cons name type pairs fields, field :: more, earlier, word, collected,
      (before, others), accepted, declares, runs => by
      obtain ⟨headAccepted, accepted⟩ := accepted
      obtain ⟨declared, declares⟩ := List.forall₂_cons.1 declares
      intro payload rest values read honored
      cases runs with
      | plain unmasked tail =>
          cases present : field.isPresent earlier with
          | false =>
              rw [Fields.decode_of_absent present] at read
              rw [Fields.pieces_of_absent present] at honored ⊢
              obtain ⟨later, remaining, rfl⟩ := Reading.map_eq_success read
              rw [Fields.encode_of_absent present]
              exact Fields.restores fields more _ word collected others accepted declares tail
                _ _ _ remaining honored
          | true =>
              rw [Fields.decode_of_plain present unmasked] at read
              obtain ⟨value, middle, head, next⟩ := Reading.andThen_eq_success read
              obtain ⟨later, remaining, rfl⟩ := Reading.map_eq_success next
              rw [Fields.pieces_of_plain present unmasked, head] at honored ⊢
              have fits : field.tags.BoundFits type.shape := by
                intro bound bounded
                have suited := (declared.suits.bound bound bounded).2
                rwa [declared.shape] at suited
              have first := WireType.restores type field.tags before headAccepted fits _ _ _ head
                fun piece member => honored piece (List.mem_append_left _ member)
              have second := Fields.restores fields more _ word collected others accepted
                declares tail _ _ _ remaining
                fun piece member => honored piece (List.mem_append_right _ member)
              exact first.append second fun _ written =>
                Fields.encode_of_plain present unmasked written
      | @first _ _ bits width order member role runWidth runOrder tail =>
          have present := Field.isPresent_of_masked declared.suits member.mask earlier
          obtain ⟨own, integer, contributes⟩ := insert_setUint member declared rfl
          obtain ⟨shared, after, taken⟩ :=
            Fields.decode_first_cases present member.mask role read
          rw [Fields.decode_of_first present member.mask role taken] at read
          rw [Fields.pieces_of_first present member.mask role taken] at honored ⊢
          obtain ⟨later, remaining, rfl⟩ := Reading.map_eq_success read
          rw [Fields.encode_of_first present member.mask role, contributes, Nat.zero_or]
          -- The container comes first in the payload and is written only at the last member.
          obtain ⟨tailBytes, restored, written⟩ := Fields.restores_inside fields more _ shared _
            others accepted declares _ tail _ _ _ remaining
            fun piece member => honored piece (List.mem_cons_of_mem _ member)
          refine (Restored.container taken _).append restored fun bytes same => ?_
          obtain rfl := Except.ok.inj same
          rw [written, Field.containerBytes_of_runWidth runWidth, runOrder,
            Layout.keptBits_cons member.mask integer, if_neg (by simp [role]),
            Nat.and_or_distrib_left]
          rfl

theorem Fields.restores_inside {condition : List Field → Prop} : (fields : Fields) →
    (more : List Field) → (earlier : List (Option Nat)) → (word collected : Nat) →
    (destination : fields.Values) → fields.AllLayouts condition →
    List.Forall₂ Layout.Declares more fields.declarations →
    (container : Layout.Container) → Layout.Runs (some container) more →
    ∀ payload rest values,
      fields.decode more earlier word destination payload = { value := values, rest } →
      (∀ piece ∈ fields.pieces more earlier word destination payload, piece.IsHonored) →
        ∃ tail, Restored (fields.pieces more earlier word destination payload) payload rest
            (.ok tail) ∧
          fields.encode more earlier collected values =
            .ok (container.order.write container.width.bytes
              (collected ||| (word &&& Layout.keptBits more)) ++ tail)
  | .nil, more, earlier, word, collected, destination, _, declares, container, runs => by
      cases declares
      cases runs
  | .cons name type pairs fields, field :: more, earlier, word, collected,
      (before, others), accepted, declares, container, runs => by
      obtain ⟨headAccepted, accepted⟩ := accepted
      obtain ⟨declared, declares⟩ := List.forall₂_cons.1 declares
      intro payload rest values read honored
      cases runs with
      | @middle _ _ bits _ member role disjoint tail =>
          have present := Field.isPresent_of_masked declared.suits member.mask earlier
          obtain ⟨own, integer, contributes⟩ := insert_setUint member declared rfl
          have inside : bits.role ≠ .first := by simp [role]
          rw [Fields.decode_of_inside present member.mask inside] at read
          rw [Fields.pieces_of_inside present member.mask inside] at honored ⊢
          obtain ⟨later, remaining, rfl⟩ := Reading.map_eq_success read
          rw [Fields.encode_of_middle present member.mask role, contributes,
            Layout.keptBits_cons member.mask integer, if_neg (by simp [role]),
            Nat.and_or_distrib_left, ← Nat.or_assoc]
          exact Fields.restores_inside fields more _ word _ others accepted declares _ tail
            _ _ _ remaining honored
      | @last _ _ bits _ member role disjoint _ _ runWidth runOrder fits tail =>
          have present := Field.isPresent_of_masked declared.suits member.mask earlier
          obtain ⟨own, integer, contributes⟩ := insert_setUint member declared rfl
          have inside : bits.role ≠ .first := by simp [role]
          rw [Fields.decode_of_inside present member.mask inside] at read
          rw [Fields.pieces_of_inside present member.mask inside] at honored ⊢
          obtain ⟨later, remaining, rfl⟩ := Reading.map_eq_success read
          rw [Fields.encode_of_last present member.mask role, contributes,
            Field.containerBytes_of_runWidth runWidth, runOrder,
            Layout.keptBits_cons member.mask integer, if_pos role, Nat.or_zero]
          have restored := Fields.restores fields more _ word
            (collected ||| (word &&& bits.kept own)) others accepted declares tail _ _ _
            remaining honored
          refine ⟨_, ⟨restored.partition, rfl⟩, ?_⟩
          rw [restored.rewritten]
          rfl

theorem Alternatives.restores {condition : List Field → Prop} : (others : Alternatives) →
    (tags : FieldTags) → (choice : others.Choice) → others.AllLayouts condition →
    tags.bound = none →
      Restores (others.decode tags choice) (others.pieces tags choice) (others.encode tags)
  | .cons label type others, tags, .inl destination, accepted, unbounded => by
      intro payload rest choice read honored
      obtain ⟨value, inside, rfl⟩ := Reading.map_eq_success read
      exact WireType.restores type tags destination accepted.1 (.of_unbounded unbounded _)
        _ _ _ inside honored
  | .cons label type others, tags, .inr destination, accepted, unbounded => by
      intro payload rest choice read honored
      obtain ⟨value, inside, rfl⟩ := Reading.map_eq_success read
      exact Alternatives.restores others tags destination accepted.2 unbounded _ _ _ inside honored

end

/-- What was read partitions into pieces, and writing the value again succeeds
with the same pieces, in which the container bits that no member keeps are
cleared.  If the members keep all bits, these are the bytes that were read. -/
theorem WireType.toPayload_ofPayload (type : WireType) (accepted : type.AllLayouts fun _ => True)
    (destination : type.Value) {payload rest : Bytes} {value : type.Value}
    (read : type.ofPayload destination payload = { value, rest })
    (honored : ∀ piece ∈ type.pieces payloadTags destination payload, piece.IsHonored) :
    payload = (type.pieces payloadTags destination payload).flatMap Piece.raw ++ rest ∧
      type.toPayload value =
        .ok ((type.pieces payloadTags destination payload).flatMap Piece.rewritten) ∧
      (type.AllLayouts Layout.KeepsAllBits →
        type.toPayload value =
          .ok ((type.pieces payloadTags destination payload).flatMap Piece.raw)) := by
  have restored := WireType.restores type payloadTags destination accepted
    (.of_unbounded rfl _) payload rest value read honored
  refine ⟨restored.partition, restored.rewritten, fun keeps => ?_⟩
  rw [toPayload, restored.rewritten]
  congr 1
  apply List.flatMap_congr
  exact WireType.pieces_unchanged type payloadTags destination payload keeps

/-- A run that loses bits, in front of a skipped field, an address, a list and
an optional byte; and a run that keeps all bits, in front of a list without a
prefix. -/
theorem WireType.toPayload_ofPayload_of_two_runs :
    let lossy : WireType := Catalog.record "Report"
      [Catalog.firstBits "low" .one "0x1ff0", Catalog.lastBits "high" .two "0x2000",
        ("hint", .uint .one, [("cond", "high==0")]), Catalog.shortAddress "source",
        Catalog.words "clusters", ("note", .optional (.uint .one), [])]
    let whole : WireType := Catalog.record "Flags"
      [Catalog.firstBits "low" .one "0x0f", Catalog.lastBits "high" .one "0xf0",
        ("entries", .list (.uint .two), [])]
    let report : lossy.Value := (0xff, 1, 7, "0x1234", [6], some 5, ())
    let flags : whole.Value := (0xa, 5, [0x0201], ())
    (lossy.ofPayload (0, 0, 7, "stale", [1, 2], none, ())
        [0xff, 0xff, 0x34, 0x12, 0x01, 0x06, 0x00, 0x05, 0x99] =
          { value := report, rest := [0x99] } ∧
      lossy.toPayload report = .ok [0xf0, 0x2f, 0x34, 0x12, 0x01, 0x06, 0x00, 0x05]) ∧
    (whole.ofPayload whole.default [0x5a, 0x01, 0x02] = { value := flags, rest := [] } ∧
      whole.AllLayouts Layout.KeepsAllBits ∧ whole.toPayload flags = .ok [0x5a, 0x01, 0x02]) := by
  intro lossy whole report flags
  have lossyAccepted : lossy.AllLayouts fun _ => True :=
    ⟨rfl, ⟨_, rfl, trivial⟩, trivial, trivial, trivial, trivial, trivial, trivial, trivial⟩
  have wholeKeeps : whole.AllLayouts Layout.KeepsAllBits := by
    refine ⟨rfl, ⟨_, rfl, ⟨?_, ?_, ?_, trivial⟩⟩, trivial, trivial, trivial, trivial⟩
    · rintro bits ⟨⟩
      exact ⟨⟨.one, rfl, by decide⟩, fun _ => ⟨.one, rfl, by decide⟩⟩
    · rintro bits ⟨⟩
      exact ⟨⟨.one, rfl, by decide⟩, fun first => by cases first⟩
    · rintro bits ⟨⟩
  have wholeAccepted : whole.AllLayouts fun _ => True :=
    ⟨rfl, ⟨_, rfl, trivial⟩, trivial, trivial, trivial, trivial⟩
  have lossyRead : lossy.ofPayload (0, 0, 7, "stale", [1, 2], none, ())
      [0xff, 0xff, 0x34, 0x12, 0x01, 0x06, 0x00, 0x05, 0x99] =
        { value := report, rest := [0x99] } := by
    rfl
  have wholeRead : whole.ofPayload whole.default [0x5a, 0x01, 0x02] =
      { value := flags, rest := [] } := by
    rfl
  refine ⟨⟨lossyRead, ?_⟩, wholeRead, wholeKeeps, ?_⟩
  · have honored : ∀ piece ∈ lossy.pieces payloadTags (0, 0, 7, "stale", [1, 2], none, ())
        [0xff, 0xff, 0x34, 0x12, 0x01, 0x06, 0x00, 0x05, 0x99], piece.IsHonored := by
      decide +kernel
    exact (WireType.toPayload_ofPayload lossy lossyAccepted _ lossyRead honored).2.1
  · have honored : ∀ piece ∈ whole.pieces payloadTags whole.default [0x5a, 0x01, 0x02],
        piece.IsHonored := by
      decide +kernel
    exact (WireType.toPayload_ofPayload whole wholeAccepted _ wholeRead honored).2.2 wholeKeeps

end ZigbeeHost
