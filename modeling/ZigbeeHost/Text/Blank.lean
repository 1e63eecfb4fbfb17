/-!
# Blank characters and separators

The blank characters are those with the White_Space property. Trimming
removes them from both ends; splitting cuts a text at the first occurrence
of a two-character operator.
-/

namespace ZigbeeHost.Blank

/-- The code points with the White_Space property, as inclusive ranges. -/
def ranges : List (Nat × Nat) :=
  [(0x09, 0x0d), (0x20, 0x20), (0x85, 0x85), (0xa0, 0xa0), (0x1680, 0x1680), (0x2000, 0x200a),
    (0x2028, 0x2029), (0x202f, 0x202f), (0x205f, 0x205f), (0x3000, 0x3000)]

/-- Whether a character is blank. -/
def isBlank (character : Char) : Bool :=
  ranges.any fun range => range.1 ≤ character.toNat && character.toNat ≤ range.2

/-- Removes the blank characters at both ends. -/
def trim (characters : List Char) : List Char :=
  ((characters.dropWhile isBlank).reverse.dropWhile isBlank).reverse

/-- The parts before and after the first place where `first` is followed by
`second`. -/
def splitAtPair? (first second : Char) : List Char → Option (List Char × List Char)
  | left :: right :: rest =>
      if left = first ∧ right = second then some ([], rest)
      else (splitAtPair? first second (right :: rest)).map fun parts =>
        (left :: parts.1, parts.2)
  | _ => none

/-- A split loses nothing but the separator. -/
theorem append_of_splitAtPair? {first second : Char} {text before after : List Char}
    (split : splitAtPair? first second text = some (before, after)) :
    text = before ++ first :: second :: after := by
  fun_induction splitAtPair? first second text generalizing before after with
  | case1 left right rest equal =>
      obtain ⟨rfl, rfl⟩ := equal
      simp_all
  | case2 left right rest different ih =>
      obtain ⟨⟨head, tail⟩, found, same⟩ := Option.map_eq_some_iff.1 split
      obtain ⟨rfl, rfl⟩ := Prod.mk.inj same
      rw [ih found]
      rfl
  | case3 => simp at split

/-- The ASCII blanks of the core library are blank. -/
theorem isBlank_of_isWhitespace {character : Char} (blank : character.isWhitespace = true) :
    isBlank character = true := by
  simp only [Char.isWhitespace, Bool.or_eq_true, decide_eq_true_eq] at blank
  rcases blank with ((rfl | rfl) | rfl) | rfl <;> decide

end ZigbeeHost.Blank
