/-!
# Blank characters, trimming and words

A character is blank when it has the Unicode property `White_Space`.  Trimming and splitting into
words follow that property, so a no-break space separates words and a zero-width space does not.

* `isBlank` — the property, as a table of ranges.
* `trim` — a text without its blank ends.
* `words` — the maximal runs of non-blank characters.
* `splitOn` — the pieces between separators; one more than there are separators.
-/

namespace EscapeRoom.Text

/-- The inclusive code point ranges of `White_Space`. -/
def blankRanges : List (Nat × Nat) :=
  [(0x09, 0x0D), (0x20, 0x20), (0x85, 0x85), (0xA0, 0xA0), (0x1680, 0x1680), (0x2000, 0x200A),
   (0x2028, 0x2029), (0x202F, 0x202F), (0x205F, 0x205F), (0x3000, 0x3000)]

/-- A character with the property `White_Space`. -/
def isBlank (c : Char) : Bool :=
  blankRanges.any fun range => range.1 ≤ c.toNat && c.toNat ≤ range.2

/-- The characters from the first non-blank one on. -/
def trimLeft (cs : List Char) : List Char := cs.dropWhile isBlank

/-- The characters up to the last non-blank one. -/
def trimRight (cs : List Char) : List Char := (cs.reverse.dropWhile isBlank).reverse

/-- A text without the blanks at its two ends. -/
def trim (cs : List Char) : List Char := trimRight (trimLeft cs)

/-- The pieces of a text between the characters that `sep` accepts. -/
def splitOn (sep : Char → Bool) : List Char → List (List Char)
  | [] => [[]]
  | c :: cs =>
      match splitOn sep cs with
      | [] => [[c]]
      | piece :: pieces => if sep c then [] :: piece :: pieces else (c :: piece) :: pieces

/-- A text has at least one piece. -/
theorem splitOn_ne_nil (sep : Char → Bool) (cs : List Char) : splitOn sep cs ≠ [] := by
  cases cs with
  | nil => simp [splitOn]
  | cons c cs =>
      rw [splitOn]
      split
      · simp
      · split <;> simp

/-- The pieces hold no other characters than the text. -/
theorem mem_of_mem_splitOn {sep : Char → Bool} {cs piece : List Char}
    (hpiece : piece ∈ splitOn sep cs) {c : Char} (hc : c ∈ piece) : c ∈ cs := by
  induction cs generalizing piece with
  | nil =>
      rw [splitOn, List.mem_singleton] at hpiece
      rwa [hpiece] at hc
  | cons d cs ih =>
      obtain ⟨first, pieces, hsplit⟩ := List.exists_cons_of_ne_nil (splitOn_ne_nil sep cs)
      have hrest : ∀ p ∈ first :: pieces, c ∈ p → c ∈ d :: cs := by
        intro p hp hcp
        rw [← hsplit] at hp
        exact List.mem_cons_of_mem d (ih hp hcp)
      rw [splitOn, hsplit] at hpiece
      by_cases hsep : sep d = true
      · simp only [hsep, if_true] at hpiece
        rcases List.mem_cons.1 hpiece with rfl | hpiece
        · exact absurd hc List.not_mem_nil
        · exact hrest piece hpiece hc
      · simp only [hsep, Bool.false_eq_true, if_false] at hpiece
        rcases List.mem_cons.1 hpiece with rfl | hpiece
        · rcases List.mem_cons.1 hc with rfl | hc
          · exact List.mem_cons_self
          · exact hrest first List.mem_cons_self hc
        · exact hrest piece (List.mem_cons_of_mem first hpiece) hc

/-- The maximal runs of non-blank characters. -/
def words (cs : List Char) : List (List Char) :=
  (splitOn isBlank cs).filter fun piece => !piece.isEmpty

/-- A string without its blank ends. -/
def trimmed (s : String) : String := String.ofList (trim s.toList)

/-- A string of blanks only, or an empty one. -/
def isBlankText (s : String) : Bool := s.toList.all isBlank

def wordsOf (s : String) : List String := (words s.toList).map String.ofList

/-- Whether a string begins with `head`. -/
def startsWith (head s : String) : Bool := head.toList.isPrefixOf s.toList

end EscapeRoom.Text
