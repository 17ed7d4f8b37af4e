import EscapeRoom.Text.Blank
import Mathlib.Data.List.DropRight

/-!
# Pieces and words

Cutting a text at separators is what the library does for lists, so its lemmas apply.  Blanks
separate words: those at the ends of a text add no words, and a word is never empty and holds no
blank.

* `splitOn_eq_splitOnP`, `splitOn_append_cons`, `splitOn_of_not_mem` — the pieces of a text.
* `words_append_cons`, `words_of_isWord` — the words around a blank, and of a single word.
* `words_trim`, `wordsOf_trimmed` — trimming does not change the words.
* `isWord_of_mem_wordsOf` — what words are made of.
-/

namespace EscapeRoom.Text

/-! ### Pieces -/

section
variable {sep : Char → Bool}

theorem splitOn_eq_splitOnP (cs : List Char) : splitOn sep cs = cs.splitOnP sep := by
  induction cs with
  | nil => exact List.splitOnP_nil.symm
  | cons c cs ih =>
      obtain ⟨piece, pieces, hpieces⟩ := List.exists_cons_of_ne_nil (splitOn_ne_nil sep cs)
      rw [List.splitOnP_cons_eq_if_modifyHead, ← ih, splitOn, hpieces]
      rfl

theorem splitOn_of_not_mem {cs : List Char} (h : ∀ c ∈ cs, sep c = false) :
    splitOn sep cs = [cs] := by
  rw [splitOn_eq_splitOnP]
  exact List.splitOnP_eq_singleton h

/-- A separator ends the pieces before it. -/
theorem splitOn_append_cons {d : Char} (hd : sep d = true) (cs rest : List Char) :
    splitOn sep (cs ++ d :: rest) = splitOn sep cs ++ splitOn sep rest := by
  simp only [splitOn_eq_splitOnP]
  exact List.splitOnP_append_cons cs rest hd

/-- A piece holds no separator. -/
theorem not_sep_of_mem_splitOn {cs piece : List Char} (h : piece ∈ splitOn sep cs) :
    ∀ c ∈ piece, sep c = false := by
  induction cs generalizing piece with
  | nil =>
      rw [splitOn, List.mem_singleton] at h
      rw [h]
      exact fun _ hc => absurd hc List.not_mem_nil
  | cons d cs ih =>
      obtain ⟨first, pieces, hpieces⟩ := List.exists_cons_of_ne_nil (splitOn_ne_nil sep cs)
      have hcons : splitOn sep (d :: cs) =
          if sep d = true then [] :: first :: pieces else (d :: first) :: pieces := by
        rw [splitOn, hpieces]
      rw [hpieces] at ih
      rw [hcons] at h
      -- the character ends an empty piece or belongs to the first one
      split at h
      · rcases List.mem_cons.1 h with rfl | h
        · exact fun _ hc => absurd hc List.not_mem_nil
        · exact ih h
      · rename_i hd
        rcases List.mem_cons.1 h with rfl | h
        · exact List.forall_mem_cons.2 ⟨Bool.eq_false_iff.2 hd, ih List.mem_cons_self⟩
        · exact ih (List.mem_cons_of_mem first h)

end

/-! ### Words -/

/-- A text that is not empty and holds no blank. -/
def IsWord (cs : List Char) : Prop := cs ≠ [] ∧ ∀ c ∈ cs, isBlank c = false

instance (cs : List Char) : Decidable (IsWord cs) :=
  @instDecidableAnd _ _ _ (List.decidableBAll (fun c => isBlank c = false) cs)

theorem isWord_of_mem_words {cs word : List Char} (h : word ∈ words cs) : IsWord word := by
  obtain ⟨hpiece, hkept⟩ := List.mem_filter.1 h
  exact ⟨by simpa using hkept, not_sep_of_mem_splitOn hpiece⟩

/-- A blank ends the words before it. -/
theorem words_append_cons {d : Char} (hd : isBlank d = true) (cs rest : List Char) :
    words (cs ++ d :: rest) = words cs ++ words rest := by
  rw [words, splitOn_append_cons hd, List.filter_append]
  rfl

theorem words_of_isWord {cs : List Char} (h : IsWord cs) : words cs = [cs] := by
  rw [words, splitOn_of_not_mem h.2]
  exact List.filter_eq_self.2 fun piece hpiece => by
    rw [List.mem_singleton.1 hpiece]
    simpa using h.1

theorem words_trimLeft (cs : List Char) : words (trimLeft cs) = words cs := by
  induction cs with
  | nil => rfl
  | cons c cs ih =>
      cases hc : isBlank c with
      | true =>
          have hdropped : trimLeft (c :: cs) = trimLeft cs := List.dropWhile_cons_of_pos hc
          have hwords : words (c :: cs) = words cs := words_append_cons hc [] cs
          rw [hdropped, hwords, ih]
      | false =>
          have hkept : trimLeft (c :: cs) = c :: cs :=
            List.dropWhile_cons_of_neg (Bool.eq_false_iff.1 hc)
          rw [hkept]

theorem words_trimRight (cs : List Char) : words (trimRight cs) = words cs := by
  show words (cs.rdropWhile isBlank) = words cs
  induction cs using List.reverseRecOn with
  | nil => rfl
  | append_singleton cs c ih =>
      cases hc : isBlank c with
      | true =>
          have hwords : words (cs ++ [c]) = words cs ++ words [] := words_append_cons hc cs []
          rw [List.rdropWhile_concat_pos isBlank cs c hc, ih, hwords]
          exact (List.append_nil _).symm
      | false => rw [List.rdropWhile_concat_neg isBlank cs c (Bool.eq_false_iff.1 hc)]

theorem words_trim (cs : List Char) : words (trim cs) = words cs := by
  rw [trim, words_trimRight, words_trimLeft]

/-- The words of a line are those of the trimmed line. -/
theorem wordsOf_trimmed (s : String) : wordsOf (trimmed s) = wordsOf s := by
  have htext : (trimmed s).toList = trim s.toList := String.toList_ofList
  rw [wordsOf, wordsOf, htext, words_trim]

theorem isWord_of_mem_wordsOf {s word : String} (h : word ∈ wordsOf s) : IsWord word.toList := by
  obtain ⟨cs, hcs, rfl⟩ := List.mem_map.1 h
  rw [String.toList_ofList]
  exact isWord_of_mem_words hcs

/-- A text is trimmed already if it begins with a character that is not blank and ends with a
word. -/
theorem trim_of_ends {c : Char} (hc : isBlank c = false) (cs : List Char) {word : List Char}
    (hword : IsWord word) : trim (c :: cs ++ word) = c :: cs ++ word := by
  obtain ⟨front, last, rfl⟩ : ∃ front last, word = front ++ [last] :=
    ⟨word.dropLast, word.getLast hword.1, (List.dropLast_append_getLast hword.1).symm⟩
  have hlast : isBlank last = false := hword.2 last (by simp)
  have hleft : trimLeft (c :: cs ++ (front ++ [last])) = c :: cs ++ (front ++ [last]) :=
    List.dropWhile_cons_of_neg (Bool.eq_false_iff.1 hc)
  rw [trim, hleft, ← List.append_assoc]
  exact List.rdropWhile_concat_neg isBlank _ last (Bool.eq_false_iff.1 hlast)

end EscapeRoom.Text
