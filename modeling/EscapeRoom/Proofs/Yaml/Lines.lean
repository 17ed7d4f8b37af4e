import EscapeRoom.Yaml.Cursor
import EscapeRoom.Proofs.Words
import Mathlib.Data.List.Infix

/-!
# Lines of a YAML text

Line breaks are more than line feeds here.  A text with a forbidden character is read up to some
place in front of it, so what is read is the front of the text, and its lines are fronts of lines.

* `lines`, `line_induction` — the lines of a text, and induction over them.
* `exists_first_line`, `lines_cons`, `exists_of_lines_eq_cons` — a line and what follows it.
* `Source.broken_ofText`, `Source.chars_front`, `exists_line_of_front` — what is read of a text.
-/

namespace EscapeRoom.Yaml

/-! ### Lines -/

/-- The lines of a text, without their breaks. -/
def lines (cs : List Char) : List (List Char) := Text.splitOn isBreak cs

/-- Whether a text is free of line breaks. -/
def IsUnbroken (line : List Char) : Prop := ∀ c ∈ line, isBreak c = false

theorem lines_of_isUnbroken {line : List Char} (h : IsUnbroken line) : lines line = [line] :=
  Text.splitOn_of_not_mem h

theorem lines_append_cons {line : List Char} (h : IsUnbroken line) {b : Char}
    (hb : isBreak b = true) (rest : List Char) :
    lines (line ++ b :: rest) = line :: lines rest := by
  rw [lines, Text.splitOn_append_cons hb, Text.splitOn_of_not_mem h]
  rfl

/-- Induction over the lines of a text. -/
@[elab_as_elim]
theorem line_induction {motive : List Char → Prop}
    (last : ∀ line, IsUnbroken line → motive line)
    (cons : ∀ line b rest, IsUnbroken line → isBreak b = true → motive rest →
      motive (line ++ b :: rest)) (cs : List Char) : motive cs := by
  suffices h : ∀ line, IsUnbroken line → motive (line ++ cs) from h [] (List.forall_mem_nil _)
  induction cs with
  | nil =>
      intro line hline
      rw [List.append_nil]
      exact last line hline
  | cons c cs ih =>
      intro line hline
      cases hc : isBreak c with
      | true => exact cons line c cs hline hc (ih [] (List.forall_mem_nil _))
      | false =>
          have hmore : IsUnbroken (line ++ [c]) :=
            List.forall_mem_append.2 ⟨hline, List.forall_mem_singleton.2 hc⟩
          simpa using ih (line ++ [c]) hmore

/-- What follows a line, and the lines of it: nothing, or a break and other lines. -/
inductive EndsLine : List Char → List (List Char) → Prop
  | eof : EndsLine [] []
  | cut {b : Char} (hb : isBreak b = true) (rest : List Char) : EndsLine (b :: rest) (lines rest)

theorem EndsLine.isBreak_head? {tail : List Char} {more : List (List Char)}
    (h : EndsLine tail more) : ∀ b ∈ tail.head?, isBreak b = true := by
  cases h with
  | eof => nofun
  | cut hb rest =>
      rintro _ ⟨⟩
      exact hb

theorem lines_append {line tail : List Char} {more : List (List Char)} (hline : IsUnbroken line)
    (h : EndsLine tail more) : lines (line ++ tail) = line :: more := by
  cases h with
  | eof => rw [List.append_nil, lines_of_isUnbroken hline]
  | cut hb rest => exact lines_append_cons hline hb rest

/-- A text is its first line and what follows it. -/
theorem exists_first_line (cs : List Char) :
    ∃ line tail more, cs = line ++ tail ∧ IsUnbroken line ∧ EndsLine tail more ∧
      lines cs = line :: more := by
  induction cs using line_induction with
  | last line h =>
      exact ⟨line, [], [], (List.append_nil line).symm, h, .eof, lines_of_isUnbroken h⟩
  | cons line b rest h hb _ =>
      exact ⟨line, b :: rest, lines rest, rfl, h, .cut hb rest, lines_append_cons h hb rest⟩

theorem lines_cons {c : Char} (hc : isBreak c = false) {rest first : List Char}
    {more : List (List Char)} (h : lines rest = first :: more) :
    lines (c :: rest) = (c :: first) :: more := by
  rw [lines] at h ⊢
  rw [Text.splitOn, h]
  exact if_neg (Bool.eq_false_iff.1 hc)

/-- The lines behind a character. -/
theorem exists_of_lines_eq_cons {cs body : List Char} {c : Char} {more : List (List Char)}
    (h : lines cs = (c :: body) :: more) :
    ∃ rest, cs = c :: rest ∧ isBreak c = false ∧ lines rest = body :: more := by
  cases cs with
  | nil => cases h
  | cons d rest =>
      obtain ⟨piece, pieces, hpieces⟩ :=
        List.exists_cons_of_ne_nil (Text.splitOn_ne_nil isBreak rest)
      rw [lines, Text.splitOn, hpieces] at h
      dsimp only at h
      split at h
      · cases h
      · rename_i hd
        cases h
        exact ⟨rest, rfl, Bool.eq_false_iff.2 hd, hpieces⟩

/-- Whether a text is at a space or at its end shows on its first line. -/
theorem atSpaceOrEnd_of_lines {cs first : List Char} {more : List (List Char)}
    (h : lines cs = first :: more) : atSpaceOrEnd cs = atSpaceOrEnd first := by
  obtain ⟨line, tail, others, rfl, hline, hends, hlines⟩ := exists_first_line cs
  cases hlines.symm.trans h
  cases first with
  | cons c first => rfl
  | nil =>
      cases hends with
      | eof => rfl
      | @cut b hb rest => exact Bool.or_eq_true_iff.2 (.inr hb)

/-- A `---` at the begin of a text is one at the begin of its first line. -/
theorem exists_of_lines_marker {rest : List Char} {line : List Char} {more : List (List Char)}
    (h : lines ('-' :: '-' :: '-' :: rest) = line :: more) :
    ∃ after, line = '-' :: '-' :: '-' :: after ∧ lines rest = after :: more := by
  obtain ⟨after, others, hrest⟩ := List.exists_cons_of_ne_nil (Text.splitOn_ne_nil isBreak rest)
  have hlines : lines ('-' :: '-' :: '-' :: rest) = ('-' :: '-' :: '-' :: after) :: others :=
    lines_cons rfl (lines_cons rfl (lines_cons rfl hrest))
  obtain ⟨hline, hmore⟩ := List.cons.inj (h.symm.trans hlines)
  exact ⟨after, hline, by rw [hmore]; exact hrest⟩

/-- A `---` at the begin of the first line of a text is one at the begin of the text. -/
theorem exists_of_lines_eq_marker {cs after : List Char} {more : List (List Char)}
    (h : lines cs = ('-' :: '-' :: '-' :: after) :: more) :
    ∃ rest, cs = '-' :: '-' :: '-' :: rest ∧ lines rest = after :: more := by
  obtain ⟨rest₁, rfl, -, h₁⟩ := exists_of_lines_eq_cons h
  obtain ⟨rest₂, rfl, -, h₂⟩ := exists_of_lines_eq_cons h₁
  obtain ⟨rest, rfl, -, h₃⟩ := exists_of_lines_eq_cons h₂
  exact ⟨rest, rfl, h₃⟩

/-! ### What is read of a text -/

/-- Reading on behind some characters: a forbidden one is noticed, what is read is the front of the
text, and without a forbidden character it is all of it. -/
theorem Source.read_eq (kept block : List Char) (size : Nat) (cs : List Char) :
    (read kept block size cs).broken = !cs.all isAllowed ∧
      (read kept block size cs).chars <+: (block ++ kept).reverse ++ cs ∧
      (cs.all isAllowed = true →
        (read kept block size cs).chars = (block ++ kept).reverse ++ cs) := by
  induction cs generalizing kept block size with
  | nil => exact ⟨rfl, List.prefix_append _ _, fun _ => (List.append_nil _).symm⟩
  | cons c cs ih =>
      cases hc : isAllowed c with
      | false =>
          simp only [read, hc, List.all_cons, Bool.not_false, if_true, Bool.false_and]
          refine ⟨trivial, ?_, nofun⟩
          rw [List.reverse_append, List.append_assoc]
          exact List.prefix_append _ _
      | true =>
          have hblock : (block ++ kept).reverse ++ c :: cs =
              ((c :: block) ++ kept).reverse ++ cs := by simp
          have hkept : (block ++ kept).reverse ++ c :: cs =
              ([c] ++ (block ++ kept)).reverse ++ cs := by simp
          simp only [read, hc, List.all_cons, Bool.not_true, Bool.false_eq_true, if_false,
            Bool.true_and]
          split
          · rw [hkept]
            exact ih _ _ _
          · rw [hblock]
            exact ih _ _ _

theorem Source.broken_ofText (cs : List Char) : (ofText cs).broken = !cs.all isAllowed :=
  (read_eq [] [] 0 cs).1

theorem Source.chars_front (cs : List Char) : (ofText cs).chars <+: cs := (read_eq [] [] 0 cs).2.1

theorem Source.chars_eq {cs : List Char} (h : cs.all isAllowed = true) : (ofText cs).chars = cs :=
  (read_eq [] [] 0 cs).2.2 h

/-- The lines of the front of a text are fronts of its lines. -/
theorem exists_line_of_front {front cs : List Char} (h : front <+: cs) :
    ∀ line ∈ lines front, ∃ whole ∈ lines cs, line <+: whole := by
  induction cs using line_induction generalizing front with
  | last whole hwhole =>
      have hfront : IsUnbroken front := fun c hc => hwhole c (h.subset hc)
      rw [lines_of_isUnbroken hfront, lines_of_isUnbroken hwhole]
      exact List.forall_mem_singleton.2 ⟨whole, List.mem_singleton_self _, h⟩
  | cons whole b rest hwhole hb ih =>
      rw [lines_append_cons hwhole hb]
      have hshort : front <+: whole →
          ∀ line ∈ lines front, ∃ w ∈ whole :: lines rest, line <+: w := by
        intro hstarts
        have hfront : IsUnbroken front := fun c hc => hwhole c (hstarts.subset hc)
        rw [lines_of_isUnbroken hfront]
        exact List.forall_mem_singleton.2 ⟨whole, List.mem_cons_self, hstarts⟩
      -- the front ends within the first line, or it holds the line with its break
      rcases List.prefix_or_prefix_of_prefix h (List.prefix_append whole _) with hin | ⟨past, rfl⟩
      · exact hshort hin
      · rcases List.prefix_cons_iff.1 ((List.prefix_append_right_inj whole).1 h) with
          rfl | ⟨more, rfl, hmore⟩
        · exact hshort (by rw [List.append_nil])
        · rw [lines_append_cons hwhole hb]
          refine List.forall_mem_cons.2 ⟨⟨whole, List.mem_cons_self, List.prefix_refl _⟩, ?_⟩
          intro line hline
          obtain ⟨w, hw, hstarts⟩ := ih hmore line hline
          exact ⟨w, List.mem_cons_of_mem _ hw, hstarts⟩

end EscapeRoom.Yaml
