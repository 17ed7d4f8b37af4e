import EscapeRoom.Proofs.Yaml.Ledger
import EscapeRoom.Proofs.Yaml.LineContent

/-!
# The walk over lines that may be empty

Outside of every collection the walk over a text passes the lines on which nothing stands.  It stops
in front of what stands on the next line, where it also knows whether that is at the begin of the
line, or at the end of the text.

* `Lexer.top` — the state of the walk outside of everything.
* `Lexer.rest_pastGap`, `Lexer.standsOn_pastGap` — where it is behind the gap of a line.
* `Lexer.Reaches`, `Lexer.reaches_margin` — where it is behind lines with nothing on them.
-/

namespace EscapeRoom.Yaml

/-! ### Past one line -/

/-- Whether the cursor is at what stands on a line: at the begin of the line, or behind a space. -/
def Cursor.StandsOn (c : Cursor) (line : List Char) : Prop :=
  c.column = 0 ∧ lineContent false line = line ∨ c.column ≠ 0 ∧ line.head? = some ' '

theorem Cursor.rest_skipSpan (c : Cursor) (p : Char → Bool) :
    (c.skipSpan p).rest = c.rest.dropWhile p := by
  have hsplit := List.takeWhile_append_dropWhile (p := p) (l := c.rest)
  calc c.rest.drop (c.rest.takeWhile p).length
      = (c.rest.takeWhile p ++ c.rest.dropWhile p).drop (c.rest.takeWhile p).length := by
        rw [hsplit]
    _ = c.rest.dropWhile p := List.drop_left


namespace Lexer

/-- The walk outside of everything, behind some tokens of which the last one comes first. -/
def top (back : List Token) (cursor : Cursor) (keyAllowed : Bool) : Lexer :=
  { cursor, back, count := back.length, settled := back.length, indent := -1, outer := [],
    keys := [none], keyAllowed }

variable {back : List Token} {c : Cursor} {line tail : List Char} {more : List (List Char)}

/-- A line break is no gap and begins no comment. -/
theorem not_isGap_of_isBreak {b : Char} (h : isBreak b = true) (tabs : Bool) :
    isGap tabs b = false ∧ b ≠ '#' := by
  simp only [isBreak, Bool.or_eq_true, beq_iff_eq] at h
  rcases h with (((rfl | rfl) | rfl) | rfl) | rfl <;> cases tabs <;> decide

/-- Past a gap, and past a comment if one follows. -/
theorem pastGap_top (back : List Token) (keyAllowed : Bool)
    (hmark : c.column = 0 → c.rest.head? ≠ some '\ufeff') :
    (top back c keyAllowed).pastGap =
      if (c.skipSpan (isGap !keyAllowed)).at? '#' then
        (c.skipSpan (isGap !keyAllowed)).skipSpan fun x => !isBreak x
      else c.skipSpan (isGap !keyAllowed) := by
  have hnone : (c.column == 0 && c.at? '\ufeff') = false := by
    rw [Bool.and_eq_false_iff, beq_eq_false_iff_ne]
    by_cases hcolumn : c.column = 0
    · exact .inr (beq_eq_false_iff_ne.2 (hmark hcolumn))
    · exact .inl hcolumn
  show (let d := if c.column == 0 && c.at? '\ufeff' then c.skip 1 else c
    let d := d.skipSpan (isGap !keyAllowed)
    if d.at? '#' then d.skipSpan (fun x => !isBreak x) else d) = _
  rw [hnone]
  rfl

/-- Past a gap the walk is at what stands on the line, or behind the line. -/
theorem rest_pastGap (back : List Token) (keyAllowed : Bool)
    (hmark : c.column = 0 → line.head? ≠ some '\ufeff')
    (hrest : c.rest = line ++ tail) (hline : IsUnbroken line) (hends : EndsLine tail more) :
    (top back c keyAllowed).pastGap.rest = lineContent (!keyAllowed) line ++ tail := by
  have htail := hends.isBreak_head?
  have hmark' : c.column = 0 → c.rest.head? ≠ some '\ufeff' := by
    intro hcolumn
    rw [hrest]
    refine head?_append_ne (hmark hcolumn) fun b hb heq => ?_
    exact absurd (htail b hb) (by rw [heq]; decide)
  have hspan : (c.skipSpan (isGap !keyAllowed)).rest =
      line.dropWhile (isGap !keyAllowed) ++ tail := by
    rw [Cursor.rest_skipSpan, hrest]
    exact dropWhile_append_tail fun b hb => (not_isGap_of_isBreak (htail b hb) _).1
  rw [pastGap_top back keyAllowed hmark', lineContent]
  generalize hbody : line.dropWhile (isGap !keyAllowed) = body at hspan
  have hcomment : (c.skipSpan (isGap !keyAllowed)).at? '#' = (body.head? == some '#') := by
    rw [Cursor.at?, hspan]
    cases body with
    | cons x body => rfl
    | nil =>
        cases tail with
        | nil => rfl
        | cons b tail =>
            exact beq_eq_false_iff_ne.2 fun heq =>
              (not_isGap_of_isBreak (htail b rfl) true).2 (Option.some.inj heq)
  rw [hcomment]
  split
  · have hunbroken : body.dropWhile (fun x => !isBreak x) = [] := by
      refine List.dropWhile_eq_nil_iff.2 fun x hx => ?_
      rw [hline x ((List.dropWhile_sublist _).subset (hbody ▸ hx))]
      rfl
    rw [Cursor.rest_skipSpan, hspan, dropWhile_append_tail, hunbroken]
    intro b hb
    rw [htail b hb]
    rfl
  · exact hspan

/-- When something stands on the line, the walk stops there. -/
theorem standsOn_pastGap (hcolumn : c.column = 0) (hmark : line.head? ≠ some '\ufeff')
    (hrest : c.rest = line ++ tail) (hcontent : lineContent false line ≠ []) :
    (top back c true).pastGap.StandsOn line := by
  cases line with
  | nil => exact absurd rfl hcontent
  | cons x line =>
      rw [List.cons_append] at hrest
      rw [pastGap_top back true fun _ => by rwa [hrest], Bool.not_true]
      cases hx : isGap false x with
      | true =>
          have hspace : x = ' ' := by simpa [isGap] using hx
          have hspan : 0 < (c.skipSpan (isGap false)).column := by
            show 0 < c.column + (c.rest.takeWhile (isGap false)).length
            rw [hrest, List.takeWhile_cons_of_pos hx, List.length_cons]
            omega
          right
          refine ⟨?_, by rw [hspace]; rfl⟩
          split
          · exact Nat.ne_of_gt (Nat.lt_of_lt_of_le hspan (Nat.le_add_right _ _))
          · exact Nat.ne_of_gt hspan
      | false =>
          have hspan : c.skipSpan (isGap false) = c := by
            rw [Cursor.skipSpan, hrest, List.takeWhile_cons_of_neg (Bool.eq_false_iff.1 hx)]
            rfl
          have hbody : (x :: line).dropWhile (isGap false) = x :: line :=
            List.dropWhile_cons_of_neg (Bool.eq_false_iff.1 hx)
          have hnone : (some x == some '#') = false := by
            refine Bool.eq_false_iff.2 fun hcomment => hcontent ?_
            rw [lineContent, hbody]
            exact if_pos hcomment
          left
          rw [hspan, Cursor.at?, hrest, List.head?_cons, hnone, lineContent, hbody]
          refine ⟨hcolumn, if_neg ?_⟩
          rw [List.head?_cons, hnone]
          exact Bool.false_ne_true

/-- Past a line break the walk is at the begin of what follows; between a carriage return and a line
feed there is an empty line. -/
theorem skipLine_eq {b : Char} {rest : List Char} (hb : isBreak b = true)
    (hrest : c.rest = b :: rest) :
    c.skipLine.column = 0 ∧ c.skipLine.rest.length < c.rest.length ∧
      (c.skipLine.rest = rest ∨ lines rest = [] :: lines c.skipLine.rest) := by
  rw [Cursor.skipLine, hrest]
  split
  · rename_i rest' heq
    cases heq
    refine ⟨rfl, ?_, .inr (lines_append_cons (List.forall_mem_nil _) rfl rest')⟩
    show rest'.length < rest'.length + 1 + 1
    omega
  · rename_i b' rest' _ heq
    cases heq
    rw [if_pos hb]
    exact ⟨rfl, Nat.lt_succ_self _, .inl rfl⟩
  · rename_i heq
    cases heq

/-- The walk outside of everything when the next lines with anything on them are these: it is at the
end of the text, or at what stands on the first of them. -/
inductive Reaches (back : List Token) : List (List Char) → Lexer → Prop
  | eof {c : Cursor} (h : c.rest = []) (keyAllowed : Bool) :
      Reaches back [] (top back c keyAllowed)
  | line {c : Cursor} {line : List Char} {more : List (List Char)}
      (hcontent : lineContent false line ≠ []) (h : lines c.rest = lineContent false line :: more)
      (hstands : c.StandsOn line) :
      Reaches back (line :: more) (top back c true)

/-- The walk stops in front of what is no line break. -/
theorem skipToToken_of_rest {fuel : Nat} {keyAllowed : Bool} {x : Char} {rest : List Char}
    (hrest : (top back c keyAllowed).pastGap.rest = x :: rest) (hx : isBreak x = false) :
    skipToToken (fuel + 1) (top back c keyAllowed) =
      top back (top back c keyAllowed).pastGap keyAllowed := by
  rw [skipToToken_succ, if_neg]
  · rfl
  · rw [Cursor.atBreak, hrest]
    show ¬ isBreak x = true
    rw [hx]
    exact Bool.false_ne_true

/-- Behind a line without anything on it the walk goes on as it does on the next lines. -/
theorem reaches_of_lineContent_eq_nil {fuel : Nat} {keyAllowed : Bool}
    (hmark : c.column = 0 → line.head? ≠ some '\ufeff') (hrest : c.rest = line ++ tail)
    (hline : IsUnbroken line) (htail : EndsLine tail more)
    (hcontent : lineContent (!keyAllowed) line = []) (hfuel : c.rest.length ≤ fuel)
    (ih : ∀ (k : Nat) (c' : Cursor), c'.rest.length < c.rest.length → c'.rest.length ≤ k →
      c'.column = 0 → lines c'.rest ⊆ more →
        Reaches back ((lines c'.rest).dropWhile isEmptyLine)
          (skipToToken (k + 1) (top back c' true))) :
    Reaches back (more.dropWhile isEmptyLine) (skipToToken (fuel + 1) (top back c keyAllowed)) := by
  have hgap := rest_pastGap back keyAllowed hmark hrest hline htail
  rw [hcontent, List.nil_append] at hgap
  rw [skipToToken_succ]
  cases htail with
  | eof =>
      rw [if_neg (by rw [Cursor.atBreak, hgap]; exact Bool.false_ne_true)]
      exact .eof hgap keyAllowed
  | @cut b hb rest =>
      obtain ⟨hcolumn, hless, hsame⟩ := skipLine_eq hb hgap
      have hlength : c.rest.length = line.length + (b :: rest).length := by
        rw [hrest, List.length_append]
      rw [hgap] at hless
      obtain ⟨k, rfl⟩ : ∃ k, fuel = k + 1 := by
        refine Nat.exists_eq_succ_of_ne_zero ?_
        rw [List.length_cons] at hlength
        omega
      rw [if_pos (by rw [Cursor.atBreak, hgap]; exact hb)]
      have hflow : (keyAllowed || !(top back c keyAllowed).inFlow) = true := Bool.or_true keyAllowed
      show Reaches back _ (skipToToken (k + 1) (top back _ (keyAllowed || _)))
      rw [hflow]
      -- a line feed behind a carriage return adds an empty line
      rcases hsame with hsame | hsame
      · have hnext := ih k _ (by omega) (by omega) hcolumn (by rw [hsame]; exact List.Subset.refl _)
        rwa [hsame] at hnext
      · have hnext := ih k _ (by omega) (by omega) hcolumn
          (by rw [hsame]; exact List.subset_cons_self _ _)
        rw [hsame]
        exact hnext

/-- **At the begin of a line the walk goes on to the first line with anything on it.** -/
theorem reaches_margin (back : List Token) (fuel : Nat) (c : Cursor)
    (hfuel : c.rest.length ≤ fuel) (hcolumn : c.column = 0)
    (hhollow : ∀ line ∈ lines c.rest, IsHollow line) :
    Reaches back ((lines c.rest).dropWhile isEmptyLine)
      (skipToToken (fuel + 1) (top back c true)) := by
  induction hn : c.rest.length using Nat.strong_induction_on generalizing c fuel with
  | h n ih =>
  subst hn
  obtain ⟨line, tail, more, hrest, hline, htail, hlines⟩ := exists_first_line c.rest
  rw [hlines] at hhollow ⊢
  have hmark := (hhollow line List.mem_cons_self).head?_ne
  by_cases hcontent : lineContent false line = []
  · have hempty : isEmptyLine line = true := by rw [isEmptyLine, hcontent]; rfl
    rw [List.dropWhile_cons_of_pos hempty]
    refine reaches_of_lineContent_eq_nil (fun _ => hmark) hrest hline htail hcontent hfuel ?_
    intro k c' hless hk hcolumn' hsubset
    refine ih _ hless k c' hk hcolumn' (fun l hl => ?_) rfl
    exact hhollow l (List.mem_cons_of_mem _ (hsubset hl))
  · have hsome : isEmptyLine line = false := List.isEmpty_eq_false_iff.2 hcontent
    have hgap := rest_pastGap back true (fun _ => hmark) hrest hline htail
    have hunbroken : IsUnbroken (lineContent false line) := fun x hx =>
      hline x ((lineContent_sublist false line).subset hx)
    obtain ⟨x, body, hbody⟩ := List.exists_cons_of_ne_nil hcontent
    have hx : isBreak x = false := hunbroken x (by rw [hbody]; exact List.mem_cons_self)
    have hstop : (top back c true).pastGap.rest = x :: (body ++ tail) := by
      rw [hgap, Bool.not_true, hbody, List.cons_append]
    rw [List.dropWhile_cons_of_neg (by rw [hsome]; decide), skipToToken_of_rest hstop hx]
    refine .line hcontent ?_ (standsOn_pastGap hcolumn hmark hrest hcontent)
    rw [hgap]
    exact lines_append hunbroken htail

end Lexer

end EscapeRoom.Yaml
