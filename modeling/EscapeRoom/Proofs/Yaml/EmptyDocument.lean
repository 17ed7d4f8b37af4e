import EscapeRoom.Proofs.Yaml.FirstEvent
import EscapeRoom.Proofs.Yaml.TopLexeme

/-!
# Texts that are empty documents

A text of lines that hold little is read line by line.  Its run stops at the end of the text, or it
comes to a line on which a marker or something else stands; and behind a first marker it goes on in
the same way.  So the lines decide whether the tree of the text is null.

* `Lexer.Outcome`, `Lexer.outcome_of_reaches` — what a run comes to.
* `Lexer.outcome_behind_marker`, `Lexer.shown_behind_marker` — what follows behind a `---`.
* `Tree.ofText_of_isHollow` — null exactly for empty documents.
-/

namespace EscapeRoom.Yaml

namespace Lexer

variable {back : List Token} {c : Cursor} {fuel : Nat} {keyAllowed : Bool} {x : Char}
  {rest : List Char}

/-! ### One step of a run -/

/-- What a walk at the end of the text gives behind some tokens. -/
def ended (broken : Bool) (back : List Token) : List Token × Option Fault :=
  if broken then (back.reverse, some .forbiddenCharacter) else ((.streamEnd :: back).reverse, none)

section
variable {c' : Cursor} {keyAllowed' : Bool}
  (hskip : skipToToken (fuel + 1) (top back c keyAllowed) = top back c' keyAllowed')
include hskip

omit hskip in
/-- The tokens of such a state are settled. -/
theorem take_settled_top :
    (top back c keyAllowed).back.reverse.take (top back c keyAllowed).settled = back.reverse :=
  List.take_of_length_le List.length_reverse.le

theorem run_of_eof (broken : Bool) (hrest : c'.rest = []) :
    run broken (fuel + 1) (top back c keyAllowed) = ended broken back := by
  have hnext : next fuel (top back c keyAllowed) = .ok (top (.streamEnd :: back) c' false) := by
    rw [next_of_skipToToken hskip, lexeme_eof hrest]
    rfl
  rw [run, hnext, take_settled_top]
  rfl

theorem run_of_marker (broken : Bool) (hrest : c'.rest = '-' :: '-' :: '-' :: rest)
    (hcolumn : c'.column = 0) (hend : atSpaceOrEnd rest = true) :
    run broken (fuel + 1) (top back c keyAllowed) =
      run broken fuel (top (.documentStart :: back) (c'.skip 3) false) := by
  have hnext : next fuel (top back c keyAllowed) =
      .ok (top (.documentStart :: back) (c'.skip 3) false) := by
    rw [next_of_skipToToken hskip, lexeme_marker hrest hcolumn hend]
    rfl
  rw [run, hnext]
  rfl

/-- What a lexeme shows outside of everything is shown at the end of the run. -/
theorem shown_of_lexeme (broken : Bool)
    (h : Yields (fun l => l.IsCounted ∧ l.ledger.Shows back.reverse)
      ((top back c' keyAllowed').lexeme fuel)) :
    Shown back.reverse (run broken (fuel + 1) (top back c keyAllowed)) := by
  refine shown_run_succ (fun fault => ?_) ?_ fun l => shown_run broken fuel
  · rw [take_settled_top]
    exact .fault (List.prefix_refl _) rfl
  · rw [next_of_skipToToken hskip]
    refine h.bind fun l₁ h₁ => (leads_dropStale l₁).bind fun l₂ h₂ => yields_ok ⟨?_, rfl, ?_⟩
    · exact h₂.counted h₁.1
    · exact h₁.2.moves (h₂.moves h₁.1)

end

/-! ### Runs over lines that hold little -/

/-- What a run gives when the next lines with anything on them are these. -/
inductive Outcome (broken : Bool) (fuel : Nat) (back : List Token) :
    List (List Char) → List Token × Option Fault → Prop
  | eof : Outcome broken fuel back [] (ended broken back)
  /-- Behind a marker it goes on. -/
  | marker {c : Cursor} {after : List Char} {more : List (List Char)}
      (hend : atSpaceOrEnd after = true) (hcolumn : c.column ≠ 0)
      (hlines : lines c.rest = after :: more) (hfuel : c.rest.length < fuel) :
      Outcome broken fuel back (('-' :: '-' :: '-' :: after) :: more)
        (run broken fuel (top (.documentStart :: back) c false))
  | shown {line : List Char} {more : List (List Char)} {r : List Token × Option Fault}
      (hline : isMarkerLine line = false) (h : Shown back.reverse r) :
      Outcome broken fuel back (line :: more) r

/-- A marker at the cursor is one on the line. -/
theorem exists_of_marker {line : List Char} {more : List (List Char)} (hhollow : IsHollow line)
    (hlines : lines c.rest = lineContent false line :: more)
    (hstands : c.StandsOn line)
    (hmarker : (c.column == 0 && atDocumentMarker c.rest) = true) :
    c.column = 0 ∧ ∃ rest after, c.rest = '-' :: '-' :: '-' :: rest ∧ atSpaceOrEnd rest = true ∧
      line = '-' :: '-' :: '-' :: after ∧ lines rest = after :: more := by
  obtain ⟨hzero, hdashes⟩ := Bool.and_eq_true_iff.1 hmarker
  have hzero : c.column = 0 := eq_of_beq hzero
  have hwhole : lineContent false line = line := by
    rcases hstands with ⟨-, hwhole⟩ | ⟨hne, -⟩
    · exact hwhole
    · exact absurd hzero hne
  refine ⟨hzero, ?_⟩
  unfold atDocumentMarker at hdashes
  split at hdashes
  · rename_i rest hrest
    rw [hrest, hwhole] at hlines
    obtain ⟨after, hline, hafter⟩ := exists_of_lines_marker hlines
    exact ⟨rest, after, hrest, hdashes, hline, hafter⟩
  · -- a line that begins with a full stop holds too much
    rename_i rest hrest
    obtain ⟨first, others, hfirst⟩ :=
      List.exists_cons_of_ne_nil (Text.splitOn_ne_nil isBreak ('.' :: '.' :: rest))
    have hdot : lineContent false line = '.' :: first := by
      rw [hrest] at hlines
      exact (List.cons.inj (hlines.symm.trans (lines_cons rfl hfirst))).1
    rcases hhollow.content '.' (by rw [hdot]; rfl) with hhyphen | hblank
    · cases hhyphen
    · cases hblank
  · cases hdashes

/-- Without a marker at the cursor the line is no marker line. -/
theorem isMarkerLine_eq_false {line : List Char} {more : List (List Char)}
    (hlines : lines c.rest = lineContent false line :: more)
    (hstands : c.StandsOn line)
    (hmarker : (c.column == 0 && atDocumentMarker c.rest) = false) :
    isMarkerLine line = false := by
  refine Bool.eq_false_iff.2 fun hline => ?_
  obtain ⟨after, rfl, hend, -⟩ := exists_of_isMarkerLine hline
  rcases hstands with ⟨hzero, hwhole⟩ | ⟨-, hspace⟩
  · rw [hwhole] at hlines
    obtain ⟨rest, hrest, hafter⟩ := exists_of_lines_eq_marker hlines
    rw [← atSpaceOrEnd_of_lines hafter] at hend
    rw [hzero, hrest] at hmarker
    exact Bool.false_ne_true (hmarker.symm.trans hend)
  · cases hspace

/-- **The outcome of a run, from the line at which it goes on.** -/
theorem outcome_of_reaches (broken : Bool) {pending : List (List Char)}
    (hreaches : Reaches back pending (skipToToken (fuel + 1) (top back c keyAllowed)))
    (hhollow : ∀ line ∈ pending, IsHollow line) (hfuel : c.rest.length ≤ fuel) :
    Outcome broken fuel back pending (run broken (fuel + 1) (top back c keyAllowed)) := by
  have hshort := length_skipToToken_le (fuel + 1) (top back c keyAllowed)
  generalize hskip : skipToToken (fuel + 1) (top back c keyAllowed) = l at hreaches hshort
  cases hreaches with
  | eof hrest k =>
      rw [run_of_eof hskip broken hrest]
      exact .eof
  | @line c' line more hcontent hlines hstands =>
      have hline := hhollow line List.mem_cons_self
      have hbound : c'.rest.length ≤ fuel := Nat.le_trans hshort hfuel
      cases hmarker : c'.column == 0 && atDocumentMarker c'.rest with
      | true =>
          obtain ⟨hzero, rest, after, hrest, hend, rfl, hafter⟩ :=
            exists_of_marker hline hlines hstands hmarker
          have hpast : (c'.skip 3).rest = rest := by
            rw [Cursor.skip, hrest]
            rfl
          have hlength : c'.rest.length = rest.length + 3 := by
            rw [hrest]
            rfl
          -- the run goes on behind the three hyphens, so with less fuel but also with less text
          rw [run_of_marker hskip broken hrest hzero hend]
          refine .marker ?_ (Nat.succ_ne_zero _) (by rw [hpast, hafter]) (by rw [hpast]; omega)
          rw [← atSpaceOrEnd_of_lines hafter, hend]
      | false =>
          obtain ⟨x, body, hbody⟩ := List.exists_cons_of_ne_nil hcontent
          obtain ⟨rest, hrest, hbreak, -⟩ := exists_of_lines_eq_cons (hbody ▸ hlines)
          have hspace : x ≠ ' ' := by
            rintro rfl
            exact absurd (isGap_of_lineContent hbody) (by decide)
          obtain ⟨k, rfl⟩ : ∃ k, fuel = k + 1 := by
            refine Nat.exists_eq_succ_of_ne_zero ?_
            rw [hrest, List.length_cons] at hbound
            omega
          refine .shown (isMarkerLine_eq_false hlines hstands hmarker) ?_
          refine shown_of_lexeme hskip broken ?_
          have hx := hline.content x (by rw [hbody]; rfl)
          exact yields_shows_lexeme hrest hx hspace hbreak hmarker

/-- Behind a marker the run goes on as on the next lines, if nothing stands on the line. -/
theorem outcome_behind_marker (back : List Token) (broken : Bool) {after : List Char}
    {more : List (List Char)} (hcolumn : c.column ≠ 0)
    (hlines : lines c.rest = after :: more) (hnone : lineContent true after = [])
    (hhollow : ∀ line ∈ more, IsHollow line)
    (hfuel : c.rest.length ≤ fuel) :
    Outcome broken fuel back (more.dropWhile isEmptyLine)
      (run broken (fuel + 1) (top back c false)) := by
  obtain ⟨line, tail, others, hrest, hline, hends, heq⟩ := exists_first_line c.rest
  cases heq.symm.trans hlines
  refine outcome_of_reaches broken ?_ (fun l hl => ?_) hfuel
  · -- no key may begin behind a marker, but behind the end of its line one may again
    refine reaches_of_lineContent_eq_nil (fun hzero => absurd hzero hcolumn) hrest hline hends
      hnone hfuel ?_
    intro k c' _ hk hzero hsubset
    exact reaches_margin back k c' hk hzero fun l hl => hhollow l (hsubset hl)
  · exact hhollow l ((List.dropWhile_sublist _).subset hl)

/-- Something blank behind a marker is shown. -/
theorem shown_behind_marker (broken : Bool) {after : List Char} {more : List (List Char)}
    (hcolumn : c.column ≠ 0) (hlines : lines c.rest = after :: more)
    (hsome : lineContent true after ≠ [])
    (hblank : ∀ x ∈ (lineContent true after).head?, Text.isBlank x = true)
    (hfuel : c.rest.length ≤ fuel) :
    Shown back.reverse (run broken (fuel + 1) (top back c false)) := by
  obtain ⟨line, tail, others, hrest, hline, hends, heq⟩ := exists_first_line c.rest
  cases heq.symm.trans hlines
  obtain ⟨x, body, hbody⟩ := List.exists_cons_of_ne_nil hsome
  have hx : Text.isBlank x = true := hblank x (by rw [hbody]; rfl)
  have hmem : x ∈ after := (lineContent_sublist true after).subset (by rw [hbody]; simp)
  have hsep : isSpaceOrTab x = false := isGap_of_lineContent hbody
  have hgap := rest_pastGap back false (fun hzero => absurd hzero hcolumn) hrest hline hends
  rw [Bool.not_false, hbody, List.cons_append] at hgap
  obtain ⟨k, rfl⟩ : ∃ k, fuel = k + 1 := by
    refine Nat.exists_eq_succ_of_ne_zero ?_
    have hlength : c.rest.length = after.length + tail.length := by
      rw [hrest, List.length_append]
    have hpos := List.length_pos_of_mem hmem
    omega
  refine shown_of_lexeme (skipToToken_of_rest hgap (hline x hmem)) broken ?_
  rw [lexeme_blank hgap hx hsep (hline x hmem)]
  refine yields_shows_plain false hgap ?_ hsep (hline x hmem) (.inr hx)
  rw [hgap, atDocumentMarker_of_isBlank hx, Bool.and_false]

/-- Another marker is shown. -/
theorem shown_of_markers (broken : Bool) (fuel : Nat) (c : Cursor) :
    Shown [.documentStart] (run broken fuel (top [.documentStart, .documentStart] c false)) :=
  shown_run broken fuel rfl rfl (.fixed (.document rfl) (List.prefix_refl _) nofun)

end Lexer

/-- **The tokens of lines that hold little**: the end of the text, behind a marker or not, when the
lines are empty but for that marker; else first tokens of something, or a fault. -/
theorem Token.ofSource_of_isHollow (s : Source) (hhollow : ∀ line ∈ lines s.chars, IsHollow line) :
    ∃ back, (back = [] ∨ back = [.documentStart]) ∧
      ((isEmptyBody (lines s.chars) = true ∧ Token.ofSource s = Lexer.ended s.broken back) ∨
        (isEmptyBody (lines s.chars) = false ∧ Shown back.reverse (Token.ofSource s))) := by
  have hfuel : (Cursor.start s.chars).rest.length ≤ s.chars.length + 1 := Nat.le_succ _
  have hpending : ∀ line ∈ (lines s.chars).dropWhile isEmptyLine, IsHollow line := fun line hline =>
    hhollow line ((List.dropWhile_sublist _).subset hline)
  have houtcome : Lexer.Outcome s.broken (s.chars.length + 1) []
      ((lines s.chars).dropWhile isEmptyLine) (Token.ofSource s) :=
    Lexer.outcome_of_reaches s.broken
      (Lexer.reaches_margin [] _ (.start s.chars) hfuel rfl hhollow) hpending hfuel
  generalize Token.ofSource s = r at houtcome ⊢
  rw [isEmptyBody]
  generalize (lines s.chars).dropWhile isEmptyLine = pending at houtcome hpending ⊢
  cases houtcome with
  | eof => exact ⟨[], .inl rfl, .inl ⟨rfl, rfl⟩⟩
  | shown hline h =>
      refine ⟨[], .inl rfl, .inr ⟨?_, h⟩⟩
      dsimp only
      rw [hline, Bool.false_and]
  | @marker c after more hend hcolumn hlines hless =>
      have hshort := Nat.le_of_lt_succ hless
      have hmore : ∀ line ∈ more, IsHollow line := fun line hline =>
        hpending line (List.mem_cons_of_mem _ hline)
      have hblank := (hpending _ List.mem_cons_self).marker after rfl
      refine ⟨[.documentStart], .inr rfl, ?_⟩
      dsimp only
      rw [isMarkerLine, hend, Bool.true_and]
      by_cases hnone : lineContent true after = []
      · have houtcome := Lexer.outcome_behind_marker [.documentStart] s.broken hcolumn
          hlines hnone hmore hshort
        have hall : more.all isEmptyLine = true ↔ more.dropWhile isEmptyLine = [] := by
          rw [List.all_eq_true, List.dropWhile_eq_nil_iff]
        rw [hnone]
        generalize Lexer.run s.broken _ _ = r at houtcome
        generalize more.dropWhile isEmptyLine = pending at houtcome hall
        cases houtcome with
        | eof => exact .inl ⟨hall.2 rfl, rfl⟩
        | shown _ h =>
            refine .inr ⟨Bool.eq_false_iff.2 fun hempty => ?_, h⟩
            cases hall.1 hempty
        | marker =>
            refine .inr ⟨Bool.eq_false_iff.2 fun hempty => ?_, Lexer.shown_of_markers _ _ _⟩
            cases hall.1 hempty
      · rw [List.isEmpty_eq_false_iff.2 hnone]
        exact .inr ⟨rfl, Lexer.shown_behind_marker s.broken hcolumn hlines hnone hblank hshort⟩

/-- A document without content is null. -/
theorem tree_ended {back : List Token} (hback : back = [] ∨ back = [.documentStart]) :
    (Document.ofStream (.ofTokens (Lexer.ended false back).1 (Lexer.ended false back).2)).tree =
      .ok .null := by
  rcases hback with rfl | rfl
  · rfl
  · show (Document.ofStream (.ofTokens [.documentStart, .streamEnd] none)).tree = .ok .null
    rw [Stream.ofTokens_documentStart]
    have hstream : Stream.ofDocument ⟨.standard, .unexpectedToken⟩ [.streamEnd] .documentContent =
        ⟨[.omitted], none⟩ := rfl
    have hdocument : Document.ofStream ⟨[.omitted], none⟩ =
        ⟨[.scalar none [] true], [], none⟩ := rfl
    show (Document.ofStream (.ofDocument ⟨.standard, .unexpectedToken⟩ _ _)).tree = _
    rw [hstream, hdocument]
    simp [Document.tree, Document.build, scalarTree, plainTree, maxDepth]

/-- A tree of first tokens of something is neither null nor an empty mapping. -/
theorem yields_of_shown {back : List Token} (hback : back = [] ∨ back = [.documentStart])
    {r : List Token × Option Fault} (h : Shown back.reverse r) :
    Yields (fun t => ¬ t.IsVoid) (Document.ofStream (.ofTokens r.1 r.2)).tree := by
  refine h.tree ?_
  rcases hback with rfl | rfl
  · exact .inl rfl
  · exact .inr rfl

/-- **A text of lines that hold little is read as null if it is an empty document, and else as
something, or not at all.** -/
theorem Tree.ofText_of_isHollow {cs : List Char} (hhollow : ∀ line ∈ lines cs, IsHollow line) :
    (isEmptyDocument cs = true → Tree.ofText cs = .ok .null) ∧
      (isEmptyDocument cs = false → Yields (fun t => ¬ t.IsVoid) (Tree.ofText cs)) := by
  have hread : ∀ line ∈ lines (Source.ofText cs).chars, IsHollow line := by
    intro line hline
    obtain ⟨whole, hwhole, hfront⟩ := exists_line_of_front (Source.chars_front cs) line hline
    exact (hhollow whole hwhole).of_front hfront
  have htree : Tree.ofText cs = (Document.ofStream (.ofTokens (Token.ofSource (.ofText cs)).1
      (Token.ofSource (.ofText cs)).2)).tree := rfl
  obtain ⟨back, hback, hcases⟩ := Token.ofSource_of_isHollow (.ofText cs) hread
  rw [htree, isEmptyDocument]
  rw [Source.broken_ofText] at hcases
  -- a forbidden character is a fault behind whatever its lines have shown
  cases hallowed : cs.all isAllowed with
  | true =>
      rw [Source.chars_eq hallowed, hallowed, Bool.not_true] at hcases
      rw [Bool.true_and]
      rcases hcases with ⟨hempty, htokens⟩ | ⟨hsome, hshown⟩
      · rw [hempty, htokens]
        exact ⟨fun _ => tree_ended hback, nofun⟩
      · rw [hsome]
        exact ⟨nofun, fun _ => yields_of_shown hback hshown⟩
  | false =>
      rw [hallowed, Bool.not_false] at hcases
      refine ⟨nofun, fun _ => yields_of_shown hback ?_⟩
      rcases hcases with ⟨-, htokens⟩ | ⟨-, hshown⟩
      · rw [htokens]
        exact .fault (List.prefix_refl _) rfl
      · exact hshown

end EscapeRoom.Yaml
