import EscapeRoom.Proofs.Yaml.FirstToken
import EscapeRoom.Proofs.Yaml.Margin

/-!
# Lexemes outside of everything

Outside of every collection few lexemes can begin with a hyphen or something blank: a marker, an
entry of a sequence or a plain scalar.  A tab begins none.  All but the marker are first tokens of a
document that is more than an empty one.

* `plainScalar_begins` — a plain scalar begins with the characters that begin it.
* `Lexer.next_of_skipToToken`, `Lexer.length_skipToToken_le` — the next lexeme and its gap.
* `Lexer.lexeme_eof`, `Lexer.lexeme_marker` — the end of the text, and `---`.
* `Lexer.yields_shows_lexeme` — everything else shows.
-/

namespace EscapeRoom.Yaml

/-! ### Plain scalars that begin in a given way -/

/-- What was read of a plain scalar stays its front. -/
theorem readPlain_front (flow : Bool) (indent fuel : Nat) (c : Cursor) (back : List Char)
    (gap : Gap) :
    Yields (fun r => back.reverse <+: r.1) (readPlain flow indent fuel c back gap) := by
  induction fuel generalizing c back gap with
  | zero => exact yields_ok (List.prefix_refl _)
  | succ fuel ih =>
      rw [readPlain]
      split
      · exact yields_ok (List.prefix_refl _)
      · refine (yields_anything _).bind fun word _ => ?_
        dsimp only
        split
        · exact yields_ok (List.prefix_refl _)
        · have hword : back.reverse <+: (word.reverseAux (gap.fold.reverseAux back)).reverse := by
            rw [List.reverseAux_eq, List.reverseAux_eq, List.reverse_append, List.reverse_append,
              List.append_assoc]
            exact List.prefix_append _ _
          refine (yields_anything _).bind fun r _ => ?_
          split
          · exact yields_ok hword
          · split
            · exact yields_ok hword
            · exact (ih _ _ _).mono fun s hs => hword.trans hs

/-- The characters that begin a plain scalar outside brackets are its first ones. -/
theorem plainScalar_begins (fuel indent : Nat) {c : Cursor} {x : Char} {rest : List Char}
    (hrest : c.rest = x :: rest) (hmarker : (c.column == 0 && atDocumentMarker c.rest) = false)
    (hx : isSpaceOrTab x = false ∧ isBreak x = false ∧ x ≠ '#' ∧ x ≠ ':') :
    Yields (fun r => ∃ text, r.1 = x :: text) (plainScalar (fuel + 1) false indent c) := by
  obtain ⟨hspace, hbreak, hcomment, hcolon⟩ := hx
  have hat : c.at? '#' = false := by
    rw [Cursor.at?, hrest]
    exact beq_eq_false_iff_ne.2 fun heq => hcomment (Option.some.inj heq)
  have hword : plainWord false (x :: rest) = (plainWord false rest).map (x :: ·) := by
    rw [plainWord, hspace, hbreak, beq_eq_false_iff_ne.2 hcolon]
    rfl
  rw [plainScalar, readPlain, hmarker, hat, Bool.or_false, if_neg Bool.false_ne_true, hrest, hword]
  have hmap : Yields (fun word => ∃ w, word = x :: w) ((plainWord false rest).map (x :: ·)) := by
    cases plainWord false rest with
    | error fault => exact yields_error
    | ok w => exact yields_ok ⟨w, rfl⟩
  refine hmap.bind ?_
  rintro _ ⟨w, rfl⟩
  have hfront : [x] <+: ((x :: w).reverseAux (Gap.none.fold.reverseAux [])).reverse := by
    rw [List.reverseAux_eq, List.reverse_append, List.reverse_reverse]
    exact ⟨w, rfl⟩
  have hbegins : ∀ text : List Char, [x] <+: text → ∃ more, text = x :: more := by
    rintro _ ⟨more, rfl⟩
    exact ⟨more, rfl⟩
  dsimp only
  rw [if_neg (by exact Bool.false_ne_true)]
  refine (yields_anything _).bind fun r _ => ?_
  split
  · exact yields_ok (hbegins _ hfront)
  · split
    · exact yields_ok (hbegins _ hfront)
    · exact (readPlain_front _ _ _ _ _ _).mono fun s hs => hbegins _ (hfront.trans hs)

/-! ### Lexemes outside of everything -/

namespace Lexer

variable {back : List Token} {c : Cursor} {fuel : Nat} {keyAllowed : Bool} {x : Char}
  {rest : List Char}

theorem length_pastGap_le (l : Lexer) : l.pastGap.rest.length ≤ l.cursor.rest.length := by
  have hskip : ∀ (d : Cursor) (n : Nat), (d.skip n).rest.length ≤ d.rest.length := by
    intro d n
    rw [Cursor.skip, List.length_drop]
    exact Nat.sub_le _ _
  unfold pastGap
  dsimp only
  split
  · split
    · exact (hskip _ _).trans ((hskip _ _).trans (hskip _ _))
    · exact (hskip _ _).trans (hskip _ _)
  · split
    · exact (hskip _ _).trans (hskip _ _)
    · exact hskip _ _

theorem length_skipToToken_le (fuel : Nat) (l : Lexer) :
    (skipToToken fuel l).cursor.rest.length ≤ l.cursor.rest.length := by
  induction fuel generalizing l with
  | zero => exact Nat.le_refl _
  | succ fuel ih =>
      rw [skipToToken_succ]
      split
      · rename_i hbreak
        obtain ⟨b, rest, hrest⟩ : ∃ b rest, l.pastGap.rest = b :: rest := by
          cases hrest : l.pastGap.rest with
          | nil => simp [Cursor.atBreak, hrest] at hbreak
          | cons b rest => exact ⟨b, rest, rfl⟩
        rw [Cursor.atBreak, hrest] at hbreak
        exact ((ih _).trans (skipLine_eq hbreak hrest).2.1.le).trans (length_pastGap_le l)
      · exact length_pastGap_le l

/-- The next lexeme, from where the gap in front of it ends. -/
theorem next_of_skipToToken {l : Lexer} (h : skipToToken (fuel + 1) l = top back c keyAllowed) :
    next fuel l = (do
      let l ← (top back c keyAllowed).lexeme fuel
      let l ← l.dropStale
      return { l with settled := l.final }) := by
  rw [next, h]
  rfl

theorem lexeme_eof (hrest : c.rest = []) :
    (top back c keyAllowed).lexeme fuel = .ok { top back c false with
      back := .streamEnd :: back, count := back.length + 1 } := by
  obtain ⟨_, index, line, column⟩ := c
  subst hrest
  rfl

theorem lexeme_marker (hrest : c.rest = '-' :: '-' :: '-' :: rest) (hcolumn : c.column = 0)
    (hend : atSpaceOrEnd rest = true) :
    (top back c keyAllowed).lexeme fuel = .ok { top back (c.skip 3) false with
      back := .documentStart :: back, count := back.length + 1 } := by
  obtain ⟨_, index, line, column⟩ := c
  subst hrest hcolumn
  have hmarker : atDocumentMarker ('-' :: '-' :: '-' :: rest) = true := hend
  simp only [lexeme, top, hmarker]
  rfl

theorem lexeme_tab (hrest : c.rest = '\t' :: rest) :
    (top back c keyAllowed).lexeme fuel = .error .strayCharacter := by
  obtain ⟨_, index, line, column⟩ := c
  subst hrest
  have hmarker : atDocumentMarker ('\t' :: rest) = false := rfl
  simp [lexeme, top, hmarker, inFlow, beginsPlain, isSpaceOrTab, isIndicator]

theorem lexeme_entry (hrest : c.rest = '-' :: rest)
    (hmarker : (c.column == 0 && atDocumentMarker c.rest) = false)
    (hend : atSpaceOrEnd rest = true) :
    (top back c keyAllowed).lexeme fuel = (top back c keyAllowed).blockEntry := by
  obtain ⟨_, index, line, column⟩ := c
  subst hrest
  simp [lexeme, top, hmarker, hend]

theorem lexeme_hyphen (hrest : c.rest = '-' :: rest)
    (hmarker : (c.column == 0 && atDocumentMarker c.rest) = false)
    (hend : atSpaceOrEnd rest = false) :
    (top back c keyAllowed).lexeme fuel = (top back c keyAllowed).plain fuel := by
  obtain ⟨_, index, line, column⟩ := c
  subst hrest
  have hbegins : beginsPlain false '-' rest = true := by
    cases rest with
    | nil => cases hend
    | cons d rest =>
        have hd : isSpaceOrTab d = false := (Bool.or_eq_false_iff.1 hend).1
        simp [beginsPlain, hd]
  simp [lexeme, top, hmarker, hend, inFlow, hbegins]

/-- A blank is no indicator. -/
theorem isIndicator_of_isBlank (hx : Text.isBlank x = true) : isIndicator x = false := by
  refine Bool.eq_false_iff.2 fun hindicator => ?_
  rcases Bool.or_eq_true_iff.1 hindicator with hmem | hnumber
  · have hnone : (['-', '?', ':', ',', '[', ']', '{', '}', '#', '&', '*', '!', '|', '>', '\'', '"',
        '%', '@'].any Text.isBlank) = false := by decide
    exact List.any_eq_false.1 hnone x (List.contains_iff_mem.1 hmem) hx
  · rw [Text.isBlank, eq_of_beq hnumber] at hx
    cases hx

/-- A blank begins no marker. -/
theorem atDocumentMarker_of_isBlank (hx : Text.isBlank x = true) (rest : List Char) :
    atDocumentMarker (x :: rest) = false := by
  rw [atDocumentMarker]
  · rintro _ ⟨⟩
    cases hx
  · rintro _ ⟨⟩
    cases hx

theorem lexeme_blank (hrest : c.rest = x :: rest) (hx : Text.isBlank x = true)
    (hspace : isSpaceOrTab x = false) (hbreak : isBreak x = false) :
    (top back c keyAllowed).lexeme fuel = (top back c keyAllowed).plain fuel := by
  obtain ⟨_, index, line, column⟩ := c
  subst hrest
  have hindicator := isIndicator_of_isBlank hx
  have hne : ∀ y, Text.isBlank y = false → (x == y) = false := by
    rintro y hy
    refine beq_eq_false_iff_ne.2 fun heq => ?_
    rw [heq, hy] at hx
    cases hx
  have hmarker := atDocumentMarker_of_isBlank hx rest
  have hbegins : beginsPlain false x rest = true := by
    rw [beginsPlain, hspace, hbreak, hindicator]
    rfl
  -- none of the indicators is blank
  simp only [lexeme, top, inFlow, List.length_singleton, Nat.lt_irrefl, decide_false, hmarker,
    hbegins, hne '%' rfl, hne '[' rfl, hne '{' rfl, hne ']' rfl, hne '}' rfl, hne ',' rfl,
    hne '-' rfl, hne '?' rfl, hne ':' rfl, hne '*' rfl, hne '&' rfl, hne '!' rfl, hne '|' rfl,
    hne '>' rfl, hne '\'' rfl, hne '"' rfl, Bool.and_false, Bool.false_and, Bool.false_eq_true,
    if_false, if_true]

/-- Where a key may begin, its place is remembered. -/
theorem saveKey_top (back : List Token) (c : Cursor) (keyAllowed : Bool) :
    ∃ key, (KeyPlace.numbers [key] = [] ∨ KeyPlace.numbers [key] = [back.length]) ∧
      (top back c keyAllowed).saveKey = .ok { top back c keyAllowed with keys := [key] } := by
  cases keyAllowed with
  | false => exact ⟨none, .inl rfl, rfl⟩
  | true => exact ⟨some _, .inr rfl, rfl⟩

/-- A plain scalar that begins with a hyphen or a blank is shown. -/
theorem yields_shows_plain (keyAllowed : Bool) (hrest : c.rest = x :: rest)
    (hmarker : (c.column == 0 && atDocumentMarker c.rest) = false)
    (hspace : isSpaceOrTab x = false) (hbreak : isBreak x = false)
    (hstray : x = '-' ∨ Text.isBlank x = true) :
    Yields (fun l => l.IsCounted ∧ l.ledger.Shows back.reverse)
      ((top back c keyAllowed).plain (fuel + 1)) := by
  have hne : ∀ y, y ≠ '-' → Text.isBlank y = false → x ≠ y := by
    rintro y hhyphen hblank rfl
    rcases hstray with hstray | hstray
    · exact hhyphen hstray
    · exact Bool.false_ne_true (hblank.symm.trans hstray)
  have hbegins := plainScalar_begins fuel 0 hrest hmarker
    ⟨hspace, hbreak, hne '#' (by decide) rfl, hne ':' (by decide) rfl⟩
  obtain ⟨key, hkey, hsave⟩ := saveKey_top back c keyAllowed
  rw [plain, hsave]
  refine Yields.bind (e := plainScalar (fuel + 1) false 0 c) hbegins ?_
  rintro ⟨_, cursor, broken⟩ ⟨text, rfl⟩
  have htext : IsStray (x :: text) := ⟨x, text, rfl, hstray⟩
  refine yields_ok ⟨rfl, .scalar htext ⟨?_, ?_, ?_⟩⟩
  · show _ <+: (Token.scalar (x :: text) true :: back).reverse
    rw [List.reverse_cons]
  · intro n hn
    have hnumber : n ∈ KeyPlace.numbers [key] := hn
    rw [List.length_reverse]
    rcases hkey with hkey | hkey
    · rw [hkey] at hnumber
      cases hnumber
    · rw [hkey, List.mem_singleton] at hnumber
      exact hnumber.ge
  · show ((Token.scalar (x :: text) true :: back).reverse.length :: KeyPlace.numbers [key]).Pairwise
      (· > ·)
    rw [List.length_reverse, List.length_cons]
    rcases hkey with hkey | hkey
    · rw [hkey]
      exact List.pairwise_singleton _ _
    · rw [hkey]
      exact List.pairwise_pair.2 (Nat.lt_succ_self _)

/-- A sequence is shown. -/
theorem yields_shows_blockEntry :
    Yields (fun l => l.IsCounted ∧ l.ledger.Shows back.reverse) ((top back c true).blockEntry) := by
  have hroll : (top back c true).roll c.column none .blockSequenceStart =
      { top back c true with
        back := .blockSequenceStart :: back, count := back.length + 1, indent := c.column,
        outer := [-1] } := by
    have hdeeper : ¬ ((c.column : Int) ≤ -1) := by omega
    rw [roll, if_neg]
    · rfl
    · show ¬ (false || decide ((c.column : Int) ≤ -1)) = true
      rw [decide_eq_false hdeeper]
      exact Bool.false_ne_true
  have hentry : (top back c true).blockEntry = .ok { top back (c.skip 1) true with
      back := .blockEntry :: .blockSequenceStart :: back, count := back.length + 2,
      indent := c.column, outer := [-1] } := by
    rw [blockEntry]
    show (do let l ← ((top back c true).roll c.column none .blockSequenceStart).dropKey; _) = _
    rw [hroll]
    rfl
  rw [hentry]
  refine yields_ok ⟨rfl, .fixed .sequence ?_ nofun⟩
  show _ <+: (Token.blockEntry :: .blockSequenceStart :: back).reverse
  rw [List.reverse_cons, List.reverse_cons]
  exact List.prefix_append _ _

/-- A hyphen or something blank that stands at the begin of what is on a line is shown, unless it
begins a marker. -/
theorem yields_shows_lexeme (hrest : c.rest = x :: rest) (hx : x = '-' ∨ Text.isBlank x = true)
    (hspace : x ≠ ' ') (hbreak : isBreak x = false)
    (hmarker : (c.column == 0 && atDocumentMarker c.rest) = false) :
    Yields (fun l => l.IsCounted ∧ l.ledger.Shows back.reverse)
      ((top back c true).lexeme (fuel + 1)) := by
  by_cases htab : x = '\t'
  · rw [htab] at hrest
    rw [lexeme_tab hrest]
    exact yields_error
  · have hsep : isSpaceOrTab x = false := by simp [isSpaceOrTab, hspace, htab]
    rcases hx with rfl | hx
    · cases hend : atSpaceOrEnd rest with
      | true =>
          rw [lexeme_entry hrest hmarker hend]
          exact yields_shows_blockEntry
      | false =>
          rw [lexeme_hyphen hrest hmarker hend]
          exact yields_shows_plain true hrest hmarker rfl rfl (.inl rfl)
    · rw [lexeme_blank hrest hx hsep hbreak]
      exact yields_shows_plain true hrest hmarker hsep hbreak (.inr hx)

end Lexer

end EscapeRoom.Yaml
