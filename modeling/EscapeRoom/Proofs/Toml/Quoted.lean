import EscapeRoom.Toml.Quoted
import Mathlib.Tactic.SplitIfs

/-!
# Quoted texts are read back

A text is read back from each of the four ways to quote it, as long as what stands behind it does
not begin with a quote.  Between double quotes that holds of every text.  Between single quotes,
where nothing can be escaped, it holds of the texts for which the way is chosen.

* `EndsQuote` — what may stand behind a quoted text.
* `Consumes` — what a reader between double quotes does with a piece of text.
* `basicText_escaped`, `basicLinesText_escaped` — escapes are undone.
* `closing?_replicate`, `closing?_of_short` — the quotes next to closing quotes, and other runs.
* `quotedText_quoted` — the text in quotes is read back.
-/

namespace EscapeRoom.Toml

/-- A quoted text ends before this text. -/
def EndsQuote (rest : List Char) : Prop := ∀ c ∈ rest.head?, c ≠ '"' ∧ c ≠ tick

/-! ### Runs of quotes -/

theorem takeWhile_replicate {q : Char} (n : Nat) {rest : List Char} (h : ∀ c ∈ rest.head?, c ≠ q) :
    (List.replicate n q ++ rest).takeWhile (· == q) = List.replicate n q := by
  rw [List.takeWhile_append_of_pos fun c hc => by simp [List.eq_of_mem_replicate hc]]
  cases rest with
  | nil => exact List.append_nil _
  | cons c rest =>
      rw [List.takeWhile_cons_of_neg (by simpa using h c rfl), List.append_nil]

/-- Closing quotes take the quotes right before them along. -/
theorem closing?_replicate {q : Char} {n : Nat} (hn : n ≤ 2) {rest : List Char}
    (h : ∀ c ∈ rest.head?, c ≠ q) :
    closing? q (List.replicate n q ++ (q :: q :: q :: rest)) = some (List.replicate n q, rest) := by
  have hrun : List.replicate n q ++ (q :: q :: q :: rest) = List.replicate (n + 3) q ++ rest := by
    rw [← List.replicate_append_replicate, List.append_assoc]
    rfl
  have hextra : min (n + 3 - 3) 2 = n := by omega
  have hdrop : (List.replicate (n + 3) q ++ rest).drop (n + 3) = rest :=
    List.drop_left' List.length_replicate
  rw [hrun, closing?, takeWhile_replicate (n + 3) h, List.length_replicate]
  dsimp only
  rw [if_neg (by omega), hextra, hdrop]

/-- One or two quotes do not close. -/
theorem closing?_of_short {q : Char} {n : Nat} (hn : n ≤ 2) {d : Char} (hd : d ≠ q)
    (more : List Char) : closing? q (List.replicate n q ++ d :: more) = none := by
  have hhead : ∀ c ∈ (d :: more).head?, c ≠ q := by
    intro c hc
    cases hc
    exact hd
  rw [closing?, takeWhile_replicate n hhead, List.length_replicate]
  exact if_pos (by omega)

theorem closing?_of_ne {q c : Char} (h : c ≠ q) (rest : List Char) :
    closing? q (c :: rest) = none :=
  closing?_of_short (Nat.zero_le 2) h rest

/-! ### Escapes -/

theorem basicText_of_step {e e' : Escape} {c : Char} {out rest : List Char}
    (hopen : (c == '"' && e.isClosable) = false)
    (hstep : e.step false c rest.head? = some (out, e')) :
    basicText e (c :: rest) = (basicText e' rest).map fun p => (out ++ p.1, p.2) := by
  have hnot : ¬ (decide (c = '"') && e.isClosable) = true := by
    simpa using hopen
  rw [basicText, if_neg hnot, hstep]
  show ((basicText e' rest).bind fun p => some (out ++ p.1, p.2)) = _
  cases basicText e' rest <;> rfl

theorem basicLinesText_of_step {e e' : Escape} {c : Char} {out rest : List Char}
    (hopen : (if e.isClosable then closing? '"' (c :: rest) else none) = none)
    (hstep : e.step true c rest.head? = some (out, e')) :
    basicLinesText e (c :: rest) = (basicLinesText e' rest).map fun p => (out ++ p.1, p.2) := by
  rw [basicLinesText, hopen]
  dsimp only
  rw [hstep]
  show ((basicLinesText e' rest).bind fun p => some (out ++ p.1, p.2)) = _
  cases basicLinesText e' rest <;> rfl

theorem basicLinesText_of_closing {cs : List Char} {ending : List Char × List Char}
    (h : closing? '"' cs = some ending) : basicLinesText .idle cs = some ending := by
  cases cs with
  | nil => cases h
  | cons c rest =>
      have hclosed : (if Escape.idle.isClosable then closing? '"' (c :: rest) else none) =
          some ending := h
      rw [basicLinesText, hclosed]

/-- The reader between double quotes, three of them if `lines` holds. -/
def betweenDoubleQuotes (lines : Bool) : Escape → Reader (List Char) :=
  if lines then basicLinesText else basicText

/-- A reader passes over a piece of text, which completes `out`, whatever stands behind it. -/
def Consumes (lines : Bool) (e : Escape) (cs out : List Char) (e' : Escape) : Prop :=
  ∀ rest, betweenDoubleQuotes lines e (cs ++ rest) =
    (betweenDoubleQuotes lines e' rest).map fun p => (out ++ p.1, p.2)

namespace Consumes

variable {lines : Bool} {e e' e'' : Escape}

theorem append {cs ds out more : List Char} (h : Consumes lines e cs out e')
    (h' : Consumes lines e' ds more e'') : Consumes lines e (cs ++ ds) (out ++ more) e'' := by
  intro rest
  rw [List.append_assoc, h, h', Option.map_map]
  simp only [Function.comp_def, List.append_assoc]

/-- One character; a quote may close the text only where the reader is in no escape. -/
theorem step {c : Char} {out : List Char} (hquote : c ≠ '"' ∨ e.isClosable = false)
    (h : ∀ next, e.step lines c next = some (out, e')) : Consumes lines e [c] out e' := by
  intro rest
  cases lines with
  | false =>
      refine basicText_of_step ?_ (h rest.head?)
      rcases hquote with hquote | hopen
      · simp [hquote]
      · simp [hopen]
  | true =>
      refine basicLinesText_of_step ?_ (h rest.head?)
      rcases hquote with hquote | hopen
      · rw [closing?_of_ne hquote, ite_self]
      · rw [hopen]
        rfl

theorem letter {c d : Char} (h : unescape? d = some c) :
    Consumes lines .idle ['\\', d] [c] .idle := by
  have hbegun : Consumes lines .idle ['\\'] [] .begun := step (.inl (by decide)) fun next => rfl
  refine hbegun.append (step (.inr rfl) fun next => ?_)
  simp only [Escape.step, h]

/-- A character with a small code stands as the two last digits of four. -/
theorem code {c : Char} (h : c.toNat < 0x80) :
    Consumes lines .idle
      ['\\', 'u', '0', '0', Digit.upper (c.toNat / 16), Digit.upper (c.toNat % 16)] [c] .idle := by
  have hbegun : Consumes lines .idle ['\\'] [] .begun := step (.inl (by decide)) fun next => rfl
  have hletter : Consumes lines .begun ['u'] [] (.digits 4 0) := step (.inr rfl) fun next => rfl
  have hfirst : Consumes lines (.digits 4 0) ['0'] [] (.digits 3 0) :=
    step (.inr rfl) fun next => rfl
  have hsecond : Consumes lines (.digits 3 0) ['0'] [] (.digits 2 0) :=
    step (.inr rfl) fun next => rfl
  have hhigh : Consumes lines (.digits 2 0) [Digit.upper (c.toNat / 16)] []
      (.digits 1 (c.toNat / 16)) := by
    refine step (.inr rfl) fun next => ?_
    have hdigit : c.toNat / 16 < 16 := by omega
    simp [Escape.step, Digit.append?, Digit.value?_upper _ hdigit, hdigit]
  have hlow : Consumes lines (.digits 1 (c.toNat / 16)) [Digit.upper (c.toNat % 16)] [c]
      .idle := by
    refine step (.inr rfl) fun next => ?_
    have hdigit : c.toNat % 16 < 16 := Nat.mod_lt _ (by decide)
    have hnumber : c.toNat / 16 * 16 + c.toNat % 16 = c.toNat := Nat.div_add_mod' _ _
    have hcode : c.toNat < 0xD800 := by omega
    simp [Escape.step, Digit.append?, Digit.value?_upper _ hdigit, hdigit, hnumber, Digit.ofCode?,
      hcode, Char.ofNat_toNat]
  exact hbegun.append (hletter.append (hfirst.append (hsecond.append (hhigh.append hlow))))

/-- A character that needs no escape stands for itself. -/
theorem plain {c : Char} (hquote : c ≠ '"') (hslash : c ≠ '\\')
    (h : isLineText c = true ∨ lines = true ∧ c = '\n') : Consumes lines .idle [c] [c] .idle := by
  refine step (.inl hquote) fun next => ?_
  have hstands : (isLineText c || (lines && isBreak c next)) = true := by
    rcases h with hline | ⟨rfl, rfl⟩
    · rw [hline, Bool.true_or]
    · rfl
  rw [Escape.step, if_neg hslash, if_pos hstands]

end Consumes

theorem toNat_lt_of_isControl {c : Char} (h : isControl c = true) : c.toNat < 0x80 := by
  simp only [isControl, Bool.or_eq_true, Bool.and_eq_true, decide_eq_true_eq, beq_iff_eq] at h
  rcases h with ⟨⟨h, -⟩, -⟩ | rfl
  · omega
  · decide

/-- What stands for a character completes it. -/
theorem consumes_escaped {lines : Bool} {c : Char} (hquote : c ≠ '"')
    (hbreak : c = '\n' → lines = true) : Consumes lines .idle (escaped c) [c] .idle := by
  have hletter : ∀ d e : Char, unescape? e = some d → c = d →
      Consumes lines .idle ['\\', e] [c] .idle := by
    rintro d e h rfl
    exact .letter h
  unfold escaped
  split_ifs with h8 ht hf hr hslash hcontrol
  · exact hletter '\x08' 'b' rfl h8
  · exact hletter '\t' 't' rfl ht
  · exact hletter '\x0c' 'f' rfl hf
  · exact hletter '\r' 'r' rfl hr
  · exact hletter '\\' '\\' rfl hslash
  · exact .code (toNat_lt_of_isControl hcontrol)
  · refine .plain hquote hslash ?_
    by_cases hn : c = '\n'
    · exact .inr ⟨hbreak hn, hn⟩
    · simp [isLineText, hn, hcontrol]

theorem consumes_escapedInLine (c : Char) : Consumes false .idle (escapedInLine c) [c] .idle := by
  unfold escapedInLine
  split_ifs with hquote hn
  · subst hquote
    exact .letter rfl
  · subst hn
    exact .letter rfl
  · exact consumes_escaped hquote fun h => absurd h hn

/-- What stands for a character begins with a backslash or is the character. -/
theorem exists_escaped_eq (c : Char) :
    ∃ d more, escaped c = d :: more ∧ (d = '\\' ∨ d = c ∧ isControl c = false) := by
  unfold escaped
  split_ifs with _ _ _ _ _ hcontrol
  all_goals first
    | exact ⟨_, _, rfl, .inl rfl⟩
    | exact ⟨_, _, rfl, .inr ⟨rfl, Bool.eq_false_iff.2 hcontrol⟩⟩

theorem exists_escapedInLine_eq (c : Char) :
    ∃ d more, escapedInLine c = d :: more ∧ d ≠ '"' := by
  unfold escapedInLine
  split_ifs with hquote
  · exact ⟨_, _, rfl, by decide⟩
  · exact ⟨_, _, rfl, by decide⟩
  · obtain ⟨d, more, hescaped, hd⟩ := exists_escaped_eq c
    refine ⟨d, more, hescaped, ?_⟩
    rcases hd with rfl | ⟨rfl, -⟩
    · decide
    · exact hquote

/-- A text between double quotes is read back. -/
theorem basicText_escaped (text rest : List Char) :
    basicText .idle (text.flatMap escapedInLine ++ '"' :: rest) = some (text, rest) := by
  induction text with
  | nil => rfl
  | cons c text ih =>
      have hread := consumes_escapedInLine c (text.flatMap escapedInLine ++ '"' :: rest)
      rw [List.flatMap_cons, List.append_assoc]
      refine hread.trans ?_
      show (basicText .idle _).map _ = _
      rw [ih]
      rfl

/-! ### Three double quotes -/

/-- The quotes with which a written text begins, when `run` quotes stand right before it: they are
all of it, or something else comes before the third quote in a row. -/
theorem quotes_escapedLines {run : Nat} (hrun : run ≤ 2) (text : List Char) :
    (∃ n, run + n ≤ 2 ∧ text = List.replicate n '"' ∧
        escapedLines run text = List.replicate n '"') ∨
      ∃ n d more, run + n ≤ 2 ∧ d ≠ '"' ∧
        escapedLines run text = List.replicate n '"' ++ d :: more := by
  induction text generalizing run with
  | nil => exact .inl ⟨0, hrun, rfl, rfl⟩
  | cons c text ih =>
      by_cases hquote : c = '"'
      · subst hquote
        by_cases hfull : run = 2
        · refine .inr ⟨0, '\\', '"' :: escapedLines 0 text, hrun, by decide, ?_⟩
          rw [escapedLines, if_pos rfl, if_pos hfull]
          rfl
        · have hnext : escapedLines run ('"' :: text) = '"' :: escapedLines (run + 1) text := by
            rw [escapedLines, if_pos rfl, if_neg hfull]
          rw [hnext]
          have hnextRun : run + 1 ≤ 2 := by omega
          rcases ih hnextRun with ⟨n, hn, htext, hwritten⟩ | ⟨n, d, more, hn, hd, hwritten⟩
          · refine .inl ⟨n + 1, by omega, ?_, ?_⟩
            · rw [htext, List.replicate_succ]
            · rw [hwritten, List.replicate_succ]
          · refine .inr ⟨n + 1, d, more, by omega, hd, ?_⟩
            rw [hwritten, List.replicate_succ]
            rfl
      · obtain ⟨d, more, hescaped, hd⟩ := exists_escaped_eq c
        have hne : d ≠ '"' := by
          rcases hd with rfl | ⟨rfl, -⟩
          · decide
          · exact hquote
        refine .inr ⟨0, d, more ++ escapedLines 0 text, hrun, hne, ?_⟩
        rw [escapedLines, if_neg hquote, hescaped]
        rfl

/-- A text between three double quotes is read back. -/
theorem basicLinesText_escaped {run : Nat} (hrun : run ≤ 2) (text : List Char) {rest : List Char}
    (hrest : ∀ c ∈ rest.head?, c ≠ '"') :
    basicLinesText .idle (escapedLines run text ++ '"' :: '"' :: '"' :: rest) =
      some (text, rest) := by
  induction text generalizing run with
  | nil => exact basicLinesText_of_closing (closing?_replicate (Nat.zero_le 2) hrest)
  | cons c text ih =>
      -- a piece that is consumed, and the text after it
      have hpiece : ∀ {piece : List Char} (next : Nat), next ≤ 2 →
          Consumes true .idle piece [c] .idle →
          basicLinesText .idle ((piece ++ escapedLines next text) ++ '"' :: '"' :: '"' :: rest) =
            some (c :: text, rest) := by
        intro piece next hnext hconsumes
        rw [List.append_assoc]
        refine (hconsumes _).trans ?_
        show (basicLinesText .idle _).map _ = _
        rw [ih hnext]
        rfl
      rw [escapedLines]
      by_cases hquote : c = '"'
      · subst hquote
        rw [if_pos rfl]
        by_cases hfull : run = 2
        · rw [if_pos hfull]
          have hescape : Consumes true .idle ['\\', '"'] ['"'] .idle := .letter rfl
          exact hpiece 0 (Nat.zero_le 2) hescape
        · rw [if_neg hfull]
          have hnextRun : run + 1 ≤ 2 := by omega
          rcases quotes_escapedLines hnextRun text with
            ⟨n, hn, htext, hwritten⟩ | ⟨n, d, more, hn, hd, hwritten⟩
          · -- the text ends with quotes, which the closing quotes take along
            rw [hwritten, htext, ← List.replicate_succ]
            exact basicLinesText_of_closing (closing?_replicate (by omega) hrest)
          · -- the quote belongs to a short run
            have hopen : closing? '"' ('"' :: (escapedLines (run + 1) text ++
                '"' :: '"' :: '"' :: rest)) = none := by
              rw [hwritten, ← List.cons_append, ← List.cons_append, ← List.replicate_succ,
                List.append_assoc]
              exact closing?_of_short (by omega) hd _
            have hstep : Escape.idle.step true '"'
                (escapedLines (run + 1) text ++ '"' :: '"' :: '"' :: rest).head? =
                  some (['"'], .idle) := rfl
            rw [List.cons_append, basicLinesText_of_step (e := .idle) hopen hstep, ih hnextRun]
            rfl
      · rw [if_neg hquote]
        exact hpiece 0 (Nat.zero_le 2) (consumes_escaped hquote fun _ => rfl)

/-! ### Single quotes -/

/-- A text between single quotes is read back if it stands in one line and has no such quote. -/
theorem literalText_append {text : List Char} (h : ∀ c ∈ text, c ≠ tick ∧ isLineText c = true)
    (rest : List Char) : literalText (text ++ tick :: rest) = some (text, rest) := by
  induction text with
  | nil => exact if_pos rfl
  | cons c text ih =>
      obtain ⟨⟨htick, hline⟩, htext⟩ := List.forall_mem_cons.1 h
      rw [List.cons_append, literalText, if_neg htick, if_pos hline, ih htext]
      rfl

/-- The quotes with which a text without three in a row begins. -/
theorem quotes_of_hasTriple {q : Char} {text : List Char} (h : hasTriple q text = false) :
    (∃ n, n ≤ 2 ∧ text = List.replicate n q) ∨
      ∃ n d more, n ≤ 2 ∧ d ≠ q ∧ text = List.replicate n q ++ d :: more := by
  match text with
  | [] => exact .inl ⟨0, by decide, rfl⟩
  | a :: text =>
      by_cases ha : a = q
      · subst ha
        match text with
        | [] => exact .inl ⟨1, by decide, rfl⟩
        | b :: text =>
            by_cases hb : b = a
            · subst hb
              match text with
              | [] => exact .inl ⟨2, by decide, rfl⟩
              | c :: text =>
                  have hc : c ≠ b := by
                    rintro rfl
                    simp [hasTriple] at h
                  exact .inr ⟨2, c, text, by decide, hc, rfl⟩
            · exact .inr ⟨1, b, text, by decide, hb, rfl⟩
      · exact .inr ⟨0, a, text, by decide, ha, rfl⟩

theorem hasTriple_tail {q c : Char} {text : List Char} (h : hasTriple q (c :: text) = false) :
    hasTriple q text = false := by
  match text with
  | [] | [_] => rfl
  | _ :: _ :: _ => exact (Bool.or_eq_false_iff.1 h).2

theorem literalLinesText_of_closing {cs : List Char} {ending : List Char × List Char}
    (h : closing? tick cs = some ending) : literalLinesText cs = some ending := by
  cases cs with
  | nil => cases h
  | cons c rest => rw [literalLinesText, h]

/-- A text between three single quotes is read back if it has no three of them in a row. -/
theorem literalLinesText_append {text : List Char} (hvisible : ∀ c ∈ text, isControl c = false)
    (htriple : hasTriple tick text = false) {rest : List Char}
    (hrest : ∀ c ∈ rest.head?, c ≠ tick) :
    literalLinesText (text ++ tick :: tick :: tick :: rest) = some (text, rest) := by
  induction text with
  | nil => exact literalLinesText_of_closing (closing?_replicate (Nat.zero_le 2) hrest)
  | cons c text ih =>
      rcases quotes_of_hasTriple htriple with ⟨n, hn, htext⟩ | ⟨n, d, more, hn, hd, htext⟩
      · rw [htext]
        exact literalLinesText_of_closing (closing?_replicate hn hrest)
      · have hopen : closing? tick (c :: text ++ tick :: tick :: tick :: rest) = none := by
          rw [htext, List.append_assoc]
          exact closing?_of_short hn hd _
        obtain ⟨hc, htail⟩ := List.forall_mem_cons.1 hvisible
        have hstands : ∀ next, (isLineText c || isBreak c next) = true := by
          intro next
          by_cases hn : c = '\n' <;> simp [isLineText, isBreak, hc, hn]
        rw [List.cons_append] at hopen ⊢
        rw [literalLinesText, hopen]
        dsimp only
        rw [if_pos (hstands _), ih htail (hasTriple_tail htriple)]
        rfl

/-! ### All four ways -/

theorem quotedText_of_line {cs : List Char} (hdouble : cs.take 3 ≠ ['"', '"', '"'])
    (hsingle : cs.take 3 ≠ [tick, tick, tick]) : quotedText cs = quotedLine cs := by
  rw [quotedText, if_neg hdouble, if_neg hsingle]

theorem quotedText_write_basic (text : List Char) {rest : List Char} (hrest : EndsQuote rest) :
    quotedText (Quoting.basic.write text ++ rest) = some (text, rest) := by
  have hcs : Quoting.basic.write text ++ rest =
      '"' :: (text.flatMap escapedInLine ++ '"' :: rest) := by
    rw [Quoting.write, List.cons_append, List.cons_append, List.append_assoc]
    rfl
  -- the first two quotes are not followed by a third
  have hdouble : ('"' :: (text.flatMap escapedInLine ++ '"' :: rest)).take 3 ≠ ['"', '"', '"'] := by
    cases text with
    | nil =>
        cases rest with
        | nil => decide
        | cons d rest =>
            have hd := (hrest d rfl).1
            simp [hd]
    | cons c text =>
        obtain ⟨d, more, hescaped, hd⟩ := exists_escapedInLine_eq c
        simp [List.flatMap_cons, hescaped, hd]
  rw [hcs, quotedText_of_line hdouble (by simp [tick]), quotedLine, if_pos rfl,
    basicText_escaped]

theorem quotedText_write_literal {text : List Char} (hne : text ≠ [])
    (h : ∀ c ∈ text, c ≠ tick ∧ isLineText c = true) (rest : List Char) :
    quotedText (Quoting.literal.write text ++ rest) = some (text, rest) := by
  have hcs : Quoting.literal.write text ++ rest = tick :: (text ++ tick :: rest) := by
    rw [Quoting.write, List.cons_append, List.cons_append, List.append_assoc]
    rfl
  have hsingle : (tick :: (text ++ tick :: rest)).take 3 ≠ [tick, tick, tick] := by
    cases text with
    | nil => exact absurd rfl hne
    | cons c text => simp [(h c List.mem_cons_self).1]
  rw [hcs, quotedText_of_line (by simp [tick]) hsingle, quotedLine, if_neg (by decide), if_pos rfl,
    literalText_append h]

/-- What begins neither with a line break nor with a carriage return is not shortened. -/
theorem skipBreak_of_head {cs : List Char} (h : ∀ c ∈ cs.head?, c ≠ '\n' ∧ c ≠ '\r') :
    skipBreak cs = cs := by
  unfold skipBreak
  split
  · exact absurd rfl (h '\n' rfl).1
  · exact absurd rfl (h '\r' rfl).2
  · rfl

/-- The line break that does not count is passed over, and no other. -/
theorem skipBreak_openingBreak {text body : List Char}
    (h : '\n' ∉ text → ∀ c ∈ body.head?, c ≠ '\n' ∧ c ≠ '\r') :
    skipBreak (openingBreak text ++ body) = body := by
  rw [openingBreak]
  by_cases hbreak : text.contains '\n' = true
  · rw [if_pos hbreak]
    rfl
  · rw [if_neg hbreak]
    exact skipBreak_of_head (h (by simpa using hbreak))

theorem quotedText_write_basicLines (text : List Char) {rest : List Char}
    (hrest : EndsQuote rest) :
    quotedText (Quoting.basicLines.write text ++ rest) = some (text, rest) := by
  have hcs : Quoting.basicLines.write text ++ rest =
      '"' :: '"' :: '"' ::
        (openingBreak text ++ (escapedLines 0 text ++ '"' :: '"' :: '"' :: rest)) := by
    simp [Quoting.write]
  have hbody : '\n' ∉ text → ∀ c ∈ (escapedLines 0 text ++ '"' :: '"' :: '"' :: rest).head?,
      c ≠ '\n' ∧ c ≠ '\r' := by
    intro hbreak d hd
    cases text with
    | nil =>
        cases hd
        decide
    | cons c text =>
        rw [escapedLines] at hd
        split at hd
        · cases hd
          decide
        · obtain ⟨first, more, hescaped, hfirst⟩ := exists_escaped_eq c
          rw [hescaped] at hd
          cases hd
          rcases hfirst with rfl | ⟨rfl, hcontrol⟩
          · decide
          · refine ⟨fun hn => hbreak (hn ▸ List.mem_cons_self), ?_⟩
            rintro rfl
            exact absurd hcontrol (by decide)
  rw [hcs, quotedText]
  simp only [List.take_succ_cons, List.take_zero, if_true, List.drop_succ_cons, List.drop_zero]
  rw [skipBreak_openingBreak hbody,
    basicLinesText_escaped (Nat.zero_le 2) text fun c hc => (hrest c hc).1]

theorem quotedText_write_literalLines {text : List Char}
    (hvisible : ∀ c ∈ text, isControl c = false) (htriple : hasTriple tick text = false)
    {rest : List Char} (hrest : EndsQuote rest) :
    quotedText (Quoting.literalLines.write text ++ rest) = some (text, rest) := by
  have hcs : Quoting.literalLines.write text ++ rest =
      tick :: tick :: tick :: (openingBreak text ++ (text ++ tick :: tick :: tick :: rest)) := by
    simp [Quoting.write]
  have hbody : '\n' ∉ text → ∀ c ∈ (text ++ tick :: tick :: tick :: rest).head?,
      c ≠ '\n' ∧ c ≠ '\r' := by
    intro hbreak c hc
    cases text with
    | nil =>
        cases hc
        decide
    | cons d text =>
        cases hc
        refine ⟨fun hn => hbreak (hn ▸ List.mem_cons_self), ?_⟩
        rintro rfl
        exact absurd (hvisible '\r' List.mem_cons_self) (by decide)
  rw [hcs, quotedText, if_neg (by simp [tick])]
  simp only [List.take_succ_cons, List.take_zero, if_true, List.drop_succ_cons, List.drop_zero]
  rw [skipBreak_openingBreak hbody,
    literalLinesText_append hvisible htriple fun c hc => (hrest c hc).2]

/-- **A text in quotes is read back, and nothing of what stands behind it is taken.** -/
theorem quotedText_quoted (s : String) {rest : List Char} (hrest : EndsQuote rest) :
    quotedText (quoted s ++ rest) = some (s.toList, rest) := by
  rw [quoted]
  generalize s.toList = text
  have hvisible : (!text.any isControl) = true → ∀ c ∈ text, isControl c = false := by
    intro h c hc
    rw [Bool.not_eq_true', List.any_eq_false] at h
    exact Bool.eq_false_iff.2 (h c hc)
  unfold Quoting.for
  dsimp only
  split_ifs with hplain hliteral hlines hliteralLines hline
  · exact quotedText_write_basic text hrest
  · simp only [Bool.and_eq_true] at hliteral
    obtain ⟨⟨hcontrol, hbreak⟩, htick⟩ := hliteral
    refine quotedText_write_literal ?_ (fun c hc => ⟨?_, ?_⟩) rest
    · -- the empty text stands between double quotes
      rintro rfl
      exact hplain rfl
    · rintro rfl
      simp [hc] at htick
    · have hn : c ≠ '\n' := by
        rintro rfl
        simp [hc] at hbreak
      simp [isLineText, hn, hvisible hcontrol c hc]
  · exact quotedText_write_basicLines text hrest
  · obtain ⟨hcontrol, htriple⟩ := Bool.and_eq_true_iff.1 hliteralLines
    rw [Bool.not_eq_true'] at htriple
    exact quotedText_write_literalLines (hvisible hcontrol) htriple hrest
  · exact quotedText_write_basic text hrest
  · exact quotedText_write_basicLines text hrest

end EscapeRoom.Toml
