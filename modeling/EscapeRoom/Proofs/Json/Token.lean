import EscapeRoom.Proofs.Json.Layout

/-!
# Reading the tokens of a JSON text

What a decoder finds where a token stands: spaces are passed over, a string gives its characters
back, and so does a number from 0 to 255 as long as nothing follows that could belong to it.

* `Json.separator_closing`, `Json.separator_item` — between items.
* `Json.stringBody_quoted`, `Json.memberKey_quoted` — strings.
* `Json.octet_digits`, `Json.octetKey_quoted` — numbers from 0 to 255.
-/

namespace EscapeRoom.Json

/-! ### Spaces -/

theorem skipSpaces_append {ws : List Char} (h : Blank ws) (cs : List Char) :
    skipSpaces (ws ++ cs) = skipSpaces cs :=
  List.dropWhile_append_of_pos h

theorem skipSpaces_cons {c : Char} (h : isSpace c = false) (cs : List Char) :
    skipSpaces (c :: cs) = c :: cs :=
  List.dropWhile_cons_of_neg (by simp [h])

/-- A token that starts a text is not passed over. -/
theorem skipSpaces_append_cons {ws : List Char} (hws : Blank ws) {c : Char}
    (hc : isSpace c = false) (cs : List Char) : skipSpaces (ws ++ c :: cs) = c :: cs := by
  rw [skipSpaces_append hws, skipSpaces_cons hc]

theorem colon_eq {ws : List Char} (h : Blank ws) (cs : List Char) :
    colon (ws ++ ':' :: cs) = .ok cs := by
  rw [colon, skipSpaces_append_cons h rfl]
  rfl

/-! ### Between items -/

/-- No more items. -/
theorem separator_closing {closing : Char} (hclosing : isSpace closing = false) (first : Bool)
    {ws : List Char} (hws : Blank ws) (cs : List Char) :
    separator closing first (ws ++ closing :: cs) = .ok (false, cs) := by
  rw [separator, skipSpaces_append_cons hws hclosing]
  exact if_pos rfl

/-- Another item. -/
theorem separator_item {closing : Char} (hcomma : closing ≠ ',') {first : Bool} {lead : List Char}
    (hlead : Lead first lead) {c : Char} (hspace : isSpace c = false) (hc : c ≠ closing)
    (cs : List Char) : separator closing first (lead ++ c :: cs) = .ok (true, c :: cs) := by
  cases hlead with
  | first hws =>
      rw [separator, skipSpaces_append_cons hws hspace]
      simp only [if_neg hc, if_true]
  | next hbefore hafter =>
      rw [separator, List.append_assoc, List.cons_append, skipSpaces_append_cons hbefore rfl]
      simp only [if_neg hcomma.symm, Bool.false_eq_true, if_false, if_true,
        skipSpaces_append_cons hafter hspace, if_neg hc]

/-! ### Strings -/

/-- The digits of a control character. -/
theorem hex4_control (n : Nat) (h : n < 0x20) :
    hex4? '0' '0' (Digit.lower (n / 16)) (Digit.lower (n % 16)) = some n := by
  revert n
  decide

/-- The ways in which a character stands in a string. -/
inductive Escapes (c : Char) : List Char → Prop
  | letter {e : Char} (h : unescape? e = some c) (hu : e ≠ 'u') : Escapes c ['\\', e]
  | control {a b : Char} (h : hex4? '0' '0' a b = some c.toNat) (hcontrol : c.toNat < 0x20) :
      Escapes c ['\\', 'u', '0', '0', a, b]
  | plain (hquote : c ≠ '"') (hslash : c ≠ '\\') (hcontrol : ¬ c.toNat < 0x20) : Escapes c [c]

theorem escapes_escaped (c : Char) : Escapes c (escaped c) := by
  have hletter : ∀ d e : Char, unescape? e = some d → e ≠ 'u' → c = d → Escapes c ['\\', e] := by
    rintro d e hunescape hu rfl
    exact .letter hunescape hu
  unfold escaped
  split_ifs with hquote hslash h8 ht hn hc hr hcontrol
  · exact hletter '"' '"' rfl (by decide) hquote
  · exact hletter '\\' '\\' rfl (by decide) hslash
  · exact hletter '\x08' 'b' rfl (by decide) h8
  · exact hletter '\t' 't' rfl (by decide) ht
  · exact hletter '\n' 'n' rfl (by decide) hn
  · exact hletter '\x0c' 'f' rfl (by decide) hc
  · exact hletter '\r' 'r' rfl (by decide) hr
  · exact .control (hex4_control c.toNat hcontrol) hcontrol
  · exact .plain hquote hslash hcontrol

theorem stringBody_unicode {a b c d : Char} {n : Nat} (h : hex4? a b c d = some n)
    (hhigh : isHighSurrogate n = false) (hlow : isLowSurrogate n = false) (cs : List Char) :
    stringBody ('\\' :: 'u' :: a :: b :: c :: d :: cs) = (do
      let (text, rest) ← stringBody cs
      return (Char.ofNat n :: text, rest)) := by
  rw [stringBody.eq_def]
  split
  · rename_i heq; cases heq
  · rename_i heq; cases heq
  · rename_i heq
    cases heq
    rw [h]
    simp only [hhigh, hlow, Bool.false_eq_true, if_false]
  · rename_i heq
    cases heq
    rw [h]
    simp only [hhigh, hlow, Bool.or_self, Bool.false_eq_true, if_false]
  · rename_i hnot heq
    cases heq
    exact (hnot a b c d cs rfl rfl).elim
  · rename_i hnot heq
    cases heq
    exact (hnot _ _ rfl rfl).elim

theorem stringBody_letter {e c : Char} (h : unescape? e = some c) (hu : e ≠ 'u') (cs : List Char) :
    stringBody ('\\' :: e :: cs) = (do
      let (text, rest) ← stringBody cs
      return (c :: text, rest)) := by
  rw [stringBody.eq_def]
  split
  · rename_i heq; cases heq
  · rename_i heq; cases heq
  · rename_i heq
    cases heq
    exact absurd rfl hu
  · rename_i heq
    cases heq
    exact absurd rfl hu
  · rename_i heq
    cases heq
    rw [h]
  · rename_i hnot heq
    cases heq
    exact (hnot _ _ rfl rfl).elim

theorem stringBody_plain {c : Char} (hquote : c ≠ '"') (hslash : c ≠ '\\') (h : ¬ c.toNat < 0x20)
    (cs : List Char) :
    stringBody (c :: cs) = (do
      let (text, rest) ← stringBody cs
      return (c :: text, rest)) := by
  rw [stringBody.eq_def]
  split
  · rename_i heq; cases heq
  · rename_i heq
    cases heq
    exact absurd rfl hquote
  · rename_i heq
    cases heq
    exact absurd rfl hslash
  · rename_i heq
    cases heq
    exact absurd rfl hslash
  · rename_i heq
    cases heq
    exact absurd rfl hslash
  · rename_i heq
    cases heq
    simp [hslash, h]

/-- A character is read back from how it stands in a string. -/
theorem stringBody_escaped (c : Char) (cs : List Char) :
    stringBody (escaped c ++ cs) = (do
      let (text, rest) ← stringBody cs
      return (c :: text, rest)) := by
  have hescapes := escapes_escaped c
  generalize escaped c = text at hescapes
  cases hescapes with
  | letter h hu => exact stringBody_letter h hu cs
  | control h hcontrol =>
      have hread := stringBody_unicode h (by simp [isHighSurrogate]; omega)
        (by simp [isLowSurrogate]; omega) cs
      rw [Char.ofNat_toNat] at hread
      exact hread
  | plain hquote hslash hcontrol => exact stringBody_plain hquote hslash hcontrol cs

theorem stringBody_quoted (s rest : List Char) :
    stringBody (s.flatMap escaped ++ '"' :: rest) = .ok (s, rest) := by
  induction s with
  | nil => simp [stringBody]
  | cons c s ih =>
      rw [List.flatMap_cons, List.append_assoc, stringBody_escaped, ih]
      rfl

theorem skipString_unicode {a b c d : Char} (h : (hex4? a b c d).isSome = true) (cs : List Char) :
    skipString ('\\' :: 'u' :: a :: b :: c :: d :: cs) = skipString cs := by
  rw [skipString.eq_def]
  simp only [Option.isNone_eq_false_iff.2 h, Bool.false_eq_true, if_false]

theorem skipString_letter {e c : Char} (h : unescape? e = some c) (hu : e ≠ 'u') (cs : List Char) :
    skipString ('\\' :: e :: cs) = skipString cs := by
  rw [skipString.eq_def]
  split
  · rename_i heq; cases heq
  · rename_i heq; cases heq
  · rename_i heq
    cases heq
    exact absurd rfl hu
  · rename_i heq
    cases heq
    rw [h]
    rfl
  · rename_i hnot heq
    cases heq
    exact (hnot _ _ rfl rfl).elim

theorem skipString_plain {c : Char} (hquote : c ≠ '"') (hslash : c ≠ '\\') (h : ¬ c.toNat < 0x20)
    (cs : List Char) : skipString (c :: cs) = skipString cs := by
  rw [skipString.eq_def]
  split
  · rename_i heq; cases heq
  · rename_i heq
    cases heq
    exact absurd rfl hquote
  · rename_i heq
    cases heq
    exact absurd rfl hslash
  · rename_i heq
    cases heq
    exact absurd rfl hslash
  · rename_i heq
    cases heq
    simp [hslash, h]

/-- A character is passed over where nobody asks for it. -/
theorem skipString_escaped (c : Char) (cs : List Char) :
    skipString (escaped c ++ cs) = skipString cs := by
  have hescapes := escapes_escaped c
  generalize escaped c = text at hescapes
  cases hescapes with
  | letter h hu => exact skipString_letter h hu cs
  | control h hcontrol => exact skipString_unicode (h ▸ rfl) cs
  | plain hquote hslash hcontrol => exact skipString_plain hquote hslash hcontrol cs

theorem skipString_quoted (s rest : List Char) :
    skipString (s.flatMap escaped ++ '"' :: rest) = .ok rest := by
  induction s with
  | nil => simp [skipString]
  | cons c s ih => rw [List.flatMap_cons, List.append_assoc, skipString_escaped, ih]

theorem quoted_append (s : String) (rest : List Char) :
    quoted s ++ rest = '"' :: (s.toList.flatMap escaped ++ '"' :: rest) := by
  simp [quoted]

/-- A character takes at most six places in a string. -/
theorem length_quoted_le (s : String) : (quoted s).length ≤ 6 * s.toList.length + 2 := by
  have hescaped : ∀ cs : List Char, (cs.flatMap escaped).length ≤ 6 * cs.length := by
    intro cs
    induction cs with
    | nil => exact Nat.le_refl 0
    | cons c cs ih =>
        have hchar : (escaped c).length ≤ 6 := by
          have hescapes := escapes_escaped c
          generalize escaped c = text at hescapes
          cases hescapes <;> simp
        rw [List.flatMap_cons, List.length_append, List.length_cons]
        omega
  have hall := hescaped s.toList
  rw [quoted, List.length_append, List.length_cons, List.length_singleton]
  omega

theorem string_quoted {ws : List Char} (hws : Blank ws) (s : String) (rest : List Char) :
    string (ws ++ (quoted s ++ rest)) = .ok (s, rest) := by
  rw [quoted_append, string, skipSpaces_append_cons hws rfl]
  simp only [stringBody_quoted]
  show Except.ok (String.ofList s.toList, rest) = _
  rw [String.ofList_toList]

theorem memberKey_quoted (s : String) (rest : List Char) :
    memberKey (quoted s ++ rest) = .ok (s, rest) := by
  rw [quoted_append, memberKey]
  simp only [stringBody_quoted]
  show Except.ok (String.ofList s.toList, rest) = _
  rw [String.ofList_toList]

/-! ### Numbers -/

/-- Whether a character behind the digits of a number would belong to it. -/
def continuesNumber (c : Char) : Bool := c.isDigit || c == '.' || c == 'e' || c == 'E'

/-- A number ends before this text. -/
def EndsNumber (rest : List Char) : Prop := ∀ c ∈ rest.head?, continuesNumber c = false

theorem endsNumber_cons {c : Char} (h : continuesNumber c = false) (cs : List Char) :
    EndsNumber (c :: cs) := by
  intro d hd
  cases hd
  exact h

theorem takeWhile_digits {ds rest : List Char} (hdigits : ∀ c ∈ ds, c.isDigit = true)
    (hrest : EndsNumber rest) : (ds ++ rest).takeWhile Char.isDigit = ds := by
  rw [List.takeWhile_append_of_pos hdigits]
  cases rest with
  | nil => exact List.append_nil ds
  | cons c rest =>
      have hc : c.isDigit = false := by
        have hends := hrest c rfl
        simp only [continuesNumber, Bool.or_eq_false_iff] at hends
        exact hends.1.1.1
      rw [List.takeWhile_cons_of_neg (by simp [hc])]
      exact List.append_nil ds

theorem digits_ne_minus {ds : List Char} (hdigits : ∀ c ∈ ds, c.isDigit = true) (hne : ds ≠ [])
    (rest r : List Char) : ds ++ rest ≠ '-' :: r := by
  intro h
  cases ds with
  | nil => exact hne rfl
  | cons d ds =>
      have hd := hdigits d List.mem_cons_self
      rw [List.cons_append, List.cons.injEq] at h
      rw [h.1] at hd
      exact absurd hd (by decide)

/-- The test for a needless zero, which these digits pass. -/
theorem hasNeedlessZero_eq_false {ds : List Char} (hne : ds ≠ [])
    (hzero : ds.head? = some '0' → ds.length ≤ 1) :
    (ds.isEmpty || (ds.head? == some '0' && decide (1 < ds.length))) = false := by
  rw [Bool.or_eq_false_iff, List.isEmpty_eq_false_iff, Bool.and_eq_false_iff]
  refine ⟨hne, ?_⟩
  by_cases h : ds.head? = some '0'
  · exact .inr (by simpa using hzero h)
  · exact .inl (by simpa using h)

/-- Digits are read as a number if they do not begin with a needless zero. -/
theorem numeral_digits {ds rest : List Char} (hdigits : ∀ c ∈ ds, c.isDigit = true)
    (hne : ds ≠ []) (hzero : ds.head? = some '0' → ds.length ≤ 1) (hrest : EndsNumber rest) :
    numeral (ds ++ rest) = .ok (⟨false, ds, [], none⟩, rest) := by
  have htake := takeWhile_digits hdigits hrest
  have hdrop : (ds ++ rest).drop ds.length = rest := List.drop_left
  have hleading := hasNeedlessZero_eq_false hne hzero
  unfold numeral
  -- the reader first looks for a sign, which is no digit
  split
  rename_i hneg
  split at hneg
  · rename_i r heq
    exact (digits_ne_minus hdigits hne rest r heq).elim
  cases hneg
  dsimp only
  rw [htake, hdrop, hleading, if_neg Bool.false_ne_true]
  -- no fraction and no exponent follows
  cases rest with
  | nil => rfl
  | cons c rest =>
      have hends := hrest c rfl
      simp only [continuesNumber, Bool.or_eq_false_iff, beq_eq_false_iff_ne] at hends
      have hexponent : (c == 'e' || c == 'E') = false := by simp [hends.1.2, hends.2]
      split
      · rename_i hcons
        cases hcons
        exact absurd rfl hends.1.1.2
      · show (if (c == 'e' || c == 'E') = true then _ else _) = _
        rw [hexponent, if_neg Bool.false_ne_true]
        rfl

theorem digits_eq (n : Nat) : digits n = Nat.toDigits 10 n := String.toList_ofList

theorem decimalValue_digits (n : Nat) : decimalValue (digits n) = n := by
  have hfold : decimalValue (digits n) = Nat.ofDigitChars 10 (digits n) 0 := by
    simp only [decimalValue, Nat.ofDigitChars_eq_foldl, Nat.mul_comm]
  rw [hfold, digits_eq, Nat.ofDigitChars_ten_toDigits]

/-- Only zero itself begins with a zero. -/
theorem head?_toDigits_ne {n : Nat} (h : 0 < n) : (Nat.toDigits 10 n).head? ≠ some '0' := by
  induction n using Nat.strongRecOn with
  | ind n ih =>
      by_cases hlt : n < 10
      · have hdigit : ∀ m < 10, 0 < m → Nat.digitChar m ≠ '0' := by decide
        rw [Nat.toDigits_of_lt_base hlt, List.head?_cons]
        exact fun heq => hdigit n hlt h (Option.some.inj heq)
      · -- the last digit is put behind the digits of `n / 10`, which are not empty
        have hfront := ih (n / 10) (by omega) (by omega)
        obtain ⟨d, ds, hds⟩ :=
          List.exists_cons_of_ne_nil (Nat.toDigits_ne_nil (n := n / 10) (b := 10))
        rw [Nat.toDigits_of_base_le (by decide) (Nat.not_lt.1 hlt)]
        rw [hds] at hfront ⊢
        exact hfront

/-- Digits do not begin with a needless zero. -/
theorem length_digits_of_zero {n : Nat} (h : (digits n).head? = some '0') :
    (digits n).length ≤ 1 := by
  rw [digits_eq] at h ⊢
  cases Nat.eq_zero_or_pos n with
  | inl hzero =>
      rw [hzero, Nat.toDigits_zero]
      exact Nat.le_refl 1
  | inr hpos => exact absurd h (head?_toDigits_ne hpos)

theorem isSpace_of_isDigit {c : Char} (h : c.isDigit = true) : isSpace c = false := by
  simp only [isSpace, Bool.or_eq_false_iff, beq_eq_false_iff_ne]
  refine ⟨⟨⟨?_, ?_⟩, ?_⟩, ?_⟩ <;>
    (rintro rfl; exact absurd h (by decide))

theorem isDigit_of_mem_digits {n : Nat} {c : Char} (h : c ∈ digits n) : c.isDigit = true := by
  rw [digits_eq] at h
  exact Nat.isDigit_of_mem_toDigits (by decide) (by decide) h

theorem digits_eq_cons (n : Nat) :
    ∃ d ds, digits n = d :: ds ∧ d.isDigit = true ∧ isSpace d = false := by
  obtain ⟨d, ds, hds⟩ := List.exists_cons_of_ne_nil (Nat.toDigits_ne_nil (n := n) (b := 10))
  have hdigits := (digits_eq n).trans hds
  have hd : d.isDigit = true := isDigit_of_mem_digits (n := n) (hdigits ▸ List.mem_cons_self)
  exact ⟨d, ds, hdigits, hd, isSpace_of_isDigit hd⟩

/-- Digits stand for themselves in a string. -/
theorem escaped_of_isDigit {c : Char} (h : c.isDigit = true) : escaped c = [c] := by
  have hcode : ¬ c.toNat < 0x20 := by
    have hmin : '0'.toNat ≤ c.toNat := (Bool.and_eq_true_iff.1 h).1 |> of_decide_eq_true
    exact Nat.not_lt.2 (Nat.le_trans (by decide) hmin)
  unfold escaped
  split_ifs <;> first | rfl | (subst c; exact absurd h (by decide))

theorem flatMap_escaped_digits (n : Nat) : (digits n).flatMap escaped = digits n := by
  have hsame : ∀ cs : List Char, (∀ c ∈ cs, c.isDigit = true) → cs.flatMap escaped = cs := by
    intro cs
    induction cs with
    | nil => exact fun _ => rfl
    | cons c cs ih =>
        intro h
        obtain ⟨hc, hcs⟩ := List.forall_mem_cons.1 h
        rw [List.flatMap_cons, escaped_of_isDigit hc, ih hcs]
        rfl
  exact hsame (digits n) fun c => isDigit_of_mem_digits

theorem overflows_digits (n : UInt8) :
    (Numeral.mk false (digits n.toNat) [] none).overflows = false := by
  have hlog : Nat.log2 n.toNat ≤ 1022 :=
    Nat.le_trans (Nat.log2_le_self n.toNat) (Nat.le_trans (Nat.le_of_lt n.toNat_lt) (by decide))
  have hfinite := Binary64.isFinite_ofDecimal false (digits n.toNat).length hlog
  simp only [Numeral.overflows, List.append_nil, decimalValue_digits]
  exact (congrArg Bool.not hfinite).trans rfl

/-- A number from 0 to 255 is read back. -/
theorem octet_digits {ws : List Char} (hws : Blank ws) (n : UInt8) {rest : List Char}
    (hrest : EndsNumber rest) : octet (ws ++ (digits n.toNat ++ rest)) = .ok (n, rest) := by
  have hvalue := decimalValue_digits n.toNat
  have hfits := overflows_digits n
  obtain ⟨d, ds, hds, hd, hspace⟩ := digits_eq_cons n.toNat
  have hnumeral := numeral_digits (fun c => isDigit_of_mem_digits) (hds ▸ List.cons_ne_nil d ds)
    (length_digits_of_zero (n := n.toNat)) hrest
  rw [hds] at hnumeral hfits hvalue
  rw [octet, hds, List.cons_append, skipSpaces_append_cons hws hspace]
  dsimp only
  rw [if_pos (by simp [hd]), ← List.cons_append, hnumeral]
  show (if (Numeral.mk false (d :: ds) [] none).overflows = true then _ else _) = _
  rw [hfits, if_neg Bool.false_ne_true]
  show (if h : decimalValue (d :: ds) < 256 then
    (pure (UInt8.ofNatLT _ h, rest) : Except DecodeError (UInt8 × List Char)) else _) = _
  simp only [hvalue, n.toNat_lt, dif_pos]
  rfl

/-- A number from 0 to 255 is read back from a key. -/
theorem octetKey_quoted (n : UInt8) (rest : List Char) :
    octetKey (quoted (toString n) ++ rest) = .ok (n, rest) := by
  obtain ⟨d, ds, hds, hd, -⟩ := digits_eq_cons n.toNat
  have htext : (toString n).toList.flatMap escaped = digits n.toNat :=
    flatMap_escaped_digits n.toNat
  have hends : EndsNumber ('"' :: rest) := endsNumber_cons rfl rest
  have hread := octet_digits blank_nil n hends
  rw [hds, List.nil_append] at hread
  rw [quoted_append, htext, hds, List.cons_append, octetKey]
  rw [if_pos (by simp [hd]), ← List.cons_append, hread]
  rfl

end EscapeRoom.Json
