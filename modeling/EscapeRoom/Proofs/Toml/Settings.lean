import EscapeRoom.Config
import EscapeRoom.Proofs.Json.Token
import EscapeRoom.Proofs.Toml.Quoted

/-!
# Settings are read back

A document of settings has one line for each: a key without quotes, a text in quotes or a number.
Its statements are the entries, and each value is found under its key.

* `Spells` — a piece of text that is read as a value at the end of a line.
* `spells_quoted`, `spells_digits` — texts and numbers.
* `SettingLines`, `statementsUpTo_settingLines` — documents of settings and their statements.
* `Definitions.add_settings` — what the entries define.
* `Definitions.ofText?_settingLines` — the value under each key.
-/

namespace EscapeRoom.Toml

open Json (digits)

/-- A character with a property is none of those without it. -/
theorem ne_of_property {p : Char → Bool} {c d : Char} (hc : p c = true) (hd : p d = false) :
    c ≠ d := by
  rintro rfl
  rw [hd] at hc
  cases hc

/-! ### Values -/

/-- A piece of text that is read as a value at the end of a line. -/
structure Spells (text : List Char) (v : Value) : Prop where
  /-- It does not begin with a blank. -/
  skipBlanks_eq (rest : List Char) : skipBlanks (text ++ rest) = text ++ rest
  value_eq (rest : List Char) : value nestingLimit (text ++ '\n' :: rest) = some (v, '\n' :: rest)

/-- Only brackets and braces open a list or a table. -/
theorem value_eq_scalar (depth : Nat) {c : Char} (hlist : c ≠ '[') (htable : c ≠ '\x7b')
    (rest : List Char) : value depth (c :: rest) = scalar (c :: rest) := by
  cases depth with
  | zero => rfl
  | succ depth =>
      rw [value.eq_def]
      dsimp only
      split
      · next heq =>
          cases heq
          exact absurd rfl hlist
      · next heq =>
          cases heq
          exact absurd rfl htable
      · rfl

theorem skipBlanks_cons {c : Char} (h : isBlank c = false) (rest : List Char) :
    skipBlanks (c :: rest) = c :: rest :=
  List.dropWhile_cons_of_neg (by simp [h])

theorem exists_quoted_eq (s : String) :
    ∃ c more, quoted s = c :: more ∧ (c = '"' ∨ c = tick) := by
  rw [quoted]
  cases Quoting.for s.toList with
  | basic | basicLines => exact ⟨_, _, rfl, .inl rfl⟩
  | literal | literalLines => exact ⟨_, _, rfl, .inr rfl⟩

/-- A text in quotes spells the text. -/
theorem spells_quoted (s : String) : Spells (quoted s) (.text s) := by
  obtain ⟨c, more, hquoted, hc⟩ := exists_quoted_eq s
  have hnot : isBlank c = false ∧ c ≠ '[' ∧ c ≠ '\x7b' := by
    rcases hc with rfl | rfl <;> decide
  constructor
  · intro rest
    rw [hquoted, List.cons_append, skipBlanks_cons hnot.1]
  · intro rest
    have hends : EndsQuote ('\n' :: rest) := by
      intro d hd
      cases hd
      decide
    have hread := quotedText_quoted s hends
    rw [hquoted, List.cons_append] at hread ⊢
    have hscalar : scalar (c :: (more ++ '\n' :: rest)) =
        (quotedText (c :: (more ++ '\n' :: rest))).bind fun p =>
          some (.text (String.ofList p.1), p.2) := by
      rw [scalar, if_pos (by simpa using hc)]
      rfl
    rw [value_eq_scalar _ hnot.2.1 hnot.2.2, hscalar, hread, Option.bind_some, String.ofList_toList]

/-! ### Numbers -/

section
variable {ds : List Char} (hdigits : ∀ c ∈ ds, c.isDigit = true)
include hdigits

theorem plainDigits?_digits (hne : ds ≠ []) : plainDigits? Char.isDigit ds = some ds := by
  induction ds with
  | nil => exact absurd rfl hne
  | cons d ds ih =>
      obtain ⟨hd, htail⟩ := List.forall_mem_cons.1 hdigits
      rw [plainDigits?.eq_def]
      split
      · next heq => cases heq
      · next heq =>
          cases heq
          exact if_pos hd
      · next heq =>
          cases heq
          exact absurd (htail '_' List.mem_cons_self) (by decide)
      · next hlong _ heq =>
          cases heq
          rw [ih htail hlong, hd]
          rfl

theorem integer?_digits (hne : ds ≠ []) (hzero : ds.head? = some '0' → ds.length ≤ 1) :
    integer? ds = some (Int.ofNat (decimalValue ds)) := by
  have hbase : splitBase? ds = none := by
    unfold splitBase?
    split
    · exact absurd (hdigits 'x' (by simp)) (by decide)
    · exact absurd (hdigits 'o' (by simp)) (by decide)
    · exact absurd (hdigits 'b' (by simp)) (by decide)
    · rfl
  have hsign : splitSign ds = (false, ds) := by
    unfold splitSign
    split
    · exact absurd (hdigits '-' (by simp)) (by decide)
    · exact absurd (hdigits '+' (by simp)) (by decide)
    · rfl
  have hwhole : wholeDigits? ds = some ds := by
    rw [wholeDigits?, plainDigits?_digits hdigits hne, Option.filter_some]
    by_cases h : ds.head? = some '0'
    · have hlength : ds.length = 1 :=
        Nat.le_antisymm (hzero h) (List.length_pos_iff.2 hne)
      simp [hlength]
    · simp [h]
  rw [integer?, hbase]
  simp only [hsign, hwhole]
  rfl

theorem word_digits (rest : List Char) : word (ds ++ '\n' :: rest) = some (ds, '\n' :: rest) := by
  have hfirst : (ds ++ '\n' :: rest).takeWhile isWordChar = ds := by
    have hword : ∀ c ∈ ds, isWordChar c = true := fun c hc => by
      simp [isWordChar, Char.isAlphanum, hdigits c hc]
    rw [List.takeWhile_append_of_pos hword, List.takeWhile_cons_of_neg (by decide),
      List.append_nil]
  have hdrop : (ds ++ '\n' :: rest).drop ds.length = '\n' :: rest := List.drop_left
  simp only [word, hfirst, hdrop]
  rfl

end

theorem wordValue?_digits {n : Nat} (h : isStorable n = true) :
    wordValue? (digits n) = some (.integer n) := by
  have hdigits : ∀ c ∈ digits n, c.isDigit = true := fun c => Json.isDigit_of_mem_digits
  obtain ⟨d, ds, hds, hd, -⟩ := Json.digits_eq_cons n
  have hletter : ∀ (c : Char) (cs : List Char), c.isDigit = false → digits n ≠ c :: cs := by
    intro c cs hc heq
    rw [hds] at heq
    exact ne_of_property hd hc (List.cons.inj heq).1
  rw [wordValue?, if_neg (hletter 't' _ rfl), if_neg (hletter 'f' _ rfl),
    integer?_digits hdigits (hds ▸ List.cons_ne_nil d ds) Json.length_digits_of_zero,
    Json.decimalValue_digits]
  exact if_pos h

/-- The digits of a number spell it. -/
theorem spells_digits {n : Nat} (h : isStorable n = true) : Spells (digits n) (.integer n) := by
  obtain ⟨d, ds, hds, hd, -⟩ := Json.digits_eq_cons n
  have hnot : ∀ c : Char, c.isDigit = false → d ≠ c := fun c => ne_of_property hd
  constructor
  · intro rest
    have hblank : isBlank d = false := by
      simp [isBlank, hnot ' ' rfl, hnot '\t' rfl]
    rw [hds, List.cons_append, skipBlanks_cons hblank]
  · intro rest
    have hword := word_digits (fun c => Json.isDigit_of_mem_digits (n := n)) rest
    rw [hds, List.cons_append] at hword ⊢
    have hscalar : scalar (d :: (ds ++ '\n' :: rest)) =
        (word (d :: (ds ++ '\n' :: rest))).bind fun p =>
          (wordValue? p.1).bind fun v => some (v, p.2) := by
      rw [scalar, if_neg (by simp [hnot '"' rfl, hnot tick rfl])]
      rfl
    rw [value_eq_scalar _ (hnot '[' rfl) (hnot '\x7b' rfl), hscalar, hword, Option.bind_some,
      ← hds, wordValue?_digits h]
    rfl

/-! ### Lines -/

/-- A key that needs no quotes. -/
structure IsBareKey (key : String) : Prop where
  ne_nil : key.toList ≠ []
  isBareKeyChar {c : Char} (h : c ∈ key.toList) : isBareKeyChar c = true

/-- The text of some settings, one in each line, and an empty line. -/
inductive SettingLines : List Char → List (String × Value) → Prop
  | nil : SettingLines ['\n'] []
  | cons {key : String} {text cs : List Char} {v : Value} {settings : List (String × Value)}
      (hkey : IsBareKey key) (htext : Spells text v) (h : SettingLines cs settings) :
      SettingLines (Config.settingLine key text ++ cs) ((key, v) :: settings)

section
variable {key : String} (hkey : IsBareKey key)
include hkey

/-- A bare key begins with a character that means nothing else. -/
theorem exists_bareKey_eq :
    ∃ c cs, key.toList = c :: cs ∧ isBlank c = false ∧ c ≠ '"' ∧ c ≠ tick ∧ c ≠ '[' ∧
      (∀ next, isBreak c next = false) ∧ c ≠ '#' := by
  obtain ⟨c, cs, hcs⟩ := List.exists_cons_of_ne_nil hkey.ne_nil
  have hc : isBareKeyChar c = true := hkey.isBareKeyChar (hcs ▸ List.mem_cons_self)
  have hnot : ∀ d : Char, isBareKeyChar d = false → c ≠ d := fun d => ne_of_property hc
  refine ⟨c, cs, hcs, ?_, hnot '"' rfl, hnot tick rfl, hnot '[' rfl, ?_, hnot '#' rfl⟩
  · simp [isBlank, hnot ' ' rfl, hnot '\t' rfl]
  · intro next
    simp [isBreak, hnot '\n' rfl, hnot '\r' rfl]

theorem simpleKey_bare (rest : List Char) :
    simpleKey (key.toList ++ ' ' :: rest) = some (key, ' ' :: rest) := by
  have htake : (key.toList ++ ' ' :: rest).takeWhile isBareKeyChar = key.toList := by
    rw [List.takeWhile_append_of_pos fun c hc => hkey.isBareKeyChar hc,
      List.takeWhile_cons_of_neg (by decide), List.append_nil]
  have hdrop : (key.toList ++ ' ' :: rest).drop key.toList.length = ' ' :: rest := List.drop_left
  have hne : key.toList.isEmpty = false := List.isEmpty_eq_false_iff.2 hkey.ne_nil
  obtain ⟨c, cs, hcs, -, hdouble, hsingle, -⟩ := exists_bareKey_eq hkey
  rw [hcs, List.cons_append] at htake hdrop ⊢
  rw [simpleKey, if_neg (by simp [hdouble, hsingle]), htake]
  dsimp only
  rw [← hcs, hne, hcs, hdrop, ← hcs, String.ofList_toList]
  rfl

theorem keyPath_bare (rest : List Char) :
    keyPath (key.toList ++ ' ' :: '=' :: rest) = some ([key], '=' :: rest) := by
  obtain ⟨c, cs, hcs, hblank, -⟩ := exists_bareKey_eq hkey
  have hstart : skipBlanks (key.toList ++ ' ' :: '=' :: rest) =
      key.toList ++ ' ' :: '=' :: rest := by
    rw [hcs, List.cons_append, skipBlanks_cons hblank]
  rw [keyPath, keys, hstart, simpleKey_bare hkey]
  rfl

/-- A line of a setting is read as an entry; the end of the line is left. -/
theorem statement_settingLine {text : List Char} {v : Value} (htext : Spells text v)
    (rest : List Char) :
    statement (Config.settingLine key text ++ rest) = some (.entry [key] v, '\n' :: rest) := by
  have hline : Config.settingLine key text ++ rest =
      key.toList ++ ' ' :: '=' :: ' ' :: (text ++ '\n' :: rest) := by
    simp [Config.settingLine]
  have hentry : entry (value nestingLimit)
      (key.toList ++ ' ' :: '=' :: ' ' :: (text ++ '\n' :: rest)) =
        some (([key], v), '\n' :: rest) := by
    have hblank : skipBlanks (' ' :: (text ++ '\n' :: rest)) = text ++ '\n' :: rest :=
      htext.skipBlanks_eq _
    rw [entry, keyPath_bare hkey]
    show ((value nestingLimit (skipBlanks (' ' :: (text ++ '\n' :: rest)))).bind fun p =>
      some (([key], p.1), p.2)) = _
    rw [hblank, htext.value_eq]
    rfl
  obtain ⟨c, cs, hcs, -, -, -, hbracket, -⟩ := exists_bareKey_eq hkey
  rw [hline]
  rw [hcs, List.cons_append] at hentry ⊢
  rw [statement.eq_def]
  split
  · next heq => exact absurd (List.cons.inj heq).1 hbracket
  · next heq => exact absurd (List.cons.inj heq).1 hbracket
  · rw [hentry]
    rfl

end

theorem statementsUpTo_cons_break (fuel : Nat) (cs : List Char) :
    statementsUpTo fuel ('\n' :: cs) = statementsUpTo fuel cs := by
  cases fuel with
  | zero => rfl
  | succ fuel => rfl

/-- The statements of a text of settings are their entries. -/
theorem statementsUpTo_settingLines {cs : List Char} {settings : List (String × Value)}
    (h : SettingLines cs settings) {fuel : Nat} (hfuel : settings.length < fuel) :
    statementsUpTo fuel cs = some (settings.map fun s => .entry [s.1] s.2) := by
  induction h generalizing fuel with
  | nil =>
      obtain ⟨fuel, rfl⟩ := Nat.exists_eq_succ_of_ne_zero (Nat.ne_of_gt hfuel)
      rfl
  | @cons key text cs v settings hkey htext _ ih =>
      obtain ⟨fuel, rfl⟩ := Nat.exists_eq_succ_of_ne_zero (Nat.ne_of_gt (Nat.zero_lt_of_lt hfuel))
      have hread := statement_settingLine hkey htext cs
      obtain ⟨c, more, hmore, hblank, -, -, -, hbreak, hcomment⟩ := exists_bareKey_eq hkey
      obtain ⟨tail, htail⟩ : ∃ tail, Config.settingLine key text ++ cs = c :: tail :=
        ⟨_, by rw [Config.settingLine, hmore]; rfl⟩
      have hgap : skipGap false (c :: tail) = c :: tail := by
        rw [skipGap, if_neg (by simp [hbreak]), if_neg Bool.false_ne_true,
          if_neg (by simp [hblank]), if_neg hcomment]
      have hend : skipBlanks ('\n' :: cs) = '\n' :: cs := skipBlanks_cons rfl cs
      rw [htail] at hread ⊢
      rw [statementsUpTo, hgap]
      dsimp only
      rw [hread]
      show (if endsLine (skipBlanks ('\n' :: cs)) = true then
        (statementsUpTo fuel (skipBlanks ('\n' :: cs))).bind fun more => some (_ :: more)
        else none) = _
      rw [hend, statementsUpTo_cons_break, ih (Nat.lt_of_succ_lt_succ hfuel)]
      rfl

theorem length_lt_of_settingLines {cs : List Char} {settings : List (String × Value)}
    (h : SettingLines cs settings) : settings.length < cs.length := by
  induction h with
  | nil => exact Nat.one_pos
  | @cons key text cs v settings _ _ _ ih =>
      simp only [List.length_cons, List.length_append, Config.settingLine]
      omega

/-- No byte order mark stands in front of settings. -/
theorem ne_mark_of_settingLines {cs : List Char} {settings : List (String × Value)}
    (h : SettingLines cs settings) (rest : List Char) : cs ≠ '\ufeff' :: rest := by
  cases h with
  | nil => exact fun heq => absurd (List.cons.inj heq).1 (by decide)
  | @cons key text cs v settings hkey =>
      obtain ⟨c, more, hmore⟩ := List.exists_cons_of_ne_nil hkey.ne_nil
      have hc : isBareKeyChar c = true := hkey.isBareKeyChar (hmore ▸ List.mem_cons_self)
      intro heq
      rw [Config.settingLine, hmore] at heq
      rw [(List.cons.inj heq).1] at hc
      exact absurd hc (by decide)

/-! ### What settings define -/

namespace Definitions

theorem find?_put (d : Definitions) (place q : List Step) (definition : Definition) :
    (d.put place definition).find? q = if q = place then some definition else d.find? q := by
  rw [find?, put, List.find?_cons]
  by_cases h : q = place
  · rw [if_pos h, h]
    simp
  · have hne : (place == q) = false := beq_eq_false_iff_ne.2 fun heq => h heq.symm
    rw [if_neg h, hne]
    rfl

/-- A new key of the outermost table gets its value. -/
theorem addEntry_key {d : Definitions} {key : String} (h : d.find? [.key key] = none) (v : Value) :
    d.addEntry [] [key] v = some (d.put [.key key] (.value v)) := by
  show (if (d.find? [.key key]).isSome then none else some (d.put [.key key] (.value v))) = _
  rw [h]
  rfl

/-- Entries with different keys all count. -/
theorem add_settings {settings : List (String × Value)}
    (hnodup : (settings.map Prod.fst).Nodup) {d : Definitions}
    (hfresh : ∀ s ∈ settings, d.find? [.key s.1] = none) :
    ∃ after, d.add [] (settings.map fun s => .entry [s.1] s.2) = some after ∧
      (∀ s ∈ settings, after.find? [.key s.1] = some (.value s.2)) ∧
      ∀ key ∉ settings.map Prod.fst, after.find? [.key key] = d.find? [.key key] := by
  induction settings generalizing d with
  | nil => exact ⟨d, rfl, fun s hs => absurd hs List.not_mem_nil, fun key _ => rfl⟩
  | cons s settings ih =>
      obtain ⟨hother, hrest⟩ := List.nodup_cons.1 hnodup
      have hput : ∀ key, key ≠ s.1 →
          (d.put [.key s.1] (.value s.2)).find? [.key key] = d.find? [.key key] := by
        intro key hkey
        rw [find?_put, if_neg (by simpa using hkey)]
      have hfreshRest : ∀ t ∈ settings,
          (d.put [.key s.1] (.value s.2)).find? [.key t.1] = none := by
        intro t ht
        have hne : t.1 ≠ s.1 := fun heq => hother (heq ▸ List.mem_map_of_mem ht)
        rw [hput t.1 hne, hfresh t (List.mem_cons_of_mem s ht)]
      obtain ⟨after, hadd, hvalues, hothers⟩ := ih hrest hfreshRest
      refine ⟨after, ?_, ?_, ?_⟩
      · rw [List.map_cons, add, addEntry_key (hfresh s List.mem_cons_self)]
        exact hadd
      · intro t ht
        rcases List.mem_cons.1 ht with rfl | ht
        · rw [hothers t.1 hother, find?_put, if_pos rfl]
        · exact hvalues t ht
      · intro key hkey
        rw [List.map_cons, List.mem_cons, not_or] at hkey
        rw [hothers key hkey.2, hput key hkey.1]

theorem field_eq {d : Definitions} {key : String} {v : Value}
    (h : d.find? [.key key] = some (.value v)) {α : Type} (default : α) (read : Value → Option α) :
    d.field key default read = read v := by
  rw [field, h]

/-- **Each setting of a text has its value.** -/
theorem ofText?_settingLines {cs : List Char} {settings : List (String × Value)}
    (h : SettingLines cs settings) (hnodup : (settings.map Prod.fst).Nodup) :
    ∃ d, ofText? (String.ofList cs) = some d ∧
      ∀ s ∈ settings, d.find? [.key s.1] = some (.value s.2) := by
  obtain ⟨d, hadd, hvalues, -⟩ := add_settings hnodup (d := .empty) fun _ _ => rfl
  refine ⟨d, ?_, hvalues⟩
  have hread := statementsUpTo_settingLines h (Nat.lt_succ_of_lt (length_lt_of_settingLines h))
  have hstatements : statements? cs = some (settings.map fun s => .entry [s.1] s.2) := by
    rw [statements?]
    · exact hread
    · exact ne_mark_of_settingLines h
  rw [ofText?, String.toList_ofList, hstatements]
  exact hadd

end Definitions

end EscapeRoom.Toml
