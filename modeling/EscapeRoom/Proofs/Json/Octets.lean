import EscapeRoom.Proofs.Json.Record
import EscapeRoom.Proofs.Utf8

/-!
# Reading JSON that is no text

Octets are read as a text in which a mark stands for each place that is no character.  A string that
is read refuses the mark, and a string that is passed over does not look at it.  So octets in a
string have to be well-formed where somebody asks for the string, and nowhere else.

* `Json.Decoder.runOctets_encode` — the octets of a text are read as the text.
* `Json.stringBody_textOf`, `Json.skipString_textOf` — any octets in a string that is read, and in
  one that is passed over.
* `Json.Decoder.runOctets_string` — a string of any octets.
* `Json.Fields.Lawful.runOctets_unknown`, `Json.Fields.Lawful.runOctets_noted` — a record with a
  string of any octets under another name.
-/

namespace EscapeRoom.Json

open Text.Utf8

/-! ### The octets of a text -/

theorem textOf_encode (cs : List Char) : textOf (encode cs) = cs :=
  decodeMarked_encode illFormed cs

/-- The octets of a text are read as the text. -/
theorem Decoder.runOctets_encode {α : Type} (d : Decoder α) (cs : List Char) :
    d.runOctets (encode cs) = d.run cs := by
  rw [runOctets, textOf_encode]

/-! ### Octets in a string -/

/-- An octet that stands for itself in a string, whatever characters the octets make: no quote, no
backslash and no control character. -/
def IsPlain (b : UInt8) : Prop := 0x20 ≤ b.toNat ∧ b.toNat ≠ 0x22 ∧ b.toNat ≠ 0x5C

instance (b : UInt8) : Decidable (IsPlain b) := inferInstanceAs (Decidable (_ ∧ _))

theorem IsPlain.firstChar {b : UInt8} {rest : List UInt8} {c : Char} {n : Nat} (h : IsPlain b)
    (hfirst : firstChar b rest = .inl (c, n)) : c ≠ '"' ∧ c ≠ '\\' ∧ ¬ c.toNat < 0x20 := by
  obtain ⟨hcontrol, hquote, hslash⟩ := h
  have hcode := toNat_firstChar hfirst
  refine ⟨?_, ?_, ?_⟩
  · rintro rfl
    have hchar : '"'.toNat = 0x22 := rfl
    omega
  · rintro rfl
    have hchar : '\\'.toNat = 0x5C := rfl
    omega
  · omega

/-- The second half of a pair does not stand alone in a string that is read. -/
theorem stringBody_low {a b c d : Char} {n : Nat} (h : hex4? a b c d = some n)
    (hhigh : isHighSurrogate n = false) (hlow : isLowSurrogate n = true) (cs : List Char) :
    stringBody ('\\' :: 'u' :: a :: b :: c :: d :: cs) = .error .malformed := by
  rw [stringBody.eq_def]
  split
  · rename_i heq; cases heq
  · rename_i heq; cases heq
  · rename_i heq
    cases heq
    rw [h]
    simp only [hhigh, hlow, Bool.false_eq_true, if_false, if_true]
  · rename_i heq
    cases heq
    rw [h]
    simp only [hlow, Bool.or_true, if_true]
  · rename_i hnot heq
    cases heq
    exact (hnot a b c d cs rfl rfl).elim
  · rename_i hnot heq
    cases heq
    exact (hnot _ _ rfl rfl).elim

theorem stringBody_illFormed (cs : List Char) :
    stringBody (illFormed ++ cs) = .error .malformed := by
  have hlow : stringBody ('\\' :: 'u' :: 'd' :: 'c' :: '0' :: '0' :: cs) = .error .malformed :=
    stringBody_low (n := 0xDC00) (by decide) (by decide) (by decide) cs
  rw [illFormed, List.cons_append, stringBody_plain (by decide) (by decide) (by decide)]
  simp only [List.cons_append, List.nil_append, hlow]
  rfl

theorem skipString_illFormed (cs : List Char) : skipString (illFormed ++ cs) = skipString cs := by
  rw [illFormed, List.cons_append, skipString_plain (by decide) (by decide) (by decide)]
  exact skipString_unicode (by decide) cs

variable {octets : List UInt8}

/-- Octets in a string are read if they are well-formed. -/
theorem stringBody_textOf (h : ∀ b ∈ octets, IsPlain b) (cs : List Char) :
    stringBody (textOf octets ++ cs) =
      match decode? octets with
      | some text => (stringBody cs).map fun r => (text ++ r.1, r.2)
      | none => .error .malformed := by
  induction octets using octets_induction with
  | nil =>
      show stringBody cs = (stringBody cs).map fun r => ([] ++ r.1, r.2)
      cases stringBody cs <;> rfl
  | cons b rest ih =>
      obtain ⟨hb, hrest⟩ := List.forall_mem_cons.1 h
      have hnext := ih fun x hx => hrest x (List.mem_of_mem_drop hx)
      rw [textOf, decodeMarked_cons, decode?_cons, List.append_assoc]
      rw [textOf] at hnext
      cases hfirst : firstChar b rest with
      | inl p =>
          obtain ⟨hquote, hslash, hcontrol⟩ := hb.firstChar hfirst
          have hspan : span b rest = p.2 := by rw [span, hfirst]; rfl
          have hpiece : piece illFormed b rest = [p.1] := by rw [piece, hfirst]; rfl
          rw [hspan] at hnext
          rw [hpiece, hspan, List.singleton_append, stringBody_plain hquote hslash hcontrol]
          cases hdecode : decode? (rest.drop (p.2 - 1)) with
          | some text =>
              simp only [hdecode] at hnext
              simp only [hnext, hdecode, Option.map_some]
              cases stringBody cs <;> rfl
          | none =>
              simp only [hdecode] at hnext
              simp only [hnext, hdecode, Option.map_none]
              rfl
      | inr n =>
          have hpiece : piece illFormed b rest = illFormed := by rw [piece, hfirst]; rfl
          rw [hpiece, stringBody_illFormed]

/-- Octets in a string that is passed over need not be well-formed. -/
theorem skipString_textOf (h : ∀ b ∈ octets, IsPlain b) (cs : List Char) :
    skipString (textOf octets ++ cs) = skipString cs := by
  induction octets using octets_induction with
  | nil => rfl
  | cons b rest ih =>
      obtain ⟨hb, hrest⟩ := List.forall_mem_cons.1 h
      have hnext := ih fun x hx => hrest x (List.mem_of_mem_drop hx)
      rw [textOf] at hnext
      rw [textOf, decodeMarked_cons, List.append_assoc, piece]
      cases hfirst : firstChar b rest with
      | inl p =>
          obtain ⟨hquote, hslash, hcontrol⟩ := hb.firstChar hfirst
          exact (skipString_plain hquote hslash hcontrol _).trans hnext
      | inr n => exact (skipString_illFormed _).trans hnext

/-! ### Octets between texts -/

/-- Any octets in a string, between texts. -/
theorem textOf_between (before after : List Char) (octets : List UInt8) :
    textOf (encode before ++ (octets ++ encode ('"' :: after))) =
      before ++ (textOf octets ++ '"' :: after) := by
  have hquote : encode ('"' :: after) = 0x22 :: encode after := rfl
  rw [textOf, decodeMarked_encode_append, hquote, decodeMarked_append _ rfl, ← hquote,
    decodeMarked_encode, textOf]

/-- **A string of any octets is read if they are well-formed, and is no JSON if they are not.** -/
theorem Decoder.runOctets_string (h : ∀ b ∈ octets, IsPlain b) :
    string.runOctets (encode ['"'] ++ (octets ++ encode ['"'])) =
      match decode? octets with
      | some text => .ok (String.ofList text)
      | none => .error .malformed := by
  have hbody := stringBody_textOf h ['"']
  rw [runOctets, textOf_between, run, List.singleton_append, string]
  simp only [skipSpaces_cons (rfl : isSpace '"' = false), hbody]
  cases decode? octets with
  | some text =>
      show Except.ok (String.ofList (text ++ [])) = _
      rw [List.append_nil]
  | none => rfl

theorem skipValue_textOf (h : ∀ b ∈ octets, IsPlain b) (fuel : Nat) (cs : List Char) :
    skipValue (fuel + 1) ('"' :: (textOf octets ++ '"' :: cs)) = .ok cs := by
  rw [skipValue.eq_def]
  simp only [skipSpaces_cons (rfl : isSpace '"' = false), skipString_textOf h]
  rw [skipString]

/-- **A record is read from its members behind a member of another name whose string holds any
octets.** -/
theorem Fields.Lawful.runOctets_unknown {σ α : Type} {f : Fields σ α} (hf : f.Lawful) (a : α)
    {name : String} (hunknown : f.knows name = false) (h : ∀ b ∈ octets, IsPlain b)
    {body : List Char} (hbody : Listed '}' IsMember false (f.members a) body) :
    (Codec.record f).decoder.runOctets
        (encode ('{' :: (quoted name ++ [':', '"'])) ++ (octets ++ encode ('"' :: body))) =
      .ok a := by
  obtain ⟨s, hreads, hfinish⟩ := hf.reads a
  let inner := quoted name ++ ':' :: '"' :: (textOf octets ++ '"' :: body)
  have hinner : textOf (encode ('{' :: (quoted name ++ [':', '"'])) ++
      (octets ++ encode ('"' :: body))) = '{' :: inner := by
    rw [textOf_between, List.cons_append, List.append_assoc]
    rfl
  -- one unit of fuel is for the member of another name, and its value needs one of its own
  have hmembers : f.readMembers (inner.length + 1) true f.start inner = .ok (s, []) := by
    have hlong : body.length + 1 ≤ inner.length := by
      simp only [inner, List.length_append, List.length_cons]
      omega
    obtain ⟨more, hmore⟩ := Nat.exists_eq_add_of_le hlong
    have hfuel : inner.length = body.length + more + 1 := by omega
    have hkey := f.readMembers_key f.start (body.length + more + 1) (.first blank_nil) name
      (colon_eq blank_nil ('"' :: (textOf octets ++ '"' :: body)))
    have hshort : (f.members a).length < body.length + more + 1 :=
      Nat.lt_succ_of_lt (Nat.lt_of_lt_of_le (hbody.length_lt fun _ _ hm => hm.startsItem)
        (Nat.le_add_right _ _))
    have hrest := hreads.readMembers_eq hbody [] hshort
    rw [List.append_nil] at hrest
    rw [hunknown, skipValue_textOf h] at hkey
    rw [hfuel]
    exact hkey.trans hrest
  have hrecord : f.record ('{' :: inner) = .ok (a, []) := by
    rw [Fields.record, skipSpaces_cons rfl]
    show (f.readMembers (inner.length + 1) true f.start inner >>= _) = _
    rw [hmembers]
    simp only [bind, Except.bind, hfinish]
  rw [Decoder.runOctets, hinner, Decoder.run]
  show (f.record ('{' :: inner) >>= _) = _
  rw [hrecord]
  rfl

/-- The octets of an object with one more member in front, whose string is some octets. -/
def noted (name : String) (octets object : List UInt8) : List UInt8 :=
  encode ('{' :: (quoted name ++ [':', '"'])) ++ (octets ++ (encode ['"', ','] ++ object.drop 1))

theorem length_noted_le (name : String) (octets object : List UInt8) :
    (noted name octets object).length ≤
      4 * ((quoted name).length + 3) + octets.length + 2 + object.length := by
  have hname := length_encode_le ('{' :: (quoted name ++ [':', '"']))
  have hcomma : (encode ['"', ',']).length = 2 := rfl
  simp only [List.length_cons, List.length_append, List.length_nil] at hname
  simp only [noted, List.length_append, List.length_drop, hcomma]
  omega

theorem length_le_noted (name : String) (octets object : List UInt8) :
    object.length ≤ (noted name octets object).length := by
  have hcomma : (encode ['"', ',']).length = 2 := rfl
  simp only [noted, List.length_append, List.length_drop, hcomma]
  omega

/-- One more member of another name changes nothing, whatever octets it holds. -/
theorem Fields.Lawful.runOctets_noted {σ α : Type} {f : Fields σ α} (hf : f.Lawful) (a : α)
    (hsome : f.members a ≠ []) {name : String} (hunknown : f.knows name = false)
    (h : ∀ b ∈ octets, IsPlain b) :
    (Codec.record f).decoder.runOctets
      (noted name octets (encode ((Codec.record f).encode a).compact)) = .ok a := by
  let texts := Value.compactMembers (f.members a)
  have hmembers : List.Forall₂ IsMember (f.members a) texts := forall_compactMembers (f.members a)
  have hne : texts ≠ [] := fun hnil => hsome (List.forall₂_nil_right_iff.1 (hnil ▸ hmembers))
  have hlisted : Listed '}' IsMember false (f.members a)
      (',' :: (Value.separated [','] texts ++ ['}'])) :=
    .of_separated blank_nil blank_nil hmembers (.next blank_nil blank_nil) hne
  have hcut := encode_append ['"', ','] (Value.separated [','] texts ++ ['}'])
  have hread := hf.runOctets_unknown a hunknown h hlisted
  rw [List.cons_append, List.singleton_append] at hcut
  rw [hcut] at hread
  exact hread

end EscapeRoom.Json
