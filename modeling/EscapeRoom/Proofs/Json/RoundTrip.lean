import EscapeRoom.Json.Codec
import EscapeRoom.Proofs.Json.Token

/-!
# Reading back what a codec writes

A codec is lawful when it reads every value back from all texts of what it writes.  The codecs of
simple values are lawful, and those of lists and maps are when their parts are.

* `Json.Codec.Lawful` — the law.
* `Json.Codec.Lawful.list`, `Json.Codec.Lawful.map`, `Json.Codec.Lawful.octetMap` — lists and maps.
* `Json.Codec.Lawful.run_eq`, `Json.Codec.Lawful.run_compact` — reading back whole texts.
* `Json.Codec.Lawful.write_injective`, `Json.Codec.Lawful.rewritten?_eq_self` — what follows for the
  texts.
-/

namespace EscapeRoom.Json

/-! ### What stands behind a bracket -/

theorem continuesNumber_of_isSpace {c : Char} (h : isSpace c = true) :
    continuesNumber c = false := by
  simp only [isSpace, Bool.or_eq_true, beq_iff_eq] at h
  rcases h with ((rfl | rfl) | rfl) | rfl <;> rfl

theorem endsNumber_blank {ws : List Char} (hws : Blank ws) {c : Char}
    (hc : continuesNumber c = false) (cs : List Char) : EndsNumber (ws ++ c :: cs) := by
  cases ws with
  | nil => exact endsNumber_cons hc cs
  | cons w ws => exact endsNumber_cons (continuesNumber_of_isSpace (hws w List.mem_cons_self)) _

/-- A text that begins with neither a space nor a closing bracket. -/
def StartsItem (closing : Char) (text : List Char) : Prop :=
  ∃ c cs, text = c :: cs ∧ isSpace c = false ∧ c ≠ closing

namespace Listed

variable {α : Type} {closing : Char} {P : α → List Char → Prop} {first : Bool} {as : List α}
  {body : List Char}

/-- A number may stand before a comma or the closing bracket. -/
theorem endsNumber (h : Listed closing P false as body) (hclosing : continuesNumber closing = false)
    (rest : List Char) : EndsNumber (body ++ rest) := by
  cases h with
  | nil hws =>
      rw [List.append_assoc]
      exact endsNumber_blank hws hclosing rest
  | cons hlead htext hrest =>
      cases hlead with
      | next hbefore hafter =>
          rw [List.append_assoc, List.append_assoc]
          exact endsNumber_blank hbefore rfl _

/-- Every item takes up room. -/
theorem length_lt (hstarts : ∀ a text, P a text → StartsItem closing text)
    (h : Listed closing P first as body) : as.length < body.length := by
  induction h with
  | nil hws => simp
  | cons hlead htext hrest ih =>
      obtain ⟨c, cs, rfl, -⟩ := hstarts _ _ htext
      simp only [List.length_cons, List.length_append]
      omega

end Listed

theorem IsText.head {v : Value} {text : List Char} (h : IsText v text) :
    ∃ c cs, text = c :: cs ∧ isSpace c = false ∧ c ≠ ']' ∧ c ≠ '}' ∧ (v ≠ .null → c ≠ 'n') := by
  cases h with
  | null => exact ⟨_, _, rfl, rfl, by decide, by decide, fun hnull => absurd rfl hnull⟩
  | yes => exact ⟨_, _, rfl, rfl, by decide, by decide, fun _ => by decide⟩
  | no => exact ⟨_, _, rfl, rfl, by decide, by decide, fun _ => by decide⟩
  | string s => exact ⟨_, _, rfl, rfl, by decide, by decide, fun _ => by decide⟩
  | array h => exact ⟨_, _, rfl, rfl, by decide, by decide, fun _ => by decide⟩
  | object h => exact ⟨_, _, rfl, rfl, by decide, by decide, fun _ => by decide⟩
  | number n =>
      obtain ⟨d, ds, hds, hd, hspace⟩ := digits_eq_cons n
      have hother : ∀ c : Char, ¬ c.isDigit → d ≠ c := by
        rintro c hc rfl
        exact hc hd
      exact ⟨d, ds, hds, hspace, hother _ (by decide), hother _ (by decide),
        fun _ => hother _ (by decide)⟩

theorem IsText.startsItem {v : Value} {text : List Char} (h : IsText v text) :
    StartsItem ']' text := by
  obtain ⟨c, cs, hcs, hspace, hbracket, -⟩ := h.head
  exact ⟨c, cs, hcs, hspace, hbracket⟩

theorem IsMember.startsItem {m : String × Value} {text : List Char} (h : IsMember m text) :
    StartsItem '}' text := by
  cases h with
  | mk => exact ⟨_, _, rfl, rfl, by decide⟩

/-- A member is a key, a colon between spaces, and a value. -/
theorem IsMember.split {key : String} {v : Value} {text : List Char} (h : IsMember (key, v) text)
    (rest : List Char) :
    ∃ afterKey ws value, text ++ rest = quoted key ++ afterKey ∧
      colon afterKey = .ok (ws ++ (value ++ rest)) ∧ Blank ws ∧ IsText v value := by
  cases h with
  | @mk _ _ before after value hbefore hafter hvalue =>
      refine ⟨before ++ ':' :: (after ++ (value ++ rest)), after, value, ?_, colon_eq hbefore _,
        hafter, hvalue⟩
      simp only [List.append_assoc, List.cons_append]

/-! ### Reading items and members -/

variable {α κ : Type}

/-- Items are read one after the other. -/
theorem listItems_eq {d : Decoder α} {P : α → List Char → Prop}
    (hstarts : ∀ a text, P a text → StartsItem ']' text)
    (hread : ∀ a text rest, P a text → EndsNumber rest → d (text ++ rest) = .ok (a, rest))
    {first : Bool} {as : List α} {body : List Char} (h : Listed ']' P first as body)
    (rest : List Char) {fuel : Nat} (hfuel : as.length < fuel) :
    listItems d fuel first (body ++ rest) = .ok (as, rest) := by
  induction h generalizing fuel with
  | nil hws =>
      obtain ⟨fuel, rfl⟩ := Nat.exists_eq_add_one.2 (Nat.zero_lt_of_lt hfuel)
      rw [listItems, List.append_assoc, List.singleton_append, separator_closing rfl _ hws]
      rfl
  | cons hlead htext hrest ih =>
      obtain ⟨fuel, rfl⟩ := Nat.exists_eq_add_one.2 (Nat.zero_lt_of_lt hfuel)
      obtain ⟨c, cs, hcs, hspace, hc⟩ := hstarts _ _ htext
      have hitem := hread _ _ _ htext (hrest.endsNumber rfl rest)
      have hafter := ih (Nat.lt_of_succ_lt_succ hfuel)
      rw [hcs, List.cons_append] at hitem
      rw [listItems, hcs, List.append_assoc, List.append_assoc, List.cons_append,
        separator_item (by decide) hlead hspace hc]
      simp only [bind, Except.bind, Bool.not_true, Bool.false_eq_true, if_false, hitem, hafter]
      rfl

/-- Members are read one after the other. -/
theorem members_eq {key : Decoder κ} {d : Decoder α} {P : κ × α → List Char → Prop}
    (hstarts : ∀ e text, P e text → StartsItem '}' text)
    (hread : ∀ e text rest, P e text → EndsNumber rest → ∃ afterKey afterColon,
      key (text ++ rest) = .ok (e.1, afterKey) ∧ colon afterKey = .ok afterColon ∧
        d afterColon = .ok (e.2, rest))
    {first : Bool} {es : List (κ × α)} {body : List Char} (h : Listed '}' P first es body)
    (rest : List Char) {fuel : Nat} (hfuel : es.length < fuel) :
    members key d fuel first (body ++ rest) = .ok (es, rest) := by
  induction h generalizing fuel with
  | nil hws =>
      obtain ⟨fuel, rfl⟩ := Nat.exists_eq_add_one.2 (Nat.zero_lt_of_lt hfuel)
      rw [members, List.append_assoc, List.singleton_append, separator_closing rfl _ hws]
      rfl
  | cons hlead htext hrest ih =>
      obtain ⟨fuel, rfl⟩ := Nat.exists_eq_add_one.2 (Nat.zero_lt_of_lt hfuel)
      obtain ⟨c, cs, hcs, hspace, hc⟩ := hstarts _ _ htext
      obtain ⟨afterKey, afterColon, hkey, hcolon, hvalue⟩ :=
        hread _ _ _ htext (hrest.endsNumber rfl rest)
      have hafter := ih (Nat.lt_of_succ_lt_succ hfuel)
      rw [hcs, List.cons_append] at hkey
      rw [members, hcs, List.append_assoc, List.append_assoc, List.cons_append,
        separator_item (by decide) hlead hspace hc]
      simp only [bind, Except.bind, Bool.not_true, Bool.false_eq_true, if_false, hkey, hcolon,
        hvalue, hafter]
      rfl

/-! ### Simple values -/

/-- A codec reads every value back, from every text of what it writes. -/
def Codec.Lawful (c : Codec α) : Prop :=
  ∀ (a : α) (ws text rest : List Char), Blank ws → IsText (c.encode a) text → EndsNumber rest →
    c.decoder (ws ++ (text ++ rest)) = .ok (a, rest)

namespace Codec

theorem lawful_string : string.Lawful := by
  intro s ws text rest hws htext _
  cases htext with
  | string => exact string_quoted hws s rest

theorem lawful_bool : bool.Lawful := by
  intro b ws text rest hws htext _
  cases b with
  | true =>
      cases htext with
      | yes =>
          show Json.bool _ = _
          rw [Json.bool, List.cons_append, skipSpaces_append_cons hws rfl]
          rfl
  | false =>
      cases htext with
      | no =>
          show Json.bool _ = _
          rw [Json.bool, List.cons_append, skipSpaces_append_cons hws rfl]
          rfl

theorem lawful_octet : octet.Lawful := by
  intro n ws text rest hws htext hrest
  cases htext with
  | number => exact octet_digits hws n hrest

variable {c : Codec α} {β : Type}

namespace Lawful

/-- A value is read back where no space stands before it. -/
theorem decoder_eq (h : c.Lawful) {a : α} {text rest : List Char} (htext : IsText (c.encode a) text)
    (hrest : EndsNumber rest) : c.decoder (text ++ rest) = .ok (a, rest) :=
  h a [] text rest blank_nil htext hrest

theorem list (h : c.Lawful) : (Codec.list c).Lawful := by
  intro as ws text rest hws htext _
  cases htext with
  | array hitems =>
      have hstarts : ∀ a text, IsText (c.encode a) text → StartsItem ']' text :=
        fun _ _ ha => ha.startsItem
      have hlisted := hitems.of_map
      -- the fuel is the length of the text, and every item takes up room in it
      have hlength := hlisted.length_lt hstarts
      show Json.list c.decoder _ = _
      rw [Json.list, List.cons_append, skipSpaces_append_cons hws rfl]
      refine listItems_eq hstarts (fun a text rest => h.decoder_eq) hlisted rest ?_
      rw [List.length_append]
      omega

/-- The members of an object are read, whatever kind of key they have. -/
theorem entriesWith_eq {κ : Type} (h : c.Lawful) {name : κ → String} {key : Decoder κ}
    (hkey : ∀ k rest, key (quoted (name k) ++ rest) = .ok (k, rest)) {es : List (κ × α)}
    {ws text rest : List Char} (hws : Blank ws)
    (htext : IsText (.object (es.map fun e => (name e.1, c.encode e.2))) text) :
    entriesWith key c.decoder (ws ++ (text ++ rest)) = .ok (es, rest) := by
  cases htext with
  | object hmembers =>
      have hstarts : ∀ (e : κ × α) text, IsMember (name e.1, c.encode e.2) text →
          StartsItem '}' text := fun _ _ he => he.startsItem
      have hlisted := hmembers.of_map
      have hlength := hlisted.length_lt hstarts
      rw [entriesWith, List.cons_append, skipSpaces_append_cons hws rfl]
      refine members_eq hstarts (fun e text rest he hrest => ?_) hlisted rest ?_
      · obtain ⟨afterKey, before, value, hsplit, hcolon, hbefore, hvalue⟩ := he.split rest
        exact ⟨afterKey, _, hsplit ▸ hkey e.1 afterKey, hcolon,
          h e.2 before value rest hbefore hvalue hrest⟩
      · rw [List.length_append]
        omega

theorem map (h : c.Lawful) : (Codec.map c).Lawful := by
  intro m ws text rest hws htext _
  have hentries : entries c.decoder (ws ++ (text ++ rest)) = .ok (m.entries, rest) :=
    h.entriesWith_eq memberKey_quoted hws htext
  simp only [Codec.map, hentries, bind, Except.bind, OrderedMap.ofList_entries]
  rfl

theorem octetMap (h : c.Lawful) : (Codec.octetMap c).Lawful := by
  intro m ws text rest hws htext _
  have hentries : entriesWith octetKey c.decoder (ws ++ (text ++ rest)) = .ok (m.entries, rest) :=
    h.entriesWith_eq octetKey_quoted hws htext
  simp only [Codec.octetMap, hentries, bind, Except.bind, OrderedMap.ofList_entries]
  rfl

theorem iso (h : c.Lawful) {f : α → β} {inverse : β → α} (hf : ∀ b, f (inverse b) = b) :
    (c.iso f inverse).Lawful := by
  intro b ws text rest hws htext hrest
  have hread := h (inverse b) ws text rest hws htext hrest
  simp only [Codec.iso, hread, bind, Except.bind, hf]
  rfl

end Lawful

theorem lawful_stringSet : stringSet.Lawful := by
  intro m ws text rest hws htext hrest
  have hlist : Json.list Json.string (ws ++ (text ++ rest)) = .ok (m.elements, rest) :=
    lawful_string.list m.elements ws text rest hws htext hrest
  simp only [stringSet, hlist, bind, Except.bind, OrderedSet.ofList_elements]
  rfl

namespace Lawful

/-- A text that holds a value and spaces is read as the value. -/
theorem run_eq (h : c.Lawful) {a : α} {text ws : List Char} (htext : IsText (c.encode a) text)
    (hws : Blank ws) : c.decoder.run (text ++ ws) = .ok a := by
  have hrest : EndsNumber ws := by
    intro w hw
    exact continuesNumber_of_isSpace (hws w (List.mem_of_mem_head? hw))
  have hspaces : skipSpaces ws = [] := by
    have hall := skipSpaces_append hws []
    rwa [List.append_nil] at hall
  rw [Decoder.run, h.decoder_eq htext hrest]
  show (if (skipSpaces ws).isEmpty = true then _ else _) = _
  rw [hspaces]
  rfl

/-- **A value is read back from its compact text.** -/
theorem run_compact (h : c.Lawful) (a : α) : c.decoder.run (c.encode a).compact = .ok a := by
  have hread := h.run_eq (isText_compact (c.encode a)) blank_nil
  rwa [List.append_nil] at hread

/-- A value is read back from the text that is written for it. -/
theorem read_write (h : c.Lawful) (a : α) : c.read (c.write a) = .ok a := by
  rw [read, write, String.toList_ofList, h.run_compact]

/-- Different values have different texts. -/
theorem write_injective (h : c.Lawful) : Function.Injective c.write := by
  intro a b hab
  have hread := h.read_write a
  rw [hab, h.read_write b] at hread
  exact (Except.ok.inj hread).symm

end Lawful

/-- The text that is written for what a text is read as. -/
def rewritten? (c : Codec α) (text : String) : Option String := (c.read text).toOption.map c.write

/-- A text that was written again is kept from then on. -/
theorem Lawful.rewritten?_eq_self (h : c.Lawful) {text again : String}
    (hagain : c.rewritten? text = some again) : c.rewritten? again = some again := by
  obtain ⟨a, -, rfl⟩ := Option.map_eq_some_iff.1 hagain
  rw [rewritten?, h.read_write]
  rfl

end Codec

end EscapeRoom.Json
