import EscapeRoom.Json.Decoder
import EscapeRoom.Json.Value
import Mathlib.Data.List.Forall2

/-!
# Texts of a JSON value

A value has many texts, which differ in the spaces between the tokens.  The compact text and the
indented one are two of them, and whatever is shown of all texts holds of both.

* `Json.Listed` — texts in brackets with commas between them.
* `Json.IsText`, `Json.IsMember` — texts of a value and of a member.
* `Json.isText_compact`, `Json.isText_prettyAt` — the two texts that are written.
-/

namespace EscapeRoom.Json

/-- Nothing but characters that may stand between tokens. -/
def Blank (ws : List Char) : Prop := ∀ c ∈ ws, isSpace c = true

@[simp] theorem blank_nil : Blank [] := fun _ h => absurd h List.not_mem_nil

theorem blank_space : Blank [' '] := by
  intro c hc
  rw [List.mem_singleton.1 hc]
  rfl

theorem blank_newLine (depth : Nat) : Blank (Value.newLine depth) := by
  intro c hc
  rcases List.mem_cons.1 hc with rfl | hc
  · rfl
  · rw [List.eq_of_mem_replicate hc]
    rfl

/-- What stands before an item: spaces, and around a comma unless it is the first one. -/
inductive Lead : Bool → List Char → Prop
  | first {ws : List Char} (hws : Blank ws) : Lead true ws
  | next {before after : List Char} (hbefore : Blank before) (hafter : Blank after) :
      Lead false (before ++ ',' :: after)

/-- What follows an opening bracket, or an item when `first` is unset: items with a text each, and
the closing bracket. -/
inductive Listed {α : Type} (closing : Char) (P : α → List Char → Prop) :
    Bool → List α → List Char → Prop
  | nil {first : Bool} {ws : List Char} (hws : Blank ws) :
      Listed closing P first [] (ws ++ [closing])
  | cons {first : Bool} {lead text rest : List Char} {a : α} {as : List α} (hlead : Lead first lead)
      (htext : P a text) (hrest : Listed closing P false as rest) :
      Listed closing P first (a :: as) (lead ++ (text ++ rest))

mutual

/-- A text of a value. -/
inductive IsText : Value → List Char → Prop
  | null : IsText .null ['n', 'u', 'l', 'l']
  | yes : IsText (.bool true) ['t', 'r', 'u', 'e']
  | no : IsText (.bool false) ['f', 'a', 'l', 's', 'e']
  | number (n : Nat) : IsText (.number n) (digits n)
  | string (s : String) : IsText (.string s) (quoted s)
  | array {items : List Value} {body : List Char} (h : Listed ']' IsText true items body) :
      IsText (.array items) ('[' :: body)
  | object {members : List (String × Value)} {body : List Char}
      (h : Listed '}' IsMember true members body) : IsText (.object members) ('{' :: body)

/-- A text of a member. -/
inductive IsMember : String × Value → List Char → Prop
  | mk {key : String} {v : Value} {before after text : List Char} (hbefore : Blank before)
      (hafter : Blank after) (htext : IsText v text) :
      IsMember (key, v) (quoted key ++ (before ++ ':' :: (after ++ text)))

end

/-! ### Texts that are written -/

namespace Listed

variable {α β : Type} {closing : Char} {P : α → List Char → Prop}

/-- Texts with a separator between them. -/
theorem of_separated {gap tail : List Char} (hgap : Blank gap) (htail : Blank tail) {as : List α}
    {texts : List (List Char)} (h : List.Forall₂ P as texts) {first : Bool} {lead : List Char}
    (hlead : Lead first lead) (hne : texts ≠ []) :
    Listed closing P first as
      (lead ++ (Value.separated (',' :: gap) texts ++ (tail ++ [closing]))) := by
  induction h generalizing first lead with
  | nil => exact absurd rfl hne
  | cons htext hrest ih =>
      cases hrest with
      | nil => exact .cons hlead htext (.nil htail)
      | cons hnext hrest =>
          have hafter := ih (.next blank_nil hgap) (List.cons_ne_nil _ _)
          rw [Value.separated]
          simp only [List.append_assoc]
          exact .cons hlead htext hafter
          exact List.cons_ne_nil _ _

theorem of_map {f : β → α} {bs : List β} {first : Bool} {body : List Char}
    (h : Listed closing P first (bs.map f) body) :
    Listed closing (fun b => P (f b)) first bs body := by
  induction bs generalizing first body with
  | nil =>
      cases h with
      | nil hws => exact .nil hws
  | cons b bs ih =>
      cases h with
      | cons hlead htext hrest => exact .cons hlead htext (ih hrest)

end Listed

theorem listed_compact {α : Type} {closing : Char} {P : α → List Char → Prop} {as : List α}
    {texts : List (List Char)} (h : List.Forall₂ P as texts) :
    Listed closing P true as (Value.separated [','] texts ++ [closing]) := by
  cases h with
  | nil => exact .nil blank_nil
  | cons htext hrest =>
      exact .of_separated blank_nil blank_nil (.cons htext hrest) (.first blank_nil)
        (List.cons_ne_nil _ _)

theorem listed_bracketed {α : Type} (opening closing : Char) (depth : Nat)
    {P : α → List Char → Prop} {as : List α} {texts : List (List Char)}
    (h : List.Forall₂ P as texts) :
    ∃ body, Value.bracketed opening closing depth texts = opening :: body ∧
      Listed closing P true as body := by
  cases h with
  | nil => exact ⟨[closing], rfl, .nil blank_nil⟩
  | cons htext hrest =>
      refine ⟨_, ?_, .of_separated (blank_newLine (depth + 1)) (blank_newLine depth)
        (.cons htext hrest) (.first (blank_newLine (depth + 1))) (List.cons_ne_nil _ _)⟩
      simp only [Value.bracketed, List.isEmpty_cons, Bool.false_eq_true, if_false,
        List.cons_append, List.append_assoc]

mutual

theorem isText_compact : ∀ v : Value, IsText v v.compact
  | .null => .null
  | .bool true => .yes
  | .bool false => .no
  | .number n => .number n
  | .string s => .string s
  | .array items => .array (listed_compact (forall_compactItems items))
  | .object members => .object (listed_compact (forall_compactMembers members))

theorem forall_compactItems : ∀ vs : List Value,
    List.Forall₂ IsText vs (Value.compactItems vs)
  | [] => .nil
  | v :: vs => .cons (isText_compact v) (forall_compactItems vs)

theorem forall_compactMembers : ∀ ms : List (String × Value),
    List.Forall₂ IsMember ms (Value.compactMembers ms)
  | [] => .nil
  | (_, v) :: rest =>
      .cons (.mk blank_nil blank_nil (isText_compact v)) (forall_compactMembers rest)

end

mutual

theorem isText_prettyAt (depth : Nat) : ∀ v : Value, IsText v (v.prettyAt depth)
  | .null => .null
  | .bool true => .yes
  | .bool false => .no
  | .number n => .number n
  | .string s => .string s
  | .array items => by
      obtain ⟨body, htext, hlisted⟩ := listed_bracketed '[' ']' depth
        (forall_prettyItems (depth + 1) items)
      rw [Value.prettyAt, htext]
      exact .array hlisted
  | .object members => by
      obtain ⟨body, htext, hlisted⟩ := listed_bracketed '{' '}' depth
        (forall_prettyMembers (depth + 1) members)
      rw [Value.prettyAt, htext]
      exact .object hlisted

theorem forall_prettyItems (depth : Nat) : ∀ vs : List Value,
    List.Forall₂ IsText vs (Value.prettyItems depth vs)
  | [] => .nil
  | v :: vs => .cons (isText_prettyAt depth v) (forall_prettyItems depth vs)

theorem forall_prettyMembers (depth : Nat) : ∀ ms : List (String × Value),
    List.Forall₂ IsMember ms (Value.prettyMembers depth ms)
  | [] => .nil
  | (_, v) :: rest =>
      .cons (.mk blank_nil blank_space (isText_prettyAt depth v)) (forall_prettyMembers depth rest)

end

end EscapeRoom.Json
