import EscapeRoom.Proofs.Yaml.Build
import Mathlib.Logic.Relation

/-!
# What a lexeme does to the tokens

Tokens are added at the end, except that a key may be put in front of a scalar that was read before:
where that may still happen is remembered, each place by the number of tokens in front of it.  The
tokens with these places are a ledger, and a lexeme changes it by a few moves only.

* `Ledger`, `Ledger.Move` — tokens with the places of possible keys, and how they change.
* `Lexer.Leads` — the moves between two states of the walk.
* `Lexer.leads_lexeme`, `Lexer.leads_next` — a lexeme, whatever it is, makes moves only.
-/

namespace EscapeRoom.Yaml

/-! ### Ledgers -/

/-- The tokens of a walk in their order, and how many of them stand in front of each place where a
key may still be put, the innermost level first. -/
structure Ledger where
  tokens : List Token
  places : List Nat

namespace Ledger

/-- Tokens with one more behind the first `n`. -/
def insert (n : Nat) (t : Token) (tokens : List Token) : List Token :=
  tokens.take n ++ t :: tokens.drop n

/-- What may happen to tokens and places. -/
inductive Move : Ledger → Ledger → Prop
  /-- A token is added. -/
  | push {tokens : List Token} {places : List Nat} (t : Token) :
      Move ⟨tokens, places⟩ ⟨tokens ++ [t], places⟩
  /-- Places are given up. -/
  | forget {tokens : List Token} {places fewer : List Nat} (h : fewer.Sublist places) :
      Move ⟨tokens, places⟩ ⟨tokens, fewer⟩
  /-- A token is added in front of which a key may be put. -/
  | mark {tokens : List Token} {places : List Nat} (t : Token) :
      Move ⟨tokens, places⟩ ⟨tokens ++ [t], tokens.length :: places⟩
  /-- A key is put at the innermost place. -/
  | key {tokens : List Token} {n : Nat} {places : List Nat} :
      Move ⟨tokens, n :: places⟩ ⟨insert n .key tokens, places⟩
  /-- The same, and a mapping begins with that key. -/
  | firstKey {tokens : List Token} {n : Nat} {places : List Nat} :
      Move ⟨tokens, n :: places⟩ ⟨insert n .blockMappingStart (insert n .key tokens), places⟩

/-- Any number of moves. -/
abbrev Moves : Ledger → Ledger → Prop := Relation.ReflTransGen Move

theorem moves_replicate (tokens : List Token) (places : List Nat) (t : Token) (n : Nat) :
    Moves ⟨tokens, places⟩ ⟨tokens ++ List.replicate n t, places⟩ := by
  induction n with
  | zero => rw [List.replicate_zero, List.append_nil]
  | succ n ih =>
      rw [List.replicate_succ', ← List.append_assoc]
      exact ih.tail (.push t)

end Ledger

/-- How many tokens stand in front of the places where a key may still be put. -/
def KeyPlace.numbers (keys : List (Option KeyPlace)) : List Nat :=
  keys.filterMap fun key => key.map KeyPlace.number

theorem KeyPlace.numbers_tail (keys : List (Option KeyPlace)) :
    (numbers keys.tail).Sublist (numbers keys) := keys.tail_sublist.filterMap _

theorem KeyPlace.numbers_filter (p : KeyPlace → Bool) (keys : List (Option KeyPlace)) :
    (numbers (keys.map fun key => key.filter p)).Sublist (numbers keys) := by
  induction keys with
  | nil => exact List.Sublist.refl _
  | cons key keys ih =>
      cases key with
      | none => exact ih
      | some k =>
          rw [List.map_cons, Option.filter_some]
          split
          · exact ih.cons_cons _
          · exact ih.cons _

namespace Lexer

/-- The tokens and places of a state of the walk. -/
def ledger (l : Lexer) : Ledger := ⟨l.back.reverse, KeyPlace.numbers l.keys⟩

/-- Whether the tokens are counted right. -/
def IsCounted (l : Lexer) : Prop := l.count = l.back.length

/-- A state comes from another one by moves. -/
structure Leads (l l' : Lexer) : Prop where
  counted : l.IsCounted → l'.IsCounted
  moves : l.IsCounted → Ledger.Moves l.ledger l'.ledger

namespace Leads

variable {l l' l'' : Lexer}

theorem trans (h : l.Leads l') (h' : l'.Leads l'') : l.Leads l'' where
  counted hl := h'.counted (h.counted hl)
  moves hl := (h.moves hl).trans (h'.moves (h.counted hl))

theorem of_forget (hback : l'.back = l.back) (hcount : l'.count = l.count)
    (hkeys : (KeyPlace.numbers l'.keys).Sublist (KeyPlace.numbers l.keys)) : l.Leads l' where
  counted hl := by rw [IsCounted, hcount, hback, hl]
  moves _ := by
    rw [ledger, ledger, hback]
    exact .single (.forget hkeys)

/-- Tokens and places stayed as they were. -/
theorem of_same (hback : l'.back = l.back) (hcount : l'.count = l.count)
    (hkeys : KeyPlace.numbers l'.keys = KeyPlace.numbers l.keys) : l.Leads l' :=
  of_forget hback hcount (hkeys ▸ List.Sublist.refl _)

theorem refl (l : Lexer) : l.Leads l := of_same rfl rfl rfl

theorem push (l : Lexer) (t : Token) : l.Leads (l.push t) where
  counted hl := by rw [IsCounted, Lexer.push, List.length_cons, hl]
  moves _ := by
    rw [ledger, ledger, Lexer.push, List.reverse_cons]
    exact .single (.push t)

end Leads

/-! ### Tokens in front of others -/

theorem insertAt_eq (t : Token) (n : Nat) (tokens : List Token) :
    insertAt t n tokens = tokens.take n ++ t :: tokens.drop n := by
  induction tokens generalizing n with
  | nil => cases n <;> simp [insertAt]
  | cons u tokens ih =>
      cases n with
      | zero => rfl
      | succ n => rw [insertAt, ih, List.take_succ_cons, List.drop_succ_cons, List.cons_append]

section
variable {l : Lexer} (h : l.IsCounted) (n : Nat) (t : Token)
include h

theorem isCounted_insert : (l.insert n t).IsCounted := by
  show l.count + 1 = (insertAt t (l.count - n) l.back).length
  rw [insertAt_eq, List.length_append, List.length_cons, List.length_take, List.length_drop, h]
  omega

theorem back_insert : (l.insert n t).back.reverse = Ledger.insert n t l.back.reverse := by
  show (insertAt t (l.count - n) l.back).reverse = _
  rw [insertAt_eq, h, Ledger.insert, List.take_reverse, List.drop_reverse, List.reverse_append,
    List.reverse_cons, List.append_assoc, List.singleton_append]

end

/-! ### The parts of a lexeme -/

/-- Past a byte order mark, the spaces and the comment at the cursor. -/
def pastGap (l : Lexer) : Cursor :=
  let c := l.cursor
  let c := if c.column == 0 && c.at? '\ufeff' then c.skip 1 else c
  let c := c.skipSpan fun d => d == ' ' || ((l.inFlow || !l.keyAllowed) && d == '\t')
  if c.at? '#' then c.skipSpan (fun d => !isBreak d) else c

theorem skipToToken_succ (fuel : Nat) (l : Lexer) :
    skipToToken (fuel + 1) l =
      if l.pastGap.atBreak then
        skipToToken fuel
          { l with cursor := l.pastGap.skipLine, keyAllowed := l.keyAllowed || !l.inFlow }
      else { l with cursor := l.pastGap } := rfl

theorem skipToToken_eq (fuel : Nat) (l : Lexer) :
    ∃ cursor keyAllowed, skipToToken fuel l = { l with cursor, keyAllowed } := by
  induction fuel generalizing l with
  | zero => exact ⟨l.cursor, l.keyAllowed, rfl⟩
  | succ fuel ih =>
      rw [skipToToken_succ]
      split
      · obtain ⟨cursor, keyAllowed, heq⟩ := ih
          { l with cursor := l.pastGap.skipLine, keyAllowed := l.keyAllowed || !l.inFlow }
        exact ⟨cursor, keyAllowed, heq⟩
      · exact ⟨l.pastGap, l.keyAllowed, rfl⟩

theorem leads_skipToToken (fuel : Nat) (l : Lexer) : l.Leads (skipToToken fuel l) := by
  obtain ⟨cursor, keyAllowed, heq⟩ := skipToToken_eq fuel l
  rw [heq]
  exact .of_same rfl rfl rfl

theorem leads_dropStale (l : Lexer) : Yields l.Leads l.dropStale := by
  unfold dropStale
  split
  · exact yields_error
  · exact yields_ok (.of_forget rfl rfl (KeyPlace.numbers_filter _ _))

/-- Giving up the possible key of the innermost level changes nothing else. -/
theorem dropKey_eq (l : Lexer) :
    Yields (fun l' => ∃ keys, l' = { l with keys } ∧
      (KeyPlace.numbers keys).Sublist (KeyPlace.numbers l.keys)) l.dropKey := by
  unfold dropKey
  split
  · rename_i k rest hkeys
    split
    · exact yields_error
    · refine yields_ok ⟨none :: rest, rfl, ?_⟩
      rw [hkeys]
      exact List.sublist_cons_self _ _
  · exact yields_ok ⟨l.keys, rfl, List.Sublist.refl _⟩

theorem leads_dropKey (l : Lexer) : Yields l.Leads l.dropKey := by
  refine (dropKey_eq l).mono ?_
  rintro _ ⟨keys, rfl, hkeys⟩
  exact .of_forget rfl rfl hkeys

/-- After a place was remembered, the next token is one in front of which a key may be put. -/
theorem leads_saveKey (l : Lexer) : Yields (fun l' => ∀ t, l.Leads (l'.push t)) l.saveKey := by
  unfold saveKey
  split
  · exact yields_ok fun t => .push l t
  · refine (dropKey_eq l).bind ?_
    rintro _ ⟨keys, rfl, hkeys⟩
    refine yields_ok fun t => ⟨fun hl => ?_, fun hl => ?_⟩
    · show l.count + 1 = (t :: l.back).length
      rw [List.length_cons, hl]
    · have hfewer : (KeyPlace.numbers keys.tail).Sublist (KeyPlace.numbers l.keys) :=
        (KeyPlace.numbers_tail keys).trans hkeys
      have hplace : l.count = l.back.reverse.length := by rw [List.length_reverse, hl]
      show Ledger.Moves l.ledger ⟨(t :: l.back).reverse, l.count :: KeyPlace.numbers keys.tail⟩
      rw [List.reverse_cons, hplace]
      exact .tail (.single (.forget hfewer)) (.mark t)

theorem leads_roll (l : Lexer) (column : Nat) (t : Token) : l.Leads (l.roll column none t) := by
  unfold roll
  split
  · exact .refl l
  · exact (Leads.push l t).trans (.of_same rfl rfl rfl)

theorem closeBlocks_eq (column : Int) (outer : List Int) (indent : Int) (back : List Token)
    (count : Nat) :
    ∃ outer' indent' n, closeBlocks column outer indent back count =
      (outer', indent', List.replicate n .blockEnd ++ back, count + n) := by
  induction outer generalizing indent back count with
  | nil => exact ⟨[], indent, 0, rfl⟩
  | cons o outer ih =>
      rw [closeBlocks]
      split
      · obtain ⟨outer', indent', n, heq⟩ := ih o (.blockEnd :: back) (count + 1)
        refine ⟨outer', indent', n + 1, ?_⟩
        rw [heq, List.replicate_succ', List.append_assoc, Nat.add_assoc, Nat.add_comm 1 n]
        rfl
      · exact ⟨o :: outer, indent, 0, rfl⟩

theorem leads_unroll (l : Lexer) (column : Int) : l.Leads (l.unroll column) := by
  unfold unroll
  split
  · exact .refl l
  · obtain ⟨outer, indent, n, heq⟩ := closeBlocks_eq column l.outer l.indent l.back l.count
    rw [heq]
    constructor
    · intro hl
      show l.count + n = (List.replicate n Token.blockEnd ++ l.back).length
      rw [List.length_append, List.length_replicate, hl, Nat.add_comm]
    · intro _
      show Ledger.Moves l.ledger ⟨(List.replicate n Token.blockEnd ++ l.back).reverse, _⟩
      rw [List.reverse_append, List.reverse_replicate]
      exact Ledger.moves_replicate _ _ _ n

theorem leads_insertKey {l : Lexer} {k : KeyPlace} {rest : List (Option KeyPlace)}
    (hkeys : l.keys = some k :: rest) :
    l.Leads { (l.insert k.number .key).roll k.column (some k.number) .blockMappingStart with
      keys := none :: rest } := by
  have hplaces : l.ledger = ⟨l.back.reverse, k.number :: KeyPlace.numbers rest⟩ := by
    rw [ledger, hkeys]
    rfl
  unfold roll
  split
  · constructor
    · intro hl
      exact isCounted_insert hl _ _
    · intro hl
      show Ledger.Moves l.ledger ⟨(l.insert k.number .key).back.reverse, KeyPlace.numbers rest⟩
      rw [hplaces, back_insert hl]
      exact .single .key
  · constructor
    · intro hl
      exact isCounted_insert (isCounted_insert hl _ _) _ _
    · intro hl
      have hback := back_insert (isCounted_insert hl k.number .key) k.number .blockMappingStart
      show Ledger.Moves l.ledger
        ⟨((l.insert k.number .key).insert k.number .blockMappingStart).back.reverse,
          KeyPlace.numbers rest⟩
      rw [hplaces, hback, back_insert hl]
      exact .single .firstKey

/-! ### Lexemes -/

theorem leads_endOfText (l : Lexer) : Yields l.Leads l.endOfText := by
  refine (leads_dropKey _).bind fun l₁ h₁ => yields_ok ?_
  exact (((leads_unroll l _).trans h₁).trans (.push l₁ _)).trans (.of_same rfl rfl rfl)

theorem leads_directive (l : Lexer) : Yields l.Leads l.directive := by
  refine (leads_dropKey _).bind fun l₁ h₁ => (yields_anything _).bind fun r _ => yields_ok ?_
  exact (((leads_unroll l _).trans h₁).trans (.push l₁ _)).trans (.of_same rfl rfl rfl)

theorem leads_documentMarker (l : Lexer) (t : Token) : Yields l.Leads (l.documentMarker t) := by
  refine (leads_dropKey _).bind fun l₁ h₁ => yields_ok ?_
  exact (((leads_unroll l _).trans h₁).trans (.push l₁ _)).trans (.of_same rfl rfl rfl)

theorem leads_openFlow (l : Lexer) (t : Token) : Yields l.Leads (l.openFlow t) :=
  (leads_saveKey l).bind fun _ h₁ => yields_ok ((h₁ t).trans (.of_same rfl rfl rfl))

theorem leads_closeFlow (l : Lexer) (t : Token) : Yields l.Leads (l.closeFlow t) := by
  refine (leads_dropKey l).bind fun l₁ h₁ => yields_ok ?_
  refine (h₁.trans (.push l₁ t)).trans (.of_forget rfl rfl ?_)
  show (KeyPlace.numbers (if l₁.inFlow then l₁.keys.tail else l₁.keys)).Sublist
    (KeyPlace.numbers l₁.keys)
  split
  · exact KeyPlace.numbers_tail _
  · exact List.Sublist.refl _

theorem leads_flowEntry (l : Lexer) : Yields l.Leads l.flowEntry :=
  (leads_dropKey l).bind fun l₁ h₁ =>
    yields_ok ((h₁.trans (.push l₁ _)).trans (.of_same rfl rfl rfl))

theorem leads_blockEntry (l : Lexer) : Yields l.Leads l.blockEntry := by
  unfold blockEntry
  split
  · exact yields_error
  · refine (leads_dropKey _).bind fun l₁ h₁ => yields_ok ?_
    exact (((leads_roll l _ _).trans h₁).trans (.push l₁ _)).trans (.of_same rfl rfl rfl)

theorem leads_explicitKey (l : Lexer) : Yields l.Leads l.explicitKey := by
  unfold explicitKey
  split
  · exact yields_error
  · refine (leads_dropKey _).bind fun l₁ h₁ => yields_ok ?_
    exact (((leads_roll l _ _).trans h₁).trans (.push l₁ _)).trans (.of_same rfl rfl rfl)

theorem leads_value (l : Lexer) : Yields l.Leads l.value := by
  unfold value
  split
  · rename_i k rest hkeys
    refine yields_ok ?_
    exact ((leads_insertKey hkeys).trans (.push _ _)).trans (.of_same rfl rfl rfl)
  · split
    · exact yields_error
    · refine yields_ok ?_
      exact ((leads_roll l _ _).trans (.push _ _)).trans (.of_same rfl rfl rfl)

theorem leads_name (l : Lexer) (token : List Char → Token) : Yields l.Leads (l.name token) := by
  refine (leads_saveKey l).bind fun _ h₁ => (yields_anything _).bind fun r _ => yields_ok ?_
  exact (h₁ _).trans (.of_same rfl rfl rfl)

theorem leads_tag (l : Lexer) : Yields l.Leads l.tag := by
  refine (leads_saveKey l).bind fun _ h₁ => (yields_anything _).bind fun r _ => yields_ok ?_
  exact (h₁ _).trans (.of_same rfl rfl rfl)

theorem leads_block (l : Lexer) (fuel : Nat) (literal : Bool) :
    Yields l.Leads (l.block fuel literal) := by
  refine (leads_dropKey l).bind fun l₁ h₁ => (yields_anything _).bind fun r _ => yields_ok ?_
  exact (h₁.trans (.push l₁ _)).trans (.of_same rfl rfl rfl)

theorem leads_quoted (l : Lexer) (fuel : Nat) (single : Bool) :
    Yields l.Leads (l.quoted fuel single) := by
  refine (leads_saveKey l).bind fun _ h₁ => (yields_anything _).bind fun r _ => yields_ok ?_
  exact (h₁ _).trans (.of_same rfl rfl rfl)

theorem leads_plain (l : Lexer) (fuel : Nat) : Yields l.Leads (l.plain fuel) := by
  refine (leads_saveKey l).bind fun _ h₁ => (yields_anything _).bind fun r _ => yields_ok ?_
  exact (h₁ _).trans (.of_same rfl rfl rfl)

/-- **A lexeme makes moves only.** -/
theorem leads_lexeme (l : Lexer) (fuel : Nat) : Yields l.Leads (l.lexeme fuel) := by
  unfold lexeme
  dsimp only
  split
  · exact leads_endOfText l
  · -- one case for each way in which a lexeme may begin, in the order of the definition
    refine (leads_directive l).ite ?_
    refine (leads_documentMarker l _).ite ?_
    refine (leads_openFlow l _).ite ((leads_openFlow l _).ite ?_)
    refine (leads_closeFlow l _).ite ((leads_closeFlow l _).ite ?_)
    refine (leads_flowEntry l).ite ((leads_blockEntry l).ite ?_)
    refine (leads_explicitKey l).ite ((leads_value l).ite ?_)
    refine (leads_name l _).ite ((leads_name l _).ite ((leads_tag l).ite ?_))
    refine (leads_block l fuel _).ite ((leads_block l fuel _).ite ?_)
    refine (leads_quoted l fuel _).ite ((leads_quoted l fuel _).ite ?_)
    exact (leads_plain l fuel).ite yields_error

/-- The next lexeme makes moves only, and then the tokens are settled that stand in front of all
places where a key may be put. -/
theorem leads_next (l : Lexer) (fuel : Nat) :
    Yields (fun l' => l.Leads l' ∧ l'.settled = l'.final) (next fuel l) := by
  refine (leads_dropStale _).bind fun l₁ h₁ => ?_
  refine (leads_lexeme _ fuel).bind fun l₂ h₂ => ?_
  refine (leads_dropStale l₂).bind fun l₃ h₃ => yields_ok ⟨?_, rfl⟩
  have hskip := leads_skipToToken (fuel + 1) l
  exact ((((hskip.trans h₁).trans (leads_unroll l₁ _)).trans h₂).trans h₃).trans
    (.of_same rfl rfl rfl)

end Lexer

end EscapeRoom.Yaml
