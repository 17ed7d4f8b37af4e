import EscapeRoom.Proofs.Yaml.Ledger
import EscapeRoom.Text.Blank

/-!
# The first tokens of a document

Whether a document is empty shows in its first tokens behind the `---`, if there is one: a scalar
there, or a key, or the begin of a collection.  The lexer puts tokens in front of such a first token
in one way only, when a scalar turns out to be a key, and then the document is a mapping with an
entry.

* `IsFront`, `Ledger.Shows` — first tokens that make a document more than an empty one.
* `Ledger.Shows.moves` — they remain first tokens of that kind.
* `Lexer.shown_run` — whatever is read behind them.
-/

namespace EscapeRoom.Yaml

/-- A text that begins with a hyphen or a blank. -/
def IsStray (text : List Char) : Prop :=
  ∃ c rest, text = c :: rest ∧ (c = '-' ∨ Text.isBlank c = true)

/-- First tokens of a document, behind some tokens, that make it more than an empty one. -/
inductive IsFront (before : List Token) : List Token → Prop
  | scalar {text : List Char} (h : IsStray text) : IsFront before [.scalar text true]
  | key : IsFront before [.key]
  | mapping {text : List Char} (h : IsStray text) :
      IsFront before [.blockMappingStart, .key, .scalar text true]
  | sequence : IsFront before [.blockSequenceStart]
  /-- Another document. -/
  | document (h : before = [.documentStart]) : IsFront before [.documentStart]

/-! ### The tokens of a walk -/

namespace Ledger

/-- A prefix of some tokens stays one when a token is inserted behind it. -/
theorem prefix_insert {front tokens : List Token} (h : front <+: tokens) {n : Nat}
    (hn : front.length ≤ n) (t : Token) : front <+: insert n t tokens :=
  (List.prefix_take_iff.2 ⟨h, hn⟩).trans (List.prefix_append _ _)

theorem length_insert (n : Nat) (t : Token) (tokens : List Token) :
    (insert n t tokens).length = tokens.length + 1 := by
  rw [insert, List.length_append, List.length_cons, List.length_take, List.length_drop]
  omega

theorem insert_append (before : List Token) (t : Token) (tokens : List Token) :
    insert before.length t (before ++ tokens) = before ++ t :: tokens := by
  rw [insert, List.take_left, List.drop_left]

/-- Whether the tokens behind some others begin with a scalar that may still become a key, and every
other place for a key lies behind it. -/
structure Awaits (before : List Token) (text : List Char) (g : Ledger) : Prop where
  tokens : before ++ [.scalar text true] <+: g.tokens
  places : ∀ n ∈ g.places, before.length ≤ n
  sorted : (g.tokens.length :: g.places).Pairwise (· > ·)

/-- Whether the first tokens behind some others make the document more than an empty one. -/
inductive Shows (before : List Token) (g : Ledger) : Prop
  | fixed {front : List Token} (hfront : IsFront before front)
      (htokens : before ++ front <+: g.tokens)
      (hplaces : ∀ n ∈ g.places, (before ++ front).length ≤ n)
  | scalar {text : List Char} (htext : IsStray text) (h : Awaits before text g)

variable {before : List Token} {g g' : Ledger}

section
variable {text : List Char} {tokens : List Token} {n : Nat} {places : List Nat}

/-- The innermost place is the one in front of the scalar, and then the only one, or it lies behind
the scalar. -/
theorem Awaits.innermost (h : Awaits before text ⟨tokens, n :: places⟩) :
    (n = before.length ∧ places = []) ∨ (before ++ [Token.scalar text true]).length ≤ n := by
  obtain ⟨hn, hothers⟩ := List.forall_mem_cons.1 h.places
  rcases Nat.eq_or_lt_of_le hn with heq | hlt
  · refine .inl ⟨heq.symm, List.eq_nil_iff_forall_not_mem.2 fun m hm => ?_⟩
    have hbelow : n > m := (List.pairwise_cons.1 (List.pairwise_cons.1 h.sorted).2).1 m hm
    have habove : before.length ≤ m := hothers m hm
    omega
  · rw [List.length_append, List.length_singleton]
    exact .inr hlt

/-- More tokens behind the scalar and fewer places make no difference. -/
theorem Awaits.grow (h : Awaits before text ⟨tokens, places⟩) {other : List Token}
    {fewer : List Nat} (hother : before ++ [.scalar text true] <+: other)
    (hlength : tokens.length ≤ other.length) (hfewer : fewer.Sublist places) :
    Awaits before text ⟨other, fewer⟩ := by
  obtain ⟨hbound, hpairs⟩ := List.pairwise_cons.1 h.sorted
  refine ⟨hother, fun n hn => h.places n (hfewer.subset hn), List.pairwise_cons.2 ⟨?_, ?_⟩⟩
  · intro n hn
    exact Nat.lt_of_lt_of_le (hbound n (hfewer.subset hn)) hlength
  · exact hpairs.sublist hfewer

/-- A key that is put somewhere is put in front of the scalar or behind it. -/
theorem Awaits.insert (htext : IsStray text) (h : Awaits before text ⟨tokens, n :: places⟩) :
    Shows before ⟨Ledger.insert n .key tokens, places⟩ ∧
      Shows before ⟨Ledger.insert n .blockMappingStart (Ledger.insert n .key tokens), places⟩ := by
  rcases h.innermost with ⟨rfl, rfl⟩ | hn
  · obtain ⟨more, hmore⟩ := h.tokens
    simp only [List.append_assoc, List.singleton_append] at hmore
    rw [← hmore, insert_append, insert_append]
    constructor
    · refine .fixed .key ⟨.scalar text true :: more, ?_⟩ nofun
      rw [List.append_assoc, List.singleton_append]
    · refine .fixed (.mapping htext) ⟨more, ?_⟩ nofun
      rw [List.append_assoc]
      rfl
  · have hkey := prefix_insert h.tokens hn .key
    have hmapping := prefix_insert hkey hn .blockMappingStart
    have hlength := length_insert n .key tokens
    constructor
    · refine .scalar htext (h.grow hkey ?_ (List.sublist_cons_self n places))
      omega
    · refine .scalar htext (h.grow hmapping ?_ (List.sublist_cons_self n places))
      rw [length_insert]
      omega

end

/-- **A move does not put anything else in front.** -/
theorem Shows.move (h : Shows before g) (hmove : Move g g') : Shows before g' := by
  cases h with
  | fixed hfront htokens hplaces =>
      cases hmove with
      | push t => exact .fixed hfront (htokens.trans (List.prefix_append _ _)) hplaces
      | forget hfewer => exact .fixed hfront htokens fun n hn => hplaces n (hfewer.subset hn)
      | mark t =>
          refine .fixed hfront (htokens.trans (List.prefix_append _ _)) ?_
          exact List.forall_mem_cons.2 ⟨htokens.length_le, hplaces⟩
      | key =>
          obtain ⟨hn, hplaces⟩ := List.forall_mem_cons.1 hplaces
          exact .fixed hfront (prefix_insert htokens hn _) hplaces
      | firstKey =>
          obtain ⟨hn, hplaces⟩ := List.forall_mem_cons.1 hplaces
          exact .fixed hfront (prefix_insert (prefix_insert htokens hn _) hn _) hplaces
  | scalar htext h =>
      cases hmove with
      | push t =>
          refine .scalar htext (h.grow (h.tokens.trans (List.prefix_append _ _)) ?_ (.refl _))
          rw [List.length_append]
          exact Nat.le_add_right _ _
      | forget hfewer => exact .scalar htext (h.grow h.tokens (Nat.le_refl _) hfewer)
      | mark t =>
          have hmore := h.tokens.trans (List.prefix_append _ [t])
          have hfront : before.length ≤ _ :=
            Nat.le_trans (List.prefix_append _ _).length_le h.tokens.length_le
          refine .scalar htext ⟨hmore, List.forall_mem_cons.2 ⟨hfront, h.places⟩, ?_⟩
          have hsorted := h.sorted
          rw [List.length_append]
          refine List.pairwise_cons.2 ⟨List.forall_mem_cons.2 ⟨Nat.lt_succ_self _, ?_⟩, hsorted⟩
          exact fun n hn => Nat.lt_succ_of_lt ((List.pairwise_cons.1 hsorted).1 n hn)
      | key => exact (h.insert htext).1
      | firstKey => exact (h.insert htext).2

theorem Shows.moves (h : Shows before g) (hmoves : Moves g g') : Shows before g' := by
  induction hmoves with
  | refl => exact h
  | tail _ hmove ih => exact ih.move hmove

end Ledger

/-! ### The tokens of a run -/

/-- What a run gives: first tokens that make the document more than an empty one, or a fault right
behind some tokens. -/
inductive Shown (before : List Token) (r : List Token × Option Fault) : Prop
  | front {front : List Token} (hfront : IsFront before front) (h : before ++ front <+: r.1)
  | fault (h : r.1 <+: before) (hfault : r.2.isSome = true)

theorem Ledger.Shows.shown {before : List Token} {g : Ledger} (h : g.Shows before)
    (fault : Option Fault) : Shown before (g.tokens, fault) := by
  cases h with
  | fixed hfront htokens _ => exact .front hfront htokens
  | scalar htext h => exact .front (.scalar htext) h.tokens

namespace Lexer

variable {before : List Token} {l : Lexer}

theorem le_foldl_min {m : Nat} {keys : List (Option KeyPlace)} {count : Nat} (hcount : m ≤ count)
    (hkeys : ∀ n ∈ KeyPlace.numbers keys, m ≤ n) :
    m ≤ keys.foldl (fun n key => key.elim n fun k => min n k.number) count := by
  induction keys generalizing count with
  | nil => exact hcount
  | cons key keys ih =>
      cases key with
      | none => exact ih hcount hkeys
      | some k =>
          obtain ⟨hk, hkeys⟩ := List.forall_mem_cons.1 hkeys
          exact ih (Nat.le_min.2 ⟨hcount, hk⟩) hkeys

/-- As many tokens are final as stand in front of all places for a key. -/
theorem le_final {m : Nat} (hl : l.IsCounted) (htokens : m ≤ l.ledger.tokens.length)
    (hplaces : ∀ n ∈ l.ledger.places, m ≤ n) : m ≤ l.final := by
  have hcount : l.count = l.ledger.tokens.length := by
    rw [ledger, List.length_reverse, hl]
  exact le_foldl_min (hcount ▸ htokens) hplaces

/-- The final tokens show what the tokens show, or a fault follows. -/
theorem shown_settled (hl : l.IsCounted) (hsettled : l.settled = l.final)
    (h : l.ledger.Shows before) (fault : Fault) :
    Shown before (l.back.reverse.take l.settled, some fault) := by
  rw [hsettled]
  cases h with
  | fixed hfront htokens hplaces =>
      have hfinal := le_final hl htokens.length_le hplaces
      exact .front hfront (List.prefix_take_iff.2 ⟨htokens, hfinal⟩)
  | @scalar text htext h =>
      rcases Nat.lt_or_ge before.length l.final with hfinal | hfinal
      · refine .front (.scalar htext) (List.prefix_take_iff.2 ⟨h.tokens, ?_⟩)
        rwa [List.length_append]
      · have htake : l.back.reverse.take l.final <+: l.back.reverse := List.take_prefix _ _
        refine .fault (List.prefix_of_prefix_length_le htake ?_ ?_) rfl
        · exact (List.prefix_append _ _).trans h.tokens
        · exact Nat.le_trans (List.length_take_le _ _) hfinal

/-- A step of a run: what the next tokens show is shown, if a fault in front of them and the run
behind them do no harm. -/
theorem shown_run_succ {broken : Bool} {fuel : Nat}
    (hfault : ∀ fault, Shown before (l.back.reverse.take l.settled, some fault))
    (hnext : Yields (fun l' => l'.IsCounted ∧ l'.settled = l'.final ∧ l'.ledger.Shows before)
      (next fuel l))
    (hrun : ∀ l' : Lexer, l'.IsCounted → l'.settled = l'.final → l'.ledger.Shows before →
      Shown before (run broken fuel l')) :
    Shown before (run broken (fuel + 1) l) := by
  rw [run]
  cases hl' : next fuel l with
  | error fault => exact hfault fault
  | ok l' =>
      obtain ⟨hcounted, hsettled, hshows⟩ := hnext l' hl'
      dsimp only
      split
      · split
        · exact hfault _
        · exact hshows.shown none
      · exact hrun l' hcounted hsettled hshows

/-- **What the tokens show is shown at the end of the run.** -/
theorem shown_run (broken : Bool) (fuel : Nat) (hl : l.IsCounted) (hsettled : l.settled = l.final)
    (h : l.ledger.Shows before) : Shown before (run broken fuel l) := by
  induction fuel generalizing l with
  | zero => exact h.shown none
  | succ fuel ih =>
      refine shown_run_succ (shown_settled hl hsettled h) ?_ fun l' => ih
      refine (leads_next l fuel).mono fun l' hl' => ⟨hl'.1.counted hl, hl'.2, ?_⟩
      exact h.moves (hl'.1.moves hl)

end Lexer

end EscapeRoom.Yaml
