import EscapeRoom.Yaml.Document

/-!
# What holds of every tree that is read

Scalars become trees one by one; sequences, mappings, tags and aliases only put trees together that
were read before.  So what holds of scalars and is kept by putting together holds of every tree that
was read.  Of a mapping it is known in addition that no key came before.

* `Yields` — what a computation gives, if it gives something.
* `Hereditary` — properties that scalars have and that putting together keeps.
* `Hereditary.of_scalar`, `Hereditary.of_build` — such a property through the reader.
* `Hereditary.of_text` — the tree of a text has it.
-/

namespace EscapeRoom.Yaml

/-! ### What a computation gives -/

section
variable {ε α β : Type} {P : α → Prop} {Q : β → Prop}

/-- What a computation gives has a property, if it gives something. -/
def Yields (P : α → Prop) (e : Except ε α) : Prop := ∀ a, e = .ok a → P a

theorem yields_ok {a : α} (h : P a) : Yields P (.ok a : Except ε α) := by
  rintro _ ⟨⟩
  exact h

theorem yields_error {fault : ε} : Yields P (.error fault : Except ε α) := by
  rintro _ ⟨⟩

theorem Yields.bind {e : Except ε α} {f : α → Except ε β} (h : Yields P e)
    (hf : ∀ a, P a → Yields Q (f a)) : Yields Q (e >>= f) := by
  cases e with
  | error fault => exact yields_error
  | ok a => exact hf a (h a rfl)

theorem yields_anything (e : Except ε α) : Yields (fun _ => True) e := fun _ _ => trivial

theorem Yields.mono {R : α → Prop} {e : Except ε α} (h : Yields P e) (hPR : ∀ a, P a → R a) :
    Yields R e := fun a ha => hPR a (h a ha)

theorem Yields.ite {c : Prop} [Decidable c] {e e' : Except ε α} (h : Yields P e)
    (h' : Yields P e') : Yields P (if c then e else e') := by
  split
  · exact h
  · exact h'

end

/-! ### Putting trees together -/

/-- Properties of trees, of items, and of entries behind some keys, which scalars have and which
putting together keeps. -/
structure Hereditary (onTree : Tree → Prop) (onItems : Items → Prop)
    (onEntries : List Tree → Entries → Prop) : Prop where
  null : onTree .null
  bool : ∀ b, onTree (.bool b)
  integer : ∀ {n : Int}, fitsTree n = true → onTree (.number (.int n))
  fraction : ∀ x, onTree (.number (.float x))
  string : ∀ s, onTree (.string s)
  tagged : ∀ {t : Tree}, onTree t → ∀ tag, onTree (.tagged tag t)
  sequence : ∀ {items : Items}, onItems items → onTree (.sequence items)
  mapping : ∀ {entries : Entries}, onEntries [] entries → onTree (.mapping entries)
  noItems : onItems .nil
  item : ∀ {head : Tree} {tail : Items}, onTree head → onItems tail → onItems (.cons head tail)
  noEntries : ∀ keys, onEntries keys .nil
  entry : ∀ {keys : List Tree} {key value : Tree} {rest : Entries}, onTree key →
    keys.any key.same = false → onTree value → onEntries (key :: keys) rest →
    onEntries keys (.cons key value rest)

namespace Hereditary

variable {onTree : Tree → Prop} {onItems : Items → Prop} {onEntries : List Tree → Entries → Prop}
  (h : Hereditary onTree onItems onEntries)
include h

theorem withTag {t : Tree} (ht : onTree t) (name : Option String) :
    onTree (EscapeRoom.Yaml.withTag name t) := by
  cases name with
  | none => exact ht
  | some tag => exact h.tagged ht tag

theorem of_plain (cs : List Char) : Yields onTree (plainTree cs) := by
  unfold plainTree
  split
  · exact yields_ok h.null
  · split
    · exact yields_ok (h.bool _)
    · split
      · split
        · rename_i hfits
          exact yields_ok (h.integer hfits)
        · exact yields_error
      · split
        · exact yields_ok (h.fraction _)
        · exact yields_ok (h.string _)

theorem of_scalar (bare : Bool) (tag : Option TagKind) (text : List Char) (plain : Bool) :
    Yields onTree (scalarTree bare tag text plain) := by
  have huntagged : Yields onTree
      (if plain then plainTree text else .ok (.string (String.ofList text))) := by
    split
    · exact h.of_plain text
    · exact yields_ok (h.string _)
  simp only [scalarTree]
  split
  · exact huntagged
  · split
    · exact yields_ok h.null
    · exact yields_error
  · split
    · exact yields_ok (h.bool _)
    · exact yields_error
  · split
    · split
      · rename_i hfits
        exact yields_ok (h.integer hfits)
      · exact yields_error
    · exact yields_error
  · split
    · exact yields_ok (h.fraction _)
    · exact yields_error
  · exact huntagged.bind fun t ht => yields_ok (h.tagged ht _)
  · exact yields_ok (h.string _)
  · exact huntagged

theorem of_build (d : Document) (fuel : Nat) :
    (∀ depth bare jumps nodes,
      Yields (fun r => onTree r.1) (d.build fuel depth bare jumps nodes)) ∧
    (∀ depth jumps nodes,
      Yields (fun r => onItems r.1) (d.buildItems fuel depth jumps nodes)) ∧
    ∀ depth bare jumps keys nodes,
      Yields (fun r => onEntries keys r.1) (d.buildEntries fuel depth bare jumps keys nodes) := by
  induction fuel with
  | zero =>
      refine ⟨fun _ _ _ _ => ?_, fun _ _ _ => ?_, fun _ _ _ _ _ => ?_⟩
      · rw [Document.build]
        exact yields_error
      · rw [Document.buildItems]
        exact yields_error
      · rw [Document.buildEntries]
        exact yields_error
  | succ fuel ih =>
      obtain ⟨hbuild, hitems, hentries⟩ := ih
      refine ⟨?_, ?_, ?_⟩
      · -- the cases are those of the definition: an alias, a scalar, the collections, and faults
        intro depth bare jumps nodes
        rw [Document.build.eq_def]
        dsimp only
        split
        · exact yields_error
        · split
          · exact yields_error
          · split
            · exact yields_error
            · exact (hbuild _ _ _ _).bind fun r hr => yields_ok hr
        · exact (h.of_scalar _ _ _ _).bind fun t ht => yields_ok ht
        · split
          · exact yields_error
          · exact (hitems _ _ _).bind fun r hr => yields_ok (h.withTag (h.sequence hr) _)
        · split
          · exact yields_error
          · exact (hentries _ _ _ _ _).bind fun r hr => yields_ok (h.withTag (h.mapping hr) _)
        · exact yields_error
        · exact yields_error
      · intro depth jumps nodes
        rw [Document.buildItems.eq_def]
        dsimp only
        split
        · exact yields_ok h.noItems
        · refine (hbuild _ _ _ _).bind fun r hr => ?_
          exact (hitems _ _ _).bind fun rest hrest => yields_ok (h.item hr hrest)
      · intro depth bare jumps keys nodes
        rw [Document.buildEntries.eq_def]
        dsimp only
        split
        · exact yields_ok (h.noEntries keys)
        · refine (hbuild _ _ _ _).bind fun key hkey => ?_
          split
          · exact yields_error
          · rename_i hnew
            refine (hbuild _ _ _ _).bind fun value hvalue => ?_
            refine (hentries _ _ _ _ _).bind fun rest hrest => yields_ok ?_
            exact h.entry hkey (Bool.eq_false_iff.2 hnew) hvalue hrest

/-- **What scalars have and putting together keeps holds of every tree that was read.** -/
theorem of_text {text : List Char} {t : Tree} (hread : Tree.ofText text = .ok t) : onTree t := by
  have htree : ∀ d : Document, Yields onTree d.tree := by
    intro d
    rw [Document.tree]
    split
    · exact yields_ok h.null
    · refine ((h.of_build d _).1 _ _ _ _).bind fun r hr => ?_
      dsimp only
      split
      · exact yields_ok hr
      · exact yields_error
  exact htree _ t hread

end Hereditary

end EscapeRoom.Yaml
