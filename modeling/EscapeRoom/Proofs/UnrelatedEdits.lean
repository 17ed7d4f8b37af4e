import EscapeRoom.Proofs.RuleSite
import EscapeRoom.Proofs.VerdictShape
import EscapeRoom.Proofs.Yaml.Names
import Mathlib.Control.Monad.Basic
import Mathlib.Logic.Relation

/-!
# Edits that no rule sees

The rules look up a few keys, take first items and ask whether something is empty.  So they do not
see the order of entries, further entries under other keys, nor items behind the first one, at
whatever depth these are.

* `Tree.Edit` — reordering, inserting and appending, anywhere in a tree.
* `Place.Edited` — places that an edit may have changed.
* `Place.Edited.get`, `Place.Edited.item`, `Place.Edited.isFilled` — lookups keep that relation.
* `Manifest.unrelated_edits_change_nothing` — the rules after any number of edits.
-/

namespace EscapeRoom

open Yaml

/-- One edit in a tree that leaves the entries of the names in `known` alone: it reorders the
entries of a mapping, inserts an entry into one that is not empty, or appends items to a sequence
that is not empty.  It may lie at any depth, also under a tag or in a key.  Only mappings that hold
no name twice are reordered; there are no others in what was read (`Manifest.isNamed_ofText`). -/
inductive Yaml.Tree.Edit (known : List String) : Tree → Tree → Prop
  | reorder {entries other : Entries} (hnames : entries.names.Nodup)
      (h : entries.toList.Perm other.toList) : Edit known (.mapping entries) (.mapping other)
  | insert {before after : List (Tree × Tree)} {key value : Tree} (hsome : before ++ after ≠ [])
      (hkey : ∀ name ∈ known, key ≠ .string name) :
      Edit known (.mapping (.ofList (before ++ after)))
        (.mapping (.ofList (before ++ (key, value) :: after)))
  | append {items more : List Tree} (hsome : items ≠ []) :
      Edit known (.sequence (.ofList items)) (.sequence (.ofList (items ++ more)))
  | inValue {before after : List (Tree × Tree)} {key t u : Tree} (h : Edit known t u) :
      Edit known (.mapping (.ofList (before ++ (key, t) :: after)))
        (.mapping (.ofList (before ++ (key, u) :: after)))
  | inKey {before after : List (Tree × Tree)} {t u value : Tree} (h : Edit known t u) :
      Edit known (.mapping (.ofList (before ++ (t, value) :: after)))
        (.mapping (.ofList (before ++ (u, value) :: after)))
  | inItem {before after : List Tree} {t u : Tree} (h : Edit known t u) :
      Edit known (.sequence (.ofList (before ++ t :: after)))
        (.sequence (.ofList (before ++ u :: after)))
  | inTagged {tag : String} {t u : Tree} (h : Edit known t u) :
      Edit known (.tagged tag t) (.tagged tag u)

namespace Place

variable {known : List String} {t u : Tree} {p q : Place}

/-- Places that are equal or differ by one edit. -/
inductive Edited (known : List String) : Place → Place → Prop
  | same (p : Place) : Edited known p p
  | edit {t u : Tree} (h : t.Edit known u) : Edited known (present t) (present u)

/-- An edit neither begins with a string nor ends with one, and so for all other scalars. -/
theorem scalars_of_edit (h : t.Edit known u) :
    ((present t).asString = none ∧ (present u).asString = none) ∧
      (present t).asInteger = none ∧ (present u).asInteger = none := by
  cases h <;> exact ⟨⟨rfl, rfl⟩, rfl, rfl⟩

theorem ne_string_of_edit (h : t.Edit known u) (name : String) :
    t ≠ .string name ∧ u ≠ .string name := by
  cases h <;> exact ⟨nofun, nofun⟩

/-- What an edit leaves under a known name. -/
theorem edited_child (h : t.Edit known u) {name : String} (hname : name ∈ known) :
    Edited known (child name t) (child name u) := by
  induction h with
  | reorder hnames hperm =>
      rw [child, child, Entries.get?_of_perm hnames hperm]
      exact .same _
  | @insert before after key value hsome hkey =>
      have hskip : (Entries.ofList ((key, value) :: after)).get? name =
          (Entries.ofList after).get? name := by
        rw [Entries.ofList, Entries.get?, if_neg (hkey name hname)]
      rw [child, child, Entries.get?_ofList_append, Entries.get?_ofList_append, hskip]
      exact .same _
  | append hsome => exact .same _
  | @inValue before after key t u h ih =>
      rw [child, child, Entries.get?_ofList_append, Entries.get?_ofList_append]
      cases (Entries.ofList before).get? name with
      | some found => exact .same _
      | none =>
          simp only [Option.none_or, Entries.ofList, Entries.get?]
          split
          · exact .edit h
          · exact .same _
  | @inKey before after t u value h ih =>
      have hneither := ne_string_of_edit h name
      rw [child, child, Entries.get?_ofList_append, Entries.get?_ofList_append]
      simp only [Entries.ofList, Entries.get?, hneither.1, hneither.2, if_false]
      exact .same _
  | inItem h ih => exact .same _
  | inTagged h ih => exact ih

theorem holds_mapping {entries : List (Tree × Tree)} (h : entries ≠ []) :
    holds (.mapping (.ofList entries)) = true := by
  rw [holds, Entries.toList_ofList, List.isEmpty_eq_false_iff.2 h]
  rfl

theorem holds_sequence {items : List Tree} (h : items ≠ []) :
    holds (.sequence (.ofList items)) = true := by
  rw [holds, Items.toList_ofList, List.isEmpty_eq_false_iff.2 h]
  rfl

/-- An edit neither fills what was empty nor empties what was filled. -/
theorem holds_of_edit (h : t.Edit known u) : holds t = holds u := by
  have hinside : ∀ {α : Type} (before : List α) (e : α) (after : List α),
      before ++ e :: after ≠ [] := fun before e after =>
    List.append_ne_nil_of_right_ne_nil before (List.cons_ne_nil e after)
  induction h with
  | reorder hnames hperm => rw [holds, holds, hperm.isEmpty_eq]
  | insert hsome hkey => rw [holds_mapping hsome, holds_mapping (hinside _ _ _)]
  | append hsome =>
      rw [holds_sequence hsome, holds_sequence (List.append_ne_nil_of_left_ne_nil hsome _)]
  | inValue h ih => rw [holds_mapping (hinside _ _ _), holds_mapping (hinside _ _ _)]
  | inKey h ih => rw [holds_mapping (hinside _ _ _), holds_mapping (hinside _ _ _)]
  | inItem h ih => rw [holds_sequence (hinside _ _ _), holds_sequence (hinside _ _ _)]
  | inTagged h ih => exact ih

/-- The first item of a sequence is edited at most. -/
theorem edited_first (h : t.Edit known u) :
    Edited known ((present t).item 0) ((present u).item 0) := by
  cases h with
  | reorder | insert | inValue | inKey | inTagged => exact .same _
  | @append items more hsome =>
      rw [item, item, Items.toList_ofList, Items.toList_ofList,
        List.getElem?_append_left (List.length_pos_of_ne_nil hsome)]
      exact .same _
  | @inItem before after t u h =>
      rw [item, item, Items.toList_ofList, Items.toList_ofList]
      cases before with
      | nil => exact .edit h
      | cons first before => exact .same _

namespace Edited

theorem get (h : Edited known p q) {name : String} (hname : name ∈ known) :
    Edited known (p.get name) (q.get name) := by
  cases h with
  | same p => exact .same _
  | edit h => exact edited_child h hname

theorem isFilled (h : Edited known p q) : p.isFilled = q.isFilled := by
  cases h with
  | same p => rfl
  | edit h => exact holds_of_edit h

theorem first (h : Edited known p q) : Edited known (p.item 0) (q.item 0) := by
  cases h with
  | same p => exact .same _
  | edit h => exact edited_first h

theorem scalars (h : Edited known p q) :
    p.asString = q.asString ∧ p.asInteger = q.asInteger := by
  cases h with
  | same p => exact ⟨rfl, rfl⟩
  | edit h =>
      obtain ⟨⟨ht, hu⟩, hm, hn⟩ := scalars_of_edit h
      exact ⟨ht.trans hu.symm, hm.trans hn.symm⟩

end Edited

end Place

/-! ### Rules -/

namespace Rule

theorem respects_edited : Respects (Place.Edited keys) where
  get h _ hkey := h.get hkey
  isFilled h := h.isFilled

theorem edited_site {p q : Place} (h : Place.Edited keys p q) (rule : Rule) :
    Place.Edited keys (rule.site p) (rule.site q) := by
  have hfollow : ∀ path, (∀ key ∈ path, key ∈ keys) →
      Place.Edited keys (p.follow path) (q.follow path) := respects_edited.follow h
  cases rule with
  | apiVersion | kindDeployment | metadataName | replicas => exact hfollow _ (by decide)
  | image | probes | resources => exact (hfollow _ (by decide)).first

end Rule

namespace Manifest

/-- Whether no mapping of a manifest has two entries of one name. -/
def IsNamed (m : Manifest) : Prop := (Tree.mapping m.entries).IsNamed

theorem isNamed_ofText {text : String} {m : Manifest} (h : ofText text = .ok m) : m.IsNamed := by
  have hempty : empty.IsNamed := ⟨List.nodup_nil, trivial⟩
  unfold ofText at h
  split at h
  · cases h
    exact hempty
  · obtain ⟨tree, htree, hm⟩ := ofDocument_eq_ok_iff.1 h
    have hnamed := Tree.isNamed_ofText htree
    cases tree with
    | null =>
        cases hm
        exact hempty
    | mapping entries =>
        cases hm
        exact hnamed
    | bool | number | string | sequence | tagged => cases hm

/-- One edit of a manifest, at its top or below, that leaves the keys of the rules alone. -/
def Edit (m other : Manifest) : Prop :=
  (Tree.mapping m.entries).Edit Rule.keys (.mapping other.entries)

theorem holds_of_edit {m other : Manifest} (h : m.Edit other) (rule : Rule) :
    rule.holds other.root = rule.holds m.root := by
  have hroot : Place.Edited Rule.keys m.root other.root := .edit h
  have hsite := Rule.edited_site hroot rule
  rw [Rule.holds_eq, Rule.holds_eq]
  exact (Rule.respects_edited.accepts_congr hsite fun _ => hsite.scalars).symm

/-- **Unrelated content never changes a verdict.**  Any number of edits to a manifest, in any order
and at any depth, leave the outcome of every rule and so the whole verdict as they were.  The
mappings of a manifest that was read have no name twice, so all of them can be reordered. -/
theorem unrelated_edits_change_nothing :
    (∀ (m other : Manifest), Relation.ReflTransGen Edit m other →
      (∀ rule : Rule, rule.holds other.root = rule.holds m.root) ∧
      Verdict.ofPlace other.root = Verdict.ofPlace m.root) ∧
    ∀ text m, ofText text = .ok m → m.IsNamed := by
  constructor
  · intro m other h
    have hholds : ∀ rule : Rule, rule.holds other.root = rule.holds m.root := by
      intro rule
      induction h with
      | refl => rfl
      | tail _ hstep ih => exact (holds_of_edit hstep rule).trans ih
    have hsame : Rule.holds other.root = Rule.holds m.root := funext hholds
    refine ⟨hholds, ?_⟩
    rw [Verdict.ofPlace, Verdict.ofPlace, hsame]
  · intro text m h
    exact isNamed_ofText h

/-- A kind, and under a tag the number of replicas with some further entries. -/
def specified (further : Entries) : Manifest :=
  ⟨.cons (.string "kind") (.string "Deployment")
    (.cons (.string "spec") (.tagged "s" (.mapping
      (.cons (.string "replicas") (.number (.int 2)) further))) .nil)⟩

/-- An entry inserted under a tag, and then the entries at the top the other way round. -/
theorem edits_below_tag_and_at_top :
    let edited := specified (.cons (.string "paused") (.bool true) .nil)
    let reordered : Manifest := ⟨.ofList edited.entries.toList.reverse⟩
    ofText "kind: Deployment\nspec: !s {replicas: 2}\n" = .ok (specified .nil) ∧
      (specified .nil).IsNamed ∧
      Relation.ReflTransGen Edit (specified .nil) reordered ∧
      Verdict.ofPlace reordered.root = Verdict.ofPlace (specified .nil).root := by
  intro edited reordered
  have hread : ofText "kind: Deployment\nspec: !s {replicas: 2}\n" = .ok (specified .nil) := by
    decide +kernel
  have hinside : Tree.Edit Rule.keys _ _ :=
    @Tree.Edit.insert Rule.keys [(.string "replicas", .number (.int 2))] [] (.string "paused")
      (.bool true) (by decide) (by decide)
  have hinsert : (specified .nil).Edit edited :=
    @Tree.Edit.inValue _ [(.string "kind", .string "Deployment")] [] _ _ _ (.inTagged hinside)
  have hreorder : edited.Edit reordered := by
    refine .reorder (by decide) ?_
    rw [Entries.toList_ofList]
    exact (List.reverse_perm _).symm
  have hedits : Relation.ReflTransGen Edit (specified .nil) reordered :=
    .tail (.single hinsert) hreorder
  obtain ⟨hsame, hnamed⟩ := unrelated_edits_change_nothing
  exact ⟨hread, hnamed _ _ hread, hedits, (hsame _ _ hedits).2⟩

end Manifest

end EscapeRoom
