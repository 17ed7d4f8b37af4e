import EscapeRoom.Proofs.Yaml.Build
import Mathlib.Data.List.Perm.Basic

/-!
# The names of a mapping

Lookups see the keys that are strings, the names.  A document that repeats a key is refused, so no
name stands twice in a mapping that was read, at whatever depth.  Then what is found under a name is
what stands in the entry of that name, wherever the entry stands.

* `Entries.names`, `Tree.IsNamed` — the names of a mapping, and trees in which none stands twice.
* `Tree.isNamed_ofText` — every tree that was read is one.
* `Entries.get?_eq_some_iff`, `Entries.get?_of_perm` — lookups among different names.
-/

namespace EscapeRoom.Yaml

/-- The name that a key is. -/
def Tree.name? : Tree → Option String
  | .string s => some s
  | _ => none

theorem Tree.name?_eq_some_iff {key : Tree} {name : String} :
    key.name? = some name ↔ key = .string name := by
  cases key <;> simp [Tree.name?]

/-- The names among the keys of a mapping. -/
def Entries.names (entries : Entries) : List String :=
  entries.toList.filterMap fun e => e.1.name?

theorem Entries.mem_names {entries : Entries} {name : String} :
    name ∈ entries.names ↔ ∃ value, (.string name, value) ∈ entries.toList := by
  simp only [names, List.mem_filterMap, Tree.name?_eq_some_iff, Prod.exists]
  constructor
  · rintro ⟨key, value, hmem, rfl⟩
    exact ⟨value, hmem⟩
  · rintro ⟨value, hmem⟩
    exact ⟨_, value, hmem, rfl⟩

theorem Entries.names_cons (key value : Tree) (rest : Entries) :
    (Entries.cons key value rest).names = key.name?.toList ++ rest.names := by
  rw [names, toList, List.filterMap_cons]
  cases key.name? <;> rfl

mutual

/-- Whether no mapping in a tree has two entries of one name. -/
def Tree.IsNamed : Tree → Prop
  | .sequence items => items.IsNamed
  | .mapping entries => entries.names.Nodup ∧ entries.IsNamed
  | .tagged _ inner => inner.IsNamed
  | _ => True

/-- The same for all items. -/
def Items.IsNamed : Items → Prop
  | .nil => True
  | .cons head tail => head.IsNamed ∧ tail.IsNamed

/-- The same for all keys and values. -/
def Entries.IsNamed : Entries → Prop
  | .nil => True
  | .cons key value rest => key.IsNamed ∧ value.IsNamed ∧ rest.IsNamed

end

/-! ### Reading -/

theorem hereditary_isNamed :
    Hereditary Tree.IsNamed Items.IsNamed fun keys entries =>
      (entries.names.Nodup ∧ ∀ name ∈ entries.names, .string name ∉ keys) ∧ entries.IsNamed where
  null := trivial
  bool _ := trivial
  integer _ := trivial
  fraction _ := trivial
  string _ := trivial
  tagged ht _ := ht
  sequence hitems := hitems
  mapping hentries := ⟨hentries.1.1, hentries.2⟩
  noItems := trivial
  item hhead htail := ⟨hhead, htail⟩
  noEntries _ := ⟨⟨List.nodup_nil, fun _ hname => absurd hname List.not_mem_nil⟩, trivial⟩
  entry := by
    rintro keys key value rest hkey hnew hvalue ⟨⟨hnodup, hother⟩, hrest⟩
    refine ⟨?_, hkey, hvalue, hrest⟩
    rw [Entries.names_cons]
    cases hname : key.name? with
    | none => exact ⟨hnodup, fun name h => List.not_mem_of_not_mem_cons (hother name h)⟩
    | some name =>
        rw [Tree.name?_eq_some_iff] at hname
        subst hname
        have hfirst : name ∉ rest.names := fun h => hother name h List.mem_cons_self
        have hkeys : Tree.string name ∉ keys := by
          intro hmem
          have hsame : (Tree.string name).same (.string name) = true := by
            rw [Tree.same, beq_self_eq_true]
          exact Bool.noConfusion (hnew.symm.trans (List.any_eq_true.2 ⟨_, hmem, hsame⟩))
        refine ⟨List.nodup_cons.2 ⟨hfirst, hnodup⟩, List.forall_mem_cons.2 ⟨hkeys, ?_⟩⟩
        exact fun other h => List.not_mem_of_not_mem_cons (hother other h)

/-- **No name stands twice in a mapping that was read.** -/
theorem Tree.isNamed_ofText {text : List Char} {t : Tree} (h : Tree.ofText text = .ok t) :
    t.IsNamed := hereditary_isNamed.of_text h

/-! ### Lookups -/

namespace Entries

/-- Among different names, what is found under a name is what stands there. -/
theorem get?_eq_some_iff {name : String} {t : Tree} :
    ∀ {entries : Entries}, entries.names.Nodup →
      (entries.get? name = some t ↔ (.string name, t) ∈ entries.toList)
  | .nil, _ => by simp [get?, toList]
  | .cons key value rest, h => by
      rw [names_cons] at h
      have hrest : rest.get? name = some t ↔ (.string name, t) ∈ rest.toList :=
        get?_eq_some_iff (List.nodup_append.1 h).2.1
      rw [get?, toList, List.mem_cons, Prod.mk.injEq]
      by_cases hkey : key = .string name
      · subst hkey
        have hother : (.string name, t) ∉ rest.toList := fun hmem =>
          (List.nodup_cons.1 h).1 (mem_names.2 ⟨t, hmem⟩)
        rw [if_pos rfl, Option.some.injEq]
        constructor
        · rintro rfl
          exact .inl ⟨rfl, rfl⟩
        · rintro (⟨-, rfl⟩ | hmem)
          · rfl
          · exact absurd hmem hother
      · have hne : ¬ Tree.string name = key := fun heq => hkey heq.symm
        rw [if_neg hkey, hrest]
        exact ⟨.inr, fun hmem => hmem.resolve_left fun hfirst => hne hfirst.1⟩

/-- Among different names, the order of the entries does not matter. -/
theorem get?_of_perm {entries other : Entries} (hnames : entries.names.Nodup)
    (h : entries.toList.Perm other.toList) (name : String) :
    other.get? name = entries.get? name := by
  have hother : other.names.Nodup := (h.filterMap _).nodup_iff.1 hnames
  apply Option.ext
  intro t
  rw [get?_eq_some_iff hother, get?_eq_some_iff hnames, h.mem_iff]

theorem get?_ofList_append (name : String) (before after : List (Tree × Tree)) :
    (ofList (before ++ after)).get? name =
      ((ofList before).get? name).or ((ofList after).get? name) := by
  induction before with
  | nil => rfl
  | cons e before ih =>
      rw [List.cons_append, ofList, ofList, get?, get?, ih]
      split <;> rfl

end Entries

end EscapeRoom.Yaml
