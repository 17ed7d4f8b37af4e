import EscapeRoom.Proofs.Yaml.Build

/-!
# The integers of a tree

A scalar becomes an integer only if it fits 64 bits, with or without a sign, so all integers of a
tree that was read are in that range.

* `Tree.IsRanged` — the range, for all integers of a tree.
* `Entries.IsRanged.get?` — the tree under a key.
* `Tree.isRanged_ofText` — the tree of a text.
-/

namespace EscapeRoom.Yaml

mutual

/-- Whether the integers of a tree are in range. -/
def Tree.IsRanged : Tree → Prop
  | .number (.int n) => fitsTree n = true
  | .sequence items => items.IsRanged
  | .mapping entries => entries.IsRanged
  | .tagged _ inner => inner.IsRanged
  | _ => True

/-- Whether the integers of all items are in range. -/
def Items.IsRanged : Items → Prop
  | .nil => True
  | .cons head tail => head.IsRanged ∧ tail.IsRanged

/-- Whether the integers of all keys and values are in range. -/
def Entries.IsRanged : Entries → Prop
  | .nil => True
  | .cons key value rest => key.IsRanged ∧ value.IsRanged ∧ rest.IsRanged

end

theorem Entries.IsRanged.get? {name : String} {t : Tree} :
    ∀ {entries : Entries}, entries.IsRanged → entries.get? name = some t → t.IsRanged
  | .nil, _, ht => nomatch ht
  | .cons key value rest, h, ht => by
      rw [Entries.get?] at ht
      split at ht
      · cases ht
        exact h.2.1
      · exact get? h.2.2 ht

theorem hereditary_isRanged :
    Hereditary Tree.IsRanged Items.IsRanged fun _ entries => entries.IsRanged where
  null := trivial
  bool _ := trivial
  integer hfits := hfits
  fraction _ := trivial
  string _ := trivial
  tagged ht _ := ht
  sequence hitems := hitems
  mapping hentries := hentries
  noItems := trivial
  item hhead htail := ⟨hhead, htail⟩
  noEntries _ := trivial
  entry hkey _ hvalue hrest := ⟨hkey, hvalue, hrest⟩

/-- **The integers of a tree that was read are in range.** -/
theorem Tree.isRanged_ofText {text : List Char} {t : Tree} (h : Tree.ofText text = .ok t) :
    t.IsRanged := hereditary_isRanged.of_text h

end EscapeRoom.Yaml
