import EscapeRoom.Proofs.RuleSite
import Mathlib.Control.Monad.Basic

/-!
# Tags in a manifest

Lookups under keys and the test for emptiness pass over tags, but a tagged string is no string, a
tagged integer is no integer and a tagged sequence has no first item.  So leaving out all tags can
only help, and it makes a difference only when one of four places is tagged itself.

* `Tree.withoutTags`, `Manifest.withoutTags` — a tree without the tags of its values.
* `Place.get_withoutTags`, `Place.follow_withoutTags`, `Place.isFilled_withoutTags` — what passes
  over tags.
* `Place.item_withoutTags`, `Place.asString_withoutTags`, `Place.asInteger_withoutTags` — what does
  not.
* `Manifest.tags_never_help` — the rules with and without tags.
-/

namespace EscapeRoom

namespace Yaml

mutual

/-- A tree without tags.  Keys stay as they are. -/
def Tree.withoutTags : Tree → Tree
  | .tagged _ inner => inner.withoutTags
  | .sequence items => .sequence items.withoutTags
  | .mapping entries => .mapping entries.withoutTags
  | .null => .null
  | .bool b => .bool b
  | .number n => .number n
  | .string s => .string s

/-- Items without tags. -/
def Items.withoutTags : Items → Items
  | .nil => .nil
  | .cons head tail => .cons head.withoutTags tail.withoutTags

/-- Entries without the tags of their values. -/
def Entries.withoutTags : Entries → Entries
  | .nil => .nil
  | .cons key value rest => .cons key value.withoutTags rest.withoutTags

end

theorem Items.toList_withoutTags :
    ∀ items : Items, items.withoutTags.toList = items.toList.map Tree.withoutTags
  | .nil => rfl
  | .cons head tail => by
      rw [Items.withoutTags, Items.toList, Items.toList, toList_withoutTags tail, List.map_cons]

theorem Entries.toList_withoutTags :
    ∀ entries : Entries,
      entries.withoutTags.toList = entries.toList.map fun e => (e.1, e.2.withoutTags)
  | .nil => rfl
  | .cons key value rest => by
      rw [Entries.withoutTags, Entries.toList, Entries.toList, toList_withoutTags rest,
        List.map_cons]

theorem Entries.get?_withoutTags (name : String) :
    ∀ entries : Entries, entries.withoutTags.get? name = (entries.get? name).map Tree.withoutTags
  | .nil => rfl
  | .cons key value rest => by
      rw [Entries.withoutTags, Entries.get?, Entries.get?, get?_withoutTags name rest]
      split <;> rfl

end Yaml

open Yaml

/-! ### Places -/

namespace Place

/-- The same place of the tree without tags. -/
def withoutTags : Place → Place
  | absent => absent
  | present tree => present tree.withoutTags

/-- Whether a tag stands at a place. -/
def isTagged : Place → Bool
  | present (.tagged _ _) => true
  | _ => false

theorem withoutTags_ofOption (o : Option Tree) :
    (ofOption o).withoutTags = ofOption (o.map Tree.withoutTags) := by
  cases o <;> rfl

theorem child_withoutTags (key : String) :
    ∀ t : Tree, child key t.withoutTags = (child key t).withoutTags
  | .mapping entries => by
      rw [Tree.withoutTags, child, child, Entries.get?_withoutTags, withoutTags_ofOption]
  | .tagged _ inner => by
      rw [Tree.withoutTags, child, child_withoutTags key inner]
  | .null | .bool _ | .number _ | .string _ | .sequence _ => rfl

/-- Lookups pass over tags. -/
theorem get_withoutTags (p : Place) (key : String) :
    p.withoutTags.get key = (p.get key).withoutTags := by
  cases p with
  | absent => rfl
  | present tree => exact child_withoutTags key tree

theorem follow_withoutTags (p : Place) (keys : List String) :
    p.withoutTags.follow keys = (p.follow keys).withoutTags := by
  induction keys generalizing p with
  | nil => rfl
  | cons key keys ih =>
      show (p.withoutTags.get key).follow keys = ((p.get key).follow keys).withoutTags
      rw [get_withoutTags, ih]

theorem holds_withoutTags : ∀ t : Tree, holds t.withoutTags = holds t
  | .sequence items => by
      rw [Tree.withoutTags, holds, holds, Items.toList_withoutTags, List.isEmpty_map]
  | .mapping entries => by
      rw [Tree.withoutTags, holds, holds, Entries.toList_withoutTags, List.isEmpty_map]
  | .tagged _ inner => by
      rw [Tree.withoutTags, holds, holds_withoutTags inner]
  | .null | .bool _ | .number _ | .string _ => rfl

/-- The test for emptiness passes over tags. -/
theorem isFilled_withoutTags (p : Place) : p.withoutTags.isFilled = p.isFilled := by
  cases p with
  | absent => rfl
  | present tree => exact holds_withoutTags tree

/-- A place is a tagged one or one where no tag stands. -/
theorem isTagged_cases (p : Place) :
    (∃ tag inner, p = present (.tagged tag inner)) ∨ p.isTagged = false := by
  rcases p with _ | (_ | _ | _ | _ | _ | _ | ⟨tag, inner⟩)
  case present.tagged => exact .inl ⟨tag, inner, rfl⟩
  all_goals exact .inr rfl

section
variable {p : Place} (h : p.isTagged = false)
include h

theorem item_withoutTags (index : Nat) : p.withoutTags.item index = (p.item index).withoutTags := by
  rcases p with _ | (_ | _ | _ | _ | items | _ | _)
  case present.sequence =>
    rw [withoutTags, Tree.withoutTags, item, item, Items.toList_withoutTags, List.getElem?_map,
      withoutTags_ofOption]
  case present.tagged => cases h
  all_goals rfl

theorem asString_withoutTags : p.withoutTags.asString = p.asString := by
  rcases p with _ | (_ | _ | _ | _ | _ | _ | _)
  case present.tagged => cases h
  all_goals rfl

theorem asInteger_withoutTags : p.withoutTags.asInteger = p.asInteger := by
  rcases p with _ | (_ | _ | n | _ | _ | _ | _)
  case present.tagged => cases h
  all_goals rfl

end

end Place

/-! ### Rules -/

namespace Rule

theorem respects_withoutTags : Respects fun p q => q = p.withoutTags where
  get := by
    rintro p q rfl key -
    exact p.get_withoutTags key
  isFilled := by
    rintro p q rfl
    exact p.isFilled_withoutTags.symm

/-- At a place without a tag, and for rules that read no scalar, tags make no difference. -/
theorem accepts_withoutTags {p : Place} {rule : Rule}
    (h : rule.readsScalar = true → p.isTagged = false) :
    rule.accepts p.withoutTags = rule.accepts p := by
  refine (respects_withoutTags.accepts_congr rfl ?_).symm
  intro hreads
  have hplain := h hreads
  exact ⟨(Place.asString_withoutTags hplain).symm, (Place.asInteger_withoutTags hplain).symm⟩

/-- A tag at the place of a rule never helps. -/
theorem accepts_withoutTags_of_accepts {p : Place} {rule : Rule} (h : rule.accepts p = true) :
    rule.accepts p.withoutTags = true := by
  rw [accepts_withoutTags, h]
  intro hreads
  rcases p.isTagged_cases with ⟨tag, inner, rfl⟩ | huntagged
  · -- a rule that reads a scalar reads none there
    cases rule with
    | apiVersion | kindDeployment | replicas => cases h
    | metadataName | image | probes | resources => cases hreads
  · exact huntagged

/-- The keys that lead to the containers of a deployment. -/
def containersPath : List String := ["spec", "template", "spec", "containers"]

/-- Where a rule looks when there are no tags. -/
theorem site_withoutTags {root : Place} {rule : Rule}
    (h : rule.readsContainer = true → (root.follow containersPath).isTagged = false) :
    rule.site root.withoutTags = (rule.site root).withoutTags := by
  cases rule with
  | apiVersion | kindDeployment | metadataName | replicas => exact Place.follow_withoutTags root _
  | image | probes | resources =>
      show (root.withoutTags.follow containersPath).item 0 = _
      rw [Place.follow_withoutTags]
      exact Place.item_withoutTags (h rfl) 0

/-- Containers under a tag are none, so a rule about the first one fails. -/
theorem isTagged_of_holds {root : Place} {rule : Rule} (h : rule.holds root = true)
    (hreads : rule.readsContainer = true) : (root.follow containersPath).isTagged = false := by
  rcases (root.follow containersPath).isTagged_cases with ⟨tag, inner, heq⟩ | huntagged
  · have hsite : rule.site root = .absent := by
      cases rule with
      | apiVersion | kindDeployment | metadataName | replicas => cases hreads
      | image | probes | resources =>
          show (root.follow containersPath).item 0 = _
          rw [heq]
          rfl
    rw [holds_eq, hsite, accepts_absent] at h
    cases h
  · exact huntagged

end Rule

namespace Manifest

/-- A manifest without the tags below its top. -/
def withoutTags (m : Manifest) : Manifest := ⟨m.entries.withoutTags⟩

theorem root_withoutTags (m : Manifest) : m.withoutTags.root = m.root.withoutTags := by
  rw [root, root, Place.withoutTags, Tree.withoutTags]
  rfl

/-- **Tags never help.**  A rule that holds of a manifest holds of it without its tags.  When no tag
stands at the four places that are read as strings, as an integer and as a sequence, every rule has
the same outcome for both. -/
theorem tags_never_help (m : Manifest) :
    (∀ rule : Rule, rule.holds m.root = true → rule.holds m.withoutTags.root = true) ∧
    ((∀ path ∈ ["apiVersion", "kind", "spec.replicas", "spec.template.spec.containers"],
        (m.root.path path).isTagged = false) →
      ∀ rule : Rule, rule.holds m.withoutTags.root = rule.holds m.root) := by
  rw [root_withoutTags]
  constructor
  · intro rule h
    rw [Rule.holds_eq, Rule.site_withoutTags (Rule.isTagged_of_holds h)]
    rw [Rule.holds_eq] at h
    exact Rule.accepts_withoutTags_of_accepts h
  · intro huntagged rule
    have hpaths : ["apiVersion", "kind", "spec.replicas", "spec.template.spec.containers"].map
        Place.keysOfPath =
          [["apiVersion"], ["kind"], ["spec", "replicas"], Rule.containersPath] := by decide
    have hkeys : ∀ keys ∈ [["apiVersion"], ["kind"], ["spec", "replicas"], Rule.containersPath],
        (m.root.follow keys).isTagged = false := by
      rw [← hpaths, List.forall_mem_map]
      exact huntagged
    have hscalar : rule.readsScalar = true → (rule.site m.root).isTagged = false := by
      intro hreads
      cases rule with
      | apiVersion | kindDeployment | replicas => exact hkeys _ (by decide)
      | metadataName | image | probes | resources => cases hreads
    have hcontainers := hkeys Rule.containersPath (by decide)
    rw [Rule.holds_eq, Rule.holds_eq, Rule.site_withoutTags fun _ => hcontainers]
    exact Rule.accepts_withoutTags hscalar

/-- A name under two tags and a container under one. -/
def tagged : Manifest :=
  ⟨.cons (.string "metadata")
      (.tagged "m" (.mapping (.cons (.string "name") (.tagged "n" (.string "web")) .nil)))
    (.cons (.string "spec") (.mapping (.cons (.string "template") (.mapping (.cons (.string "spec")
      (.mapping (.cons (.string "containers") (.sequence (.cons
        (.tagged "c" (.mapping (.cons (.string "image") (.string "nginx") .nil))) .nil)) .nil))
      .nil)) .nil)) .nil)⟩

/-- The tags of that manifest make no difference. -/
theorem tags_make_no_difference_below_name :
    ofText ("metadata: !m\n  name: !n web\n" ++
        "spec:\n  template:\n    spec:\n      containers:\n      - !c\n        image: nginx\n") =
      .ok tagged ∧
    tagged.withoutTags ≠ tagged ∧
    (∀ path ∈ ["apiVersion", "kind", "spec.replicas", "spec.template.spec.containers"],
      (tagged.root.path path).isTagged = false) ∧
    Rule.metadataName.holds tagged.root = true ∧
    Rule.metadataName.holds tagged.withoutTags.root = true ∧
    Rule.image.holds tagged.withoutTags.root = Rule.image.holds tagged.root := by
  have huntagged : ∀ path ∈ ["apiVersion", "kind", "spec.replicas",
      "spec.template.spec.containers"], (tagged.root.path path).isTagged = false := by decide
  have hname : Rule.metadataName.holds tagged.root = true := by decide
  have hparsed : ofText ("metadata: !m\n  name: !n web\n" ++
      "spec:\n  template:\n    spec:\n      containers:\n      - !c\n        image: nginx\n") =
      .ok tagged := by decide +kernel
  exact ⟨hparsed, by decide, huntagged, hname, (tags_never_help tagged).1 _ hname,
    (tags_never_help tagged).2 huntagged Rule.image⟩

/-- A tag at one of the four places does make a difference. -/
example :
    let kind (t : Tree) : Manifest := ⟨.cons (.string "kind") t .nil⟩
    Rule.kindDeployment.holds (kind (.tagged "k" (.string "Deployment"))).root = false ∧
      Rule.kindDeployment.holds (kind (.string "Deployment")).root = true := by
  decide

end Manifest

end EscapeRoom
