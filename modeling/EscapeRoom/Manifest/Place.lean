import EscapeRoom.Text.Blank
import EscapeRoom.Yaml.Tree

/-!
# Places in a manifest

A lookup never fails: what is not there is the place `absent`, and a lookup from there is absent
again.  So a rule can treat "missing" and "of another type" alike.

* `Place.get`, `Place.item`, `Place.follow` — lookups.
* `Place.asString`, `Place.asInteger`, `Place.isFilled` — what stands at a place.
-/

namespace EscapeRoom

open Yaml

/-- A position in a manifest that may or may not exist. -/
inductive Place
  | absent
  | present (tree : Tree)
  deriving DecidableEq

namespace Place

def ofOption : Option Tree → Place
  | none => absent
  | some tree => present tree

/-- The place under a key of a tree; tags around a mapping are passed over. -/
def child (key : String) : Tree → Place
  | .mapping entries => ofOption (entries.get? key)
  | .tagged _ inner => child key inner
  | _ => absent

/-- The place under a key. -/
def get (p : Place) (key : String) : Place :=
  match p with
  | absent => absent
  | present tree => child key tree

/-- The item of a sequence with a number, counted from zero. -/
def item (p : Place) (index : Nat) : Place :=
  match p with
  | present (.sequence items) => ofOption items.toList[index]?
  | _ => absent

/-- The place that a list of keys leads to. -/
def follow (p : Place) (keys : List String) : Place := keys.foldl get p

/-- The keys of a dotted path. -/
def keysOfPath (path : String) : List String :=
  (Text.splitOn (· == '.') path.toList).map String.ofList

/-- The place that a dotted path leads to. -/
def path (p : Place) (path : String) : Place := p.follow (keysOfPath path)

def asString : Place → Option String
  | present (.string s) => some s
  | _ => none

/-- The integer at a place, if it is below `2 ^ 63`. -/
def asInteger : Place → Option Int
  | present (.number (.int n)) => if n < 0x8000000000000000 then some n else none
  | _ => none

/-- Whether a tree holds something: null, false, zero and whatever is empty do not. -/
def holds : Tree → Bool
  | .null => false
  | .bool b => b
  | .number n => n.isNonzero
  | .string s => !s.isEmpty
  | .sequence items => !items.toList.isEmpty
  | .mapping entries => !entries.toList.isEmpty
  | .tagged _ inner => holds inner

/-- Whether there is something at a place. -/
def isFilled : Place → Bool
  | absent => false
  | present tree => holds tree

@[simp] theorem get_absent (key : String) : absent.get key = absent := rfl

end Place

end EscapeRoom
