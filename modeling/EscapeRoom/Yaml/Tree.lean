import EscapeRoom.Number.Binary64

/-!
# The tree of a YAML document

A tree keeps the order of items and entries.  Keys are trees too; two keys are the same when no
mapping can hold both, which for mappings does not depend on the order of their entries.

* `Tree`, `Items`, `Entries` — the nodes, the items of a sequence and the entries of a mapping.
* `Items.toList`, `Entries.toList` — the list views.
* `Tree.same` — sameness of keys.
-/

namespace EscapeRoom.Yaml

/-- A number: an integer between `-2 ^ 63` and `2 ^ 64 - 1`, or a binary fraction. -/
inductive Number
  | int (n : Int)
  | float (x : Binary64)
  deriving DecidableEq

/-- Whether a number differs from zero. -/
def Number.isNonzero : Number → Bool
  | .int n => n != 0
  | .float x => !x.isZero

/-- Sameness of numbers; an integer is no fraction. -/
def Number.same : Number → Number → Bool
  | .int m, .int n => m == n
  | .float x, .float y => x.same y
  | _, _ => false

mutual

/-- A node with everything below it. -/
inductive Tree
  | null
  | bool (b : Bool)
  | number (n : Number)
  | string (s : String)
  | sequence (items : Items)
  | mapping (entries : Entries)
  /-- A node with a tag of the document's own. -/
  | tagged (tag : String) (inner : Tree)

/-- The items of a sequence. -/
inductive Items
  | nil
  | cons (head : Tree) (tail : Items)

/-- The entries of a mapping, each a key and a value. -/
inductive Entries
  | nil
  | cons (key value : Tree) (rest : Entries)

end

deriving instance DecidableEq for Tree, Items, Entries

namespace Items

def toList : Items → List Tree
  | nil => []
  | cons head tail => head :: tail.toList

def ofList : List Tree → Items
  | [] => nil
  | t :: ts => cons t (ofList ts)

@[simp] theorem toList_ofList (ts : List Tree) : (ofList ts).toList = ts := by
  induction ts with
  | nil => rfl
  | cons t ts ih => simp [ofList, toList, ih]

@[simp] theorem ofList_toList : ∀ items : Items, ofList items.toList = items
  | nil => rfl
  | cons _ tail => by simp [ofList, toList, ofList_toList tail]

end Items

namespace Entries

/-- The entries as a list of pairs. -/
def toList : Entries → List (Tree × Tree)
  | nil => []
  | cons key value rest => (key, value) :: rest.toList

/-- The entries of a list of pairs. -/
def ofList : List (Tree × Tree) → Entries
  | [] => nil
  | (key, value) :: rest => cons key value (ofList rest)

@[simp] theorem toList_ofList (es : List (Tree × Tree)) : (ofList es).toList = es := by
  induction es with
  | nil => rfl
  | cons e es ih => simp [ofList, toList, ih]

@[simp] theorem ofList_toList : ∀ entries : Entries, ofList entries.toList = entries
  | nil => rfl
  | cons _ _ rest => by simp [ofList, toList, ofList_toList rest]

/-- The value under a key that is a string. -/
def get? (name : String) : Entries → Option Tree
  | nil => none
  | cons key value rest => if key = .string name then some value else rest.get? name

end Entries

mutual

/-- Whether two trees are the same as keys. -/
def Tree.same : Tree → Tree → Bool
  | .null, .null => true
  | .bool a, .bool b => a == b
  | .number m, .number n => m.same n
  | .string s, .string t => s == t
  | .sequence xs, .sequence ys => xs.same ys.toList
  | .mapping xs, .mapping ys => xs.toList.length == ys.toList.length && xs.within ys.toList
  | .tagged s x, .tagged t y => s == t && x.same y
  | _, _ => false

/-- Whether two sequences have the same items in the same order. -/
def Items.same : Items → List Tree → Bool
  | .nil, [] => true
  | .cons x xs, y :: ys => x.same y && xs.same ys
  | _, _ => false

/-- Whether each entry of a mapping stands also in a list of entries. -/
def Entries.within : Entries → List (Tree × Tree) → Bool
  | .nil, _ => true
  | .cons key value rest, es => (es.any fun e => key.same e.1 && value.same e.2) && rest.within es

end

end EscapeRoom.Yaml
