import EscapeRoom.Toml.Value

/-!
# Documents

A document is a list of statements, one a line: a header that opens a table, or an entry of the
table that is open.  Together they define what is at each place, and no place is defined twice.

* `Statement`, `statements` — the statements of a text.
* `Definitions.add` — what a statement defines, and the rules against defining anything twice.
* `Definitions.ofText?` — the definitions of a text.
-/

namespace EscapeRoom.Toml

/-! ### Statements -/

/-- A line of a document. -/
inductive Statement
  /-- A header in brackets, which opens a table. -/
  | header (path : List String)
  /-- A header in double brackets, which opens a further table of a list. -/
  | item (path : List String)
  /-- A value under the keys that lead to it. -/
  | entry (path : List String) (value : Value)

/-- Whether a text begins with the end of a line or a comment. -/
def endsLine : List Char → Bool
  | [] => true
  | c :: rest => c == '#' || isBreak c rest.head?

/-- The statement at the front of a text. -/
def statement : Reader Statement := fun cs =>
  match cs with
  | '[' :: '[' :: rest => do
      let (path, rest) ← keyPath rest
      match rest with
      | ']' :: ']' :: rest => return (.item path, rest)
      | _ => none
  | '[' :: rest => do
      let (path, rest) ← keyPath rest
      match rest with
      | ']' :: rest => return (.header path, rest)
      | _ => none
  | cs => do
      let ((path, v), rest) ← entry (value nestingLimit) cs
      return (.entry path v, rest)

/-- The statements of a text, up to so many. -/
def statementsUpTo : Nat → List Char → Option (List Statement)
  | 0, _ => none
  | fuel + 1, cs =>
      match skipGap false cs with
      | [] => some []
      | c :: cs => do
          let (s, rest) ← statement (c :: cs)
          let rest := skipBlanks rest
          if endsLine rest then return s :: (← statementsUpTo fuel rest) else none

/-- The statements of a text.  A byte order mark in front does not count. -/
def statements? (text : List Char) : Option (List Statement) :=
  let cs :=
    match text with
    | '\ufeff' :: rest => rest
    | cs => cs
  statementsUpTo (cs.length + 1) cs

/-! ### Definitions -/

/-- A step from a table to what it contains. -/
inductive Step
  /-- To what is under a key. -/
  | key (name : String)
  /-- To a table of a list. -/
  | item (index : Nat)
  deriving DecidableEq

/-- How a table came to be. -/
inductive Origin
  /-- By a header. -/
  | header
  /-- On the way of a header to another table. -/
  | passage
  /-- By an entry of several keys. -/
  | entry
  deriving DecidableEq

/-- What is at a place. -/
inductive Definition
  | value (v : Value)
  | table (origin : Origin)
  /-- A list of so many tables, one for each header in double brackets. -/
  | tables (count : Nat)

/-- What is at each place, the latest definition first. -/
structure Definitions where
  entries : List (List Step × Definition)

namespace Definitions

/-- A document without a statement. -/
def empty : Definitions := ⟨[]⟩

def find? (d : Definitions) (place : List Step) : Option Definition :=
  (d.entries.find? fun e => e.1 == place).map Prod.snd

/-- Puts a definition at a place. -/
def put (d : Definitions) (place : List Step) (definition : Definition) : Definitions :=
  ⟨(place, definition) :: d.entries⟩

def isTable (d : Definitions) (place : List Step) (origin : Origin) : Bool :=
  match d.find? place with
  | some (.table o) => o == origin
  | _ => false

/-- Follows keys from a place to a table, and makes the tables that are missing.  A list of tables
leads to its last one.  An entry does not lead into a table that has a header. -/
def descend (byEntry : Bool) (d : Definitions) (place : List Step) :
    List String → Option (Definitions × List Step)
  | [] => some (d, place)
  | name :: rest =>
      let next := place ++ [.key name]
      match d.find? next with
      | none =>
          (d.put next (.table (if byEntry then .entry else .passage))).descend byEntry next rest
      | some (.table origin) =>
          if byEntry && origin == .header then none else d.descend byEntry next rest
      | some (.tables count) => d.descend byEntry (next ++ [.item (count - 1)]) rest
      | some (.value _) => none

/-- Adds an entry to the table at a place.  If it has several keys, the last but one leads to a
table that entries have made. -/
def addEntry (d : Definitions) (place : List Step) (path : List String) (v : Value) :
    Option Definitions := do
  let last ← path.getLast?
  let (d, table) ← d.descend true place path.dropLast
  if path.length != 1 && !d.isTable table .entry then none
  let target := table ++ [.key last]
  if (d.find? target).isSome then none
  return d.put target (.value v)

/-- Opens a table: a new one, or one that another header has passed through. -/
def openTable (d : Definitions) (path : List String) : Option (Definitions × List Step) := do
  let last ← path.getLast?
  let (d, table) ← d.descend false [] path.dropLast
  let target := table ++ [.key last]
  if (d.find? target).isSome && !d.isTable target .passage then none
  return (d.put target (.table .header), target)

/-- Opens a further table of a list. -/
def openItem (d : Definitions) (path : List String) : Option (Definitions × List Step) := do
  let last ← path.getLast?
  let (d, table) ← d.descend false [] path.dropLast
  let target := table ++ [.key last]
  let count ←
    match d.find? target with
    | none => some 0
    | some (.tables count) => some count
    | some _ => none
  let item := target ++ [.item count]
  return ((d.put target (.tables (count + 1))).put item (.table .header), item)

/-- What statements define, where the table at a place is open. -/
def add (d : Definitions) (place : List Step) : List Statement → Option Definitions
  | [] => some d
  | .entry path v :: rest => do (← d.addEntry place path v).add place rest
  | .header path :: rest => do
      let (d, place) ← d.openTable path
      d.add place rest
  | .item path :: rest => do
      let (d, place) ← d.openItem path
      d.add place rest

def ofText? (text : String) : Option Definitions := do
  empty.add [] (← statements? text.toList)

/-- The value under a key, as `read` takes it, or `default` without the key. -/
def field {α : Type} (d : Definitions) (key : String) (default : α) (read : Value → Option α) :
    Option α :=
  match d.find? [.key key] with
  | none => some default
  | some (.value v) => read v
  | some _ => none

end Definitions

end EscapeRoom.Toml
