import EscapeRoom.Json.Decoder
import EscapeRoom.Json.Value
import EscapeRoom.Ordered.Map

/-!
# Values of a type as JSON

A codec says how the values of a type are written and read.

A record is written as an object with its fields in a fixed order.  It is read from an object with
the fields in any order, each at most once, among members of other names; or from an array of the
field values in the fixed order.  An optional field is left out when it has no value.

* `Codec` — writing and reading; `Codec.string`, `bool`, `octet`, `list`, `map`, `octetMap` and
  `stringSet` are the simple ones.
* `Fields` — what is read of a record: a state that fills up member by member.
* `Fields.field`, `Fields.optionalField`, `Fields.and`, `Fields.iso` — records built from single
  fields.
* `Codec.record` — the codec of a record.
-/

namespace EscapeRoom.Json

/-- How the values of a type are written and read. -/
structure Codec (α : Type) where
  encode : α → Value
  decoder : Decoder α

namespace Codec

variable {α β : Type}

/-- The compact text of a value. -/
def write (c : Codec α) (a : α) : String := String.ofList (c.encode a).compact

/-- The value of a text that holds nothing else. -/
def read (c : Codec α) (text : String) : Except DecodeError α := c.decoder.run text.toList

def string : Codec String := ⟨.string, Json.string⟩

/-- Truth values. -/
def bool : Codec Bool := ⟨.bool, Json.bool⟩

/-- Numbers from 0 to 255. -/
def octet : Codec UInt8 := ⟨fun n => .number n.toNat, Json.octet⟩

/-- Arrays of values of one type. -/
def list (c : Codec α) : Codec (List α) := ⟨fun as => .array (as.map c.encode), Json.list c.decoder⟩

/-- Objects with values of one type; of two members with one key the later counts. -/
def map (c : Codec α) : Codec (OrderedMap String α) where
  encode m := .object (m.entries.map fun e => (e.1, c.encode e.2))
  decoder cs := do
    let (es, rest) ← entries c.decoder cs
    return (.ofList es, rest)

/-- Objects with values of one type under numbers from 0 to 255; of two members with one key the
later counts. -/
def octetMap (c : Codec α) : Codec (OrderedMap UInt8 α) where
  encode m := .object (m.entries.map fun e => (toString e.1, c.encode e.2))
  decoder cs := do
    let (es, rest) ← entriesWith octetKey c.decoder cs
    return (.ofList es, rest)

/-- Sets of strings as arrays, written in order; they may be read in any order and with repeats. -/
def stringSet : Codec (OrderedSet String) where
  encode s := .array (s.elements.map .string)
  decoder cs := do
    let (xs, rest) ← Json.list Json.string cs
    return (.ofList xs, rest)

/-- Another type with the same text. -/
def iso (c : Codec α) (f : α → β) (inverse : β → α) : Codec β where
  encode b := c.encode (inverse b)
  decoder cs := do
    let (a, rest) ← c.decoder cs
    return (f a, rest)

end Codec

/-- How a record of type `α` is written, and read by way of a state of type `σ`. -/
structure Fields (σ α : Type) where
  /-- Nothing has been read. -/
  start : σ
  /-- Whether a name is one of the fields. -/
  knows : String → Bool
  /-- Whether the field of a name has been read. -/
  has : String → σ → Bool
  /-- Reads the value of the field of a name. -/
  read : String → σ → Decoder σ
  /-- The names in their order. -/
  names : List String
  /-- The record, if every field that is needed has been read. -/
  finish : σ → Option α
  /-- The members that a record is written with. -/
  members : α → List (String × Value)

namespace Fields

variable {σ τ α β : Type}

/-- A single field. -/
def field (name : String) (c : Codec α) : Fields (Option α) α where
  start := none
  knows n := n == name
  has _ s := s.isSome
  read _ _ cs := (c.decoder cs).map fun r => (some r.1, r.2)
  names := [name]
  finish s := s
  members a := [(name, c.encode a)]

/-- A single field that may be `null` or missing. -/
def optionalField (name : String) (c : Codec α) : Fields (Option (Option α)) (Option α) where
  start := none
  knows n := n == name
  has _ s := s.isSome
  read _ _ cs := (optional c.decoder cs).map fun r => (some r.1, r.2)
  names := [name]
  finish s := some s.join
  members a := a.toList.map fun v => (name, c.encode v)

/-- The fields of one record and then those of another. -/
def and (f : Fields σ α) (g : Fields τ β) : Fields (σ × τ) (α × β) where
  start := (f.start, g.start)
  knows n := f.knows n || g.knows n
  has n s := if f.knows n then f.has n s.1 else g.has n s.2
  read n s cs :=
    if f.knows n then (f.read n s.1 cs).map fun r => ((r.1, s.2), r.2)
    else (g.read n s.2 cs).map fun r => ((s.1, r.1), r.2)
  names := f.names ++ g.names
  finish s := do return (← f.finish s.1, ← g.finish s.2)
  members p := f.members p.1 ++ g.members p.2

/-- The same fields for another type. -/
def iso (f : Fields σ α) (h : α → β) (inverse : β → α) : Fields σ β :=
  { f with
    finish := fun s => (f.finish s).map h
    members := fun b => f.members (inverse b) }

/-- Reads members up to the closing bracket. -/
def readMembers (f : Fields σ α) : Nat → Bool → σ → Decoder σ
  | 0, _, _, _ => .error .malformed
  | fuel + 1, first, s, cs => do
      let (more, cs) ← separator '}' first cs
      if !more then return (s, cs)
      let (key, cs) ← memberKey cs
      if f.knows key then
        if f.has key s then throw .unfit
        let (s, cs) ← f.read key s (← colon cs)
        readMembers f fuel false s cs
      else readMembers f fuel false s (← skipValue fuel (← colon cs))

/-- Reads the items of an array, for the fields of a list of names; the array may be shorter. -/
def readItems (f : Fields σ α) : List String → Bool → σ → Decoder σ
  | [], first, s, cs => do
      let (more, cs) ← separator ']' first cs
      if more then throw .malformed
      return (s, cs)
  | name :: names, first, s, cs => do
      let (more, rest) ← separator ']' first cs
      if more then
        let (s, cs) ← f.read name s rest
        readItems f names false s cs
      else if (f.finish s).isNone then throw .unfit
      else return (s, rest)

/-- The record at the front of a text. -/
def record (f : Fields σ α) : Decoder α := fun cs =>
  let finished (r : σ × List Char) : Except DecodeError (α × List Char) :=
    match f.finish r.1 with
    | some a => .ok (a, r.2)
    | none => .error .unfit
  match skipSpaces cs with
  | '{' :: rest => do finished (← f.readMembers (rest.length + 1) true f.start rest)
  | '[' :: rest => do finished (← f.readItems f.names true f.start rest)
  | cs => .error (wrongType cs)

end Fields

/-- A record as an object. -/
def Codec.record {σ α : Type} (f : Fields σ α) : Codec α :=
  ⟨fun a => .object (f.members a), f.record⟩

end EscapeRoom.Json
