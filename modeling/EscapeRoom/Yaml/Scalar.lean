import EscapeRoom.Yaml.Event
import EscapeRoom.Yaml.Token.Quoted
import EscapeRoom.Yaml.Tree
import EscapeRoom.Text.Utf8

/-!
# What a scalar denotes

A plain scalar is null, a boolean, an integer, a fraction or, when it is none of these, a string.
A scalar in another style is a string.  A tag of the standard overrides this, and a tag of the
document's own is kept as a `tagged` node.

* `integer?` — the integers, in bases 2, 8, 10 and 16, of at most 128 bits.
* `plainTree` — what a plain scalar denotes.
* `scalarTree` — the same for any scalar with its tag.
-/

namespace EscapeRoom.Yaml

/-- The plain spellings of null, the empty one apart. -/
def isNullWord (cs : List Char) : Bool :=
  ["~", "null", "Null", "NULL"].any fun w => w.toList == cs

/-- The plain spellings of the booleans. -/
def boolWord? (cs : List Char) : Option Bool :=
  if ["true", "True", "TRUE"].any fun w => w.toList == cs then some true
  else if ["false", "False", "FALSE"].any fun w => w.toList == cs then some false
  else none

/-- Whether a text is a zero and further digits, with an optional sign. -/
def isPaddedDigits (cs : List Char) : Bool :=
  let body :=
    match cs with
    | '-' :: r => r
    | '+' :: r => r
    | r => r
  match body with
  | '0' :: d :: ds => (d :: ds).all Char.isDigit
  | _ => false

/-- The number that digits of a base up to 16 spell; at least one digit. -/
def digitsNumber? (base : Nat) (cs : List Char) : Option Nat :=
  if cs.isEmpty then none else Digit.number? base cs

/-- The base that a prefix names, and the text after the prefix. -/
def splitBase : List Char → Nat × List Char
  | '0' :: 'x' :: rest => (16, rest)
  | '0' :: 'o' :: rest => (8, rest)
  | '0' :: 'b' :: rest => (2, rest)
  | cs => (10, cs)

/-- The integer that a plain scalar spells, if it fits 128 bits. -/
def integer? (cs : List Char) : Option Int := do
  let (negative, body) :=
    match cs with
    | '-' :: r => (true, r)
    | '+' :: r => (false, r)
    | r => (false, r)
  let (base, digits) := splitBase body
  if base == 10 && isPaddedDigits cs then none
  else do
    let n ← digitsNumber? base digits
    if negative then (if n ≤ Nat.pow 2 127 then some (-(n : Int)) else none)
    else if n < Nat.pow 2 128 then some (n : Int) else none

/-- Whether an integer can stand in a tree. -/
def fitsTree (n : Int) : Bool := -0x8000000000000000 ≤ n && n < 0x10000000000000000

/-- The fraction that a text spells; infinities and `nan` have words of their own, and a decimal
text beyond the largest number is no fraction. -/
def fraction? (cs : List Char) : Option Binary64 :=
  let body :=
    match cs with
    | '+' :: r => r
    | r => r
  if [".inf", ".Inf", ".INF"].any fun w => w.toList == body then some (.infinite false)
  else if ["-.inf", "-.Inf", "-.INF"].any fun w => w.toList == cs then some (.infinite true)
  else if [".nan", ".NaN", ".NAN"].any fun w => w.toList == cs then some .nan
  else if cs.head? == some '+' && (body.head? == some '+' || body.head? == some '-') then none
  else (Binary64.ofText? body).filter Binary64.isFinite

/-- What a plain scalar denotes. -/
def plainTree (cs : List Char) : Except Fault Tree :=
  if cs.isEmpty || isNullWord cs then .ok .null
  else
    match boolWord? cs with
    | some b => .ok (.bool b)
    | none =>
        match integer? cs with
        | some n => if fitsTree n then .ok (.number (.int n)) else .error .integerOutOfRange
        | none =>
            match if isPaddedDigits cs then none else fraction? cs with
            | some x => .ok (.number (.float x))
            | none => .ok (.string (String.ofList cs))

/-- What a tag asks for. -/
inductive TagKind
  /-- A type of the standard that scalars have to fit. -/
  | null
  | bool
  | int
  | float
  /-- A tag of the document's own, with its name. -/
  | named (name : String)
  /-- Any other tag; scalars under it are strings. -/
  | other
  /-- A tag of the document's own whose octets are no text; it is passed over. -/
  | garbled
  deriving DecidableEq

/-- A tag name without its exclamation mark, unless it is nothing but that. -/
def bareTag (name : List Char) : List Char :=
  match name with
  | '!' :: c :: rest => c :: rest
  | _ => name

/-- What a resolved tag asks for. -/
def TagKind.ofOctets (tag : List UInt8) : TagKind :=
  if tag = octetsOf "tag:yaml.org,2002:null" then .null
  else if tag = octetsOf "tag:yaml.org,2002:bool" then .bool
  else if tag = octetsOf "tag:yaml.org,2002:int" then .int
  else if tag = octetsOf "tag:yaml.org,2002:float" then .float
  else if tag.head? = some 33 then
    match Text.Utf8.decode? tag with
    | some name => .named (String.ofList (bareTag (bareTag name)))
    | none => .garbled
  else .other

/-- What a scalar denotes under a tag, which the flag `bare` disables. -/
def scalarTree (bare : Bool) (tag : Option TagKind) (text : List Char) (plain : Bool) :
    Except Fault Tree :=
  let untagged : Except Fault Tree :=
    if plain then plainTree text else .ok (.string (String.ofList text))
  match if bare then none else tag with
  | none => untagged
  | some .null => if isNullWord text then .ok .null else .error .unfitScalar
  | some .bool =>
      match boolWord? text with
      | some b => .ok (.bool b)
      | none => .error .unfitScalar
  | some .int =>
      match integer? text with
      | some n => if fitsTree n then .ok (.number (.int n)) else .error .integerOutOfRange
      | none => .error .unfitScalar
  | some .float =>
      match fraction? text with
      | some x => .ok (.number (.float x))
      | none => .error .unfitScalar
  | some (.named name) => untagged.map (.tagged name)
  | some .other => .ok (.string (String.ofList text))
  | some .garbled => untagged

end EscapeRoom.Yaml
