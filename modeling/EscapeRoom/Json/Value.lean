import EscapeRoom.Number.Digit

/-!
# JSON values and their text

A value is written in one of two ways: compactly, without any space, or indented by two spaces with
one member or item a line.  Members are written in the order in which they stand.  A string escapes
the quote, the backslash and the control characters below U+0020, and nothing else.

* `Json.Value` — the values; numbers are natural numbers.
* `Json.quoted` — the text of a string.
* `Json.Value.compact`, `Json.Value.pretty` — the two texts of a value.
-/

namespace EscapeRoom.Json

inductive Value
  | null
  | bool (b : Bool)
  | number (n : Nat)
  | string (s : String)
  | array (items : List Value)
  | object (members : List (String × Value))

/-- A character as it stands in a string. -/
def escaped (c : Char) : List Char :=
  if c = '"' then ['\\', '"']
  else if c = '\\' then ['\\', '\\']
  else if c = '\x08' then ['\\', 'b']
  else if c = '\t' then ['\\', 't']
  else if c = '\n' then ['\\', 'n']
  else if c = '\x0c' then ['\\', 'f']
  else if c = '\r' then ['\\', 'r']
  else if c.toNat < 0x20 then
    ['\\', 'u', '0', '0', Digit.lower (c.toNat / 16), Digit.lower (c.toNat % 16)]
  else [c]

/-- The text of a string. -/
def quoted (s : String) : List Char := '"' :: s.toList.flatMap escaped ++ ['"']

/-- The digits of a number. -/
def digits (n : Nat) : List Char := (toString n).toList

namespace Value

/-- The texts of a list with a separator between them. -/
def separated (sep : List Char) : List (List Char) → List Char
  | [] => []
  | [text] => text
  | text :: texts => text ++ sep ++ separated sep texts

mutual

/-- A value without spaces. -/
def compact : Value → List Char
  | null => ['n', 'u', 'l', 'l']
  | bool true => ['t', 'r', 'u', 'e']
  | bool false => ['f', 'a', 'l', 's', 'e']
  | number n => digits n
  | string s => quoted s
  | array items => '[' :: separated [','] (compactItems items) ++ [']']
  | object members => '{' :: separated [','] (compactMembers members) ++ ['}']

/-- The items of an array without spaces. -/
def compactItems : List Value → List (List Char)
  | [] => []
  | v :: vs => compact v :: compactItems vs

/-- The members of an object without spaces. -/
def compactMembers : List (String × Value) → List (List Char)
  | [] => []
  | (key, v) :: rest => (quoted key ++ ':' :: compact v) :: compactMembers rest

end

/-- A new line at a depth of indentation. -/
def newLine (depth : Nat) : List Char := '\n' :: List.replicate (2 * depth) ' '

/-- Texts in brackets, each on a line of its own; nothing stands between the brackets when there
are none. -/
def bracketed (openWith closeWith : Char) (depth : Nat) (texts : List (List Char)) : List Char :=
  if texts.isEmpty then [openWith, closeWith]
  else
    openWith :: newLine (depth + 1) ++ separated (',' :: newLine (depth + 1)) texts ++
      newLine depth ++ [closeWith]

mutual

/-- A value at a depth of indentation. -/
def prettyAt (depth : Nat) : Value → List Char
  | null => ['n', 'u', 'l', 'l']
  | bool true => ['t', 'r', 'u', 'e']
  | bool false => ['f', 'a', 'l', 's', 'e']
  | number n => digits n
  | string s => quoted s
  | array items => bracketed '[' ']' depth (prettyItems (depth + 1) items)
  | object members => bracketed '{' '}' depth (prettyMembers (depth + 1) members)

/-- The items of an array at a depth of indentation. -/
def prettyItems (depth : Nat) : List Value → List (List Char)
  | [] => []
  | v :: vs => prettyAt depth v :: prettyItems depth vs

/-- The members of an object at a depth of indentation. -/
def prettyMembers (depth : Nat) : List (String × Value) → List (List Char)
  | [] => []
  | (key, v) :: rest => (quoted key ++ ':' :: ' ' :: prettyAt depth v) :: prettyMembers depth rest

end

/-- A value with one item or member a line. -/
def pretty (v : Value) : List Char := prettyAt 0 v

end Value

end EscapeRoom.Json
