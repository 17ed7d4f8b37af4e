/-!
# Media types

A media type is a type and a subtype, and then parameters.  All that matters here is whether it is
well formed and announces JSON: `application/json` does, and so does a subtype that ends in `+json`.

* `MediaType.isJson` — the question.
-/

namespace EscapeRoom.MediaType

/-- A character of a name. -/
def isToken (c : Char) : Bool := c.isAlphanum || "!#$&-^_.+%*|~\x27\x60".toList.contains c

/-- A character that may stand in quotes. -/
def isPrintable (c : Char) : Bool := 0x20 ≤ c.toNat && c.toNat < 0x7F

/-- Where the reader of parameters stands. -/
inductive Stage
  /-- Before a name. -/
  | start
  /-- Within a name. -/
  | name
  /-- Before a value. -/
  | value
  /-- Within a value without quotes. -/
  | token
  /-- Within a quoted value; the flag tells whether it is still empty. -/
  | quoted (empty : Bool)
  /-- After a backslash in a quoted value. -/
  | escaped
  /-- After a quoted value. -/
  | closed
  deriving DecidableEq

/-- Whether a text is a list of parameters, seen from a stage. -/
def isParameters : Stage → List Char → Bool
  | .start, [] => true
  | .name, [] => false
  | .value, [] => true
  | .token, [] => true
  | .quoted _, [] => false
  | .escaped, [] => false
  | .closed, [] => true
  | .start, c :: rest =>
      if c == ' ' then isParameters .start rest
      else isToken c && isParameters .name rest
  | .name, c :: rest =>
      if c == '=' then isParameters .value rest else isToken c && isParameters .name rest
  | .value, c :: rest =>
      if c == '"' then isParameters (.quoted true) rest else isToken c && isParameters .token rest
  | .token, c :: rest =>
      if c == ';' then isParameters .start rest else isToken c && isParameters .token rest
  | .quoted empty, c :: rest =>
      if c == '"' && !empty then isParameters .closed rest
      else if c == '\\' then isParameters .escaped rest
      else isPrintable c && isParameters (.quoted false) rest
  | .escaped, c :: rest => isPrintable c && isParameters (.quoted false) rest
  | .closed, c :: rest =>
      if c == ';' then isParameters .start rest else c == ' ' && isParameters .closed rest

/-- Whether a subtype is JSON or has the suffix of JSON.  A plus in front starts no suffix. -/
def isJsonSubtype (subtype : List Char) : Bool :=
  let fromEnd := subtype.reverse
  let suffix := (fromEnd.takeWhile (· != '+')).reverse
  let front := ((fromEnd.dropWhile (· != '+')).drop 1).reverse
  if front.isEmpty then subtype == "json".toList
  else suffix == "json".toList || front == "json".toList

/-- Whether a media type is well formed and announces JSON. -/
def isJson (text : String) : Bool :=
  let cs := text.toLower.toList
  let family := cs.takeWhile (· != '/')
  match cs.drop family.length with
  | '/' :: rest =>
      let subtype := rest.takeWhile (· != ';')
      family == "application".toList && subtype.all isToken && isJsonSubtype subtype &&
        match rest.drop subtype.length with
        | ';' :: parameters => isParameters .start parameters
        | _ => true
  | _ => false

end EscapeRoom.MediaType
