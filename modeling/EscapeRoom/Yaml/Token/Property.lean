import EscapeRoom.Yaml.Cursor
import EscapeRoom.Yaml.Token
import EscapeRoom.Yaml.Token.Quoted

/-!
# Anchors, tags and directives

The tokens that annotate a node or a document.  A tag is kept as octets, because percent escapes
in it spell octets; they have to group into sequences of the lengths that UTF-8 has.
-/

namespace EscapeRoom.Yaml

/-- Whether a name may end in front of a text. -/
def endsName : List Char → Bool
  | [] => true
  | c :: _ => isSpaceOrTab c || isBreak c || c == '?' || c == ':' || c == ',' || c == ']' ||
      c == '}' || c == '%' || c == '@' || c.toNat == 0x60

/-- The name after a `&` or `*` and the cursor past it. -/
def anchorName (c : Cursor) : Except Fault (List Char × Cursor) :=
  let c := c.skip 1
  let name := c.rest.takeWhile isNameChar
  let c := c.skip name.length
  if name.isEmpty || !endsName c.rest then .error .malformedAnchor else .ok (name, c)

/-- The characters of a tag; between `<` and `>` also commas and square brackets. -/
def isTagChar (verbatim : Bool) (c : Char) : Bool :=
  isNameChar c || [';', '/', '?', ':', '@', '&', '=', '+', '$', '.', '!', '~', '*', '\'', '(', ')',
    '%'].contains c || (verbatim && [',', '[', ']'].contains c)

/-- How many octets a sequence has whose first octet is `octet`. -/
def sequenceLength? (octet : Nat) : Option Nat :=
  if octet < 0x80 then some 1
  else if 0xC0 ≤ octet && octet < 0xE0 then some 2
  else if 0xE0 ≤ octet && octet < 0xF0 then some 3
  else if 0xF0 ≤ octet && octet < 0xF8 then some 4
  else none

/-- The octets that the tag characters at the front of a text spell, and how many characters those
are.  The number counts the octets that a sequence still lacks. -/
def tagOctets (verbatim : Bool) : Nat → List Char → Except Fault (List UInt8 × Nat)
  | pending, '%' :: a :: b :: rest => do
      let some octet := Digit.number? 16 [a, b] | throw .malformedTag
      let next ←
        match pending with
        | n + 1 => if 0x80 ≤ octet && octet < 0xC0 then pure n else throw Fault.malformedTag
        | 0 =>
            match sequenceLength? octet with
            | some n => pure (n - 1)
            | none => throw Fault.malformedTag
      let (octets, n) ← tagOctets verbatim next rest
      return (UInt8.ofNat octet :: octets, n + 3)
  | _ + 1, _ => .error .malformedTag
  | 0, [] => .ok ([], 0)
  | 0, c :: rest =>
      if c == '%' then .error .malformedTag
      else if isTagChar verbatim c then do
        let (octets, n) ← tagOctets verbatim 0 rest
        return (UInt8.ofNat c.toNat :: octets, n + 1)
      else .ok ([], 0)

/-- A handle at the front of a text: `!`, name characters, and a closing `!` if there is one. -/
def tagHandle? : List Char → Option (List Char)
  | '!' :: rest =>
      let name := rest.takeWhile isNameChar
      let closing := (rest.drop name.length).head? == some '!'
      some ('!' :: name ++ if closing then ['!'] else [])
  | _ => none

/-- Whether a handle has the form `!name!` or `!!`. -/
def isNamedHandle (handle : List Char) : Bool :=
  2 ≤ handle.length && handle.getLast? == some '!'

/-- The tag at a cursor, in one of the forms `!<octets>`, `!handle!octets` and `!octets`. -/
def tagToken (flow : Bool) (c : Cursor) : Except Fault (Token × Cursor) := do
  let (token, c) ←
    match c.rest with
    | '!' :: '<' :: rest => do
        let (octets, n) ← tagOctets true 0 rest
        let c := c.skip (n + 2)
        if octets.isEmpty || !c.at? '>' then throw Fault.malformedTag
        pure (Token.tag [] octets, c.skip 1)
    | _ => do
        let some handle := tagHandle? c.rest | throw .malformedTag
        let c := c.skip handle.length
        let (octets, n) ← tagOctets false 0 c.rest
        let c := c.skip n
        if isNamedHandle handle then
          if octets.isEmpty then throw Fault.malformedTag
          pure (Token.tag handle octets, c)
        else
          let suffix := handle.tail.map (fun d => UInt8.ofNat d.toNat) ++ octets
          pure (if suffix.isEmpty then Token.tag [] [33] else Token.tag ['!'] suffix, c)
  if atSpaceOrEnd c.rest || (flow && c.at? ',') then return (token, c)
  throw .malformedTag

/-- A version number of at most nine digits, and the cursor past it. -/
def versionNumber (c : Cursor) : Except Fault (Nat × Cursor) :=
  let digits := c.rest.takeWhile Char.isDigit
  if digits.isEmpty || 9 < digits.length then .error .malformedDirective
  else .ok (digits.foldl (fun n d => n * 10 + (d.toNat - '0'.toNat)) 0, c.skip digits.length)

/-- The `%` line at a cursor, up to the next line. -/
def directiveToken (c : Cursor) : Except Fault (Token × Cursor) := do
  let c := c.skip 1
  let name := c.rest.takeWhile isNameChar
  let c := c.skip name.length
  if name.isEmpty || !atSpaceOrEnd c.rest then throw .malformedDirective
  let (token, c) ←
    if name == "YAML".toList then do
      let (major, c) ← versionNumber (c.skipSpan isSpaceOrTab)
      if !c.at? '.' then throw Fault.malformedDirective
      let (minor, c) ← versionNumber (c.skip 1)
      pure (Token.versionDirective major minor, c)
    else if name == "TAG".toList then do
      let c := c.skipSpan isSpaceOrTab
      let some handle := tagHandle? c.rest | throw .malformedDirective
      if !isNamedHandle handle && handle != ['!'] then throw Fault.malformedDirective
      let c := c.skip handle.length
      if !c.rest.head?.any isSpaceOrTab then throw Fault.malformedDirective
      let c := c.skipSpan isSpaceOrTab
      let (octets, n) ← tagOctets true 0 c.rest
      let c := c.skip n
      if octets.isEmpty || !atSpaceOrEnd c.rest then throw Fault.malformedDirective
      pure (Token.tagDirective handle octets, c)
    else throw .malformedDirective
  let c := c.skipSpan isSpaceOrTab
  let c := if c.at? '#' then c.skipSpan (fun d => !isBreak d) else c
  if !atBreakOrEnd c.rest then throw .malformedDirective
  return (token, c.skipLine)

end EscapeRoom.Yaml
