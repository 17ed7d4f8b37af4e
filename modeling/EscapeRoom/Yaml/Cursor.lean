import EscapeRoom.Yaml.Fault

/-!
# Positions in a YAML text

A cursor is the rest of a text with the position it begins at.  Indentation is counted in columns
and the reach of a key in characters, so every move keeps the counts in step.

* `isBreak`, `isSpaceOrTab`, `atSpaceOrEnd` — the character classes of the token rules.
* `Cursor.skip`, `Cursor.skipLine`, `Cursor.skipSpan` — moves within a line and past its end.
* `Source.ofText` — the characters that can be read before a forbidden one is met.
-/

namespace EscapeRoom.Yaml

/-- Line breaks: carriage return, line feed, next line, line separator, paragraph separator. -/
def isBreak (c : Char) : Bool :=
  c == '\n' || c == '\r' || c == '\u0085' || c == '\u2028' || c == '\u2029'

/-- The two characters that separate tokens on a line. -/
def isSpaceOrTab (c : Char) : Bool := c == ' ' || c == '\t'

/-- A character of directive names, anchors and tag handles. -/
def isNameChar (c : Char) : Bool := c.isAlphanum || c == '_' || c == '-'

/-- Whether a text is at a line break or at its end. -/
def atBreakOrEnd : List Char → Bool
  | [] => true
  | c :: _ => isBreak c

/-- Whether a text is at a space, a tab, a line break or its end. -/
def atSpaceOrEnd : List Char → Bool
  | [] => true
  | c :: _ => isSpaceOrTab c || isBreak c

/-- Whether a text begins with `---` or `...`, alone or before a space. -/
def atDocumentMarker : List Char → Bool
  | '-' :: '-' :: '-' :: rest => atSpaceOrEnd rest
  | '.' :: '.' :: '.' :: rest => atSpaceOrEnd rest
  | _ => false

/-- The characters that a YAML text may hold. -/
def isAllowed (c : Char) : Bool :=
  c == '\t' || c == '\n' || c == '\r' || (' ' ≤ c && c ≤ '~') || c == '\u0085' ||
    ('\u00a0' ≤ c && c ≤ '\ufffd') || 0x10000 ≤ c.toNat

/-- The rest of a text and the position at which it begins. -/
structure Cursor where
  rest : List Char
  index : Nat
  line : Nat
  column : Nat
  deriving DecidableEq

namespace Cursor

/-- The start of a text. -/
def start (cs : List Char) : Cursor := ⟨cs, 0, 0, 0⟩

/-- Past `n` characters of one line. -/
def skip (c : Cursor) (n : Nat) : Cursor :=
  { c with rest := c.rest.drop n, index := c.index + n, column := c.column + n }

/-- Past the characters at the front that `p` accepts, none of them a line break. -/
def skipSpan (c : Cursor) (p : Char → Bool) : Cursor := c.skip (c.rest.takeWhile p).length

/-- Past the line break at the front, if there is one; a carriage return and a line feed are one. -/
def skipLine (c : Cursor) : Cursor :=
  match c.rest with
  | '\r' :: '\n' :: rest => ⟨rest, c.index + 2, c.line + 1, 0⟩
  | b :: rest => if isBreak b then ⟨rest, c.index + 1, c.line + 1, 0⟩ else c
  | [] => c

/-- What the line break at the front contributes to a scalar: a line feed, except that the two
separators of Unicode stand for themselves. -/
def breakText (c : Cursor) : List Char :=
  match c.rest with
  | [] => []
  | b :: _ => if b == '\u2028' || b == '\u2029' then [b] else if isBreak b then ['\n'] else []

/-- Whether the cursor is at a line break. -/
def atBreak (c : Cursor) : Bool := c.rest.head?.any isBreak

/-- Whether the cursor is at `ch`. -/
def at? (c : Cursor) (ch : Char) : Bool := c.rest.head? == some ch

end Cursor

/-- How many octets are read at a time. -/
def blockSize : Nat := 16384

/-- The readable part of a text, and whether a forbidden character ends it early. -/
structure Source where
  chars : List Char
  broken : Bool
  deriving DecidableEq

/-- A block is refused as a whole for one forbidden character.  `kept` are the characters of the
accepted blocks, `block` those of the current one, both backwards, and `size` its octets. -/
def Source.read (kept block : List Char) (size : Nat) : List Char → Source
  | [] => ⟨(block ++ kept).reverse, false⟩
  | c :: cs =>
      if !isAllowed c then ⟨kept.reverse, true⟩
      else if blockSize < size + c.utf8Size then Source.read (block ++ kept) [c] c.utf8Size cs
      else Source.read kept (c :: block) (size + c.utf8Size) cs

/-- The readable part of a text, block by block. -/
def Source.ofText (cs : List Char) : Source := Source.read [] [] 0 cs

end EscapeRoom.Yaml
