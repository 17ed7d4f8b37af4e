import EscapeRoom.Yaml.Cursor

/-!
# Tokens of a YAML text

Tokens are what the layout and the indicators of a text amount to: indentation has become
`blockMappingStart`, `blockSequenceStart` and `blockEnd`, and a `:` after a scalar has put a `key`
in front of that scalar.

Between two words of a plain or quoted scalar stand spaces, tabs and line breaks.  Spaces on one
line are kept, a single line break becomes a space, and further breaks are kept as they are.

* `Token` — the tokens.
* `Gap.read`, `Gap.fold` — what stands between two words, and what it contributes to the scalar.
-/

namespace EscapeRoom.Yaml

/-- One token.  Scalars carry their text with folding and escapes resolved. -/
inductive Token
  | streamEnd
  /-- A `%YAML` line with its two version numbers. -/
  | versionDirective (major minor : Nat)
  /-- A `%TAG` line: a handle and what it stands for. -/
  | tagDirective (handle : List Char) (expansion : List UInt8)
  | documentStart
  | documentEnd
  | blockSequenceStart
  | blockMappingStart
  | blockEnd
  | flowSequenceStart
  | flowSequenceEnd
  | flowMappingStart
  | flowMappingEnd
  | blockEntry
  | flowEntry
  | key
  | value
  | alias (name : List Char)
  | anchor (name : List Char)
  /-- A tag as written: its handle and the octets after it. -/
  | tag (handle : List Char) (suffix : List UInt8)
  /-- A scalar; `plain` when it was written without quotes and not as a block. -/
  | scalar (text : List Char) (plain : Bool)
  deriving DecidableEq

/-- What stands between two words of a scalar: the spaces of an unbroken line, the text of the
first line break, the texts of the others, and whether there is a first break at all. -/
structure Gap where
  spaces : List Char
  first : List Char
  others : List Char
  broken : Bool

namespace Gap

/-- Nothing between two words. -/
def none : Gap := ⟨[], [], [], false⟩

/-- A line break that an escape has taken back. -/
def escaped : Gap := ⟨[], [], [], true⟩

/-- What the gap contributes to the scalar. -/
def fold (g : Gap) : List Char :=
  if !g.broken then g.spaces
  else if g.first == ['\n'] then (if g.others.isEmpty then [' '] else g.others)
  else g.first ++ g.others

/-- Reads the gap at a cursor.  After a line break a tab may stand only from column `indent` on. -/
def read (indent : Nat) : Nat → Gap → Cursor → Except Fault (Gap × Cursor)
  | 0, g, c => .ok (g, c)
  | fuel + 1, g, c =>
      match c.rest with
      | [] => .ok (g, c)
      | ch :: _ =>
          if isSpaceOrTab ch then
            if g.broken then
              if ch == '\t' && c.column < indent then .error .tabIndentation
              else read indent fuel g (c.skip 1)
            else read indent fuel { g with spaces := g.spaces ++ [ch] } (c.skip 1)
          else if isBreak ch then
            let text := c.breakText
            if g.broken then read indent fuel { g with others := g.others ++ text } c.skipLine
            else read indent fuel { g with spaces := [], first := text, broken := true } c.skipLine
          else .ok (g, c)

end Gap

end EscapeRoom.Yaml
