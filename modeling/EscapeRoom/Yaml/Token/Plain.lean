import EscapeRoom.Yaml.Token

/-!
# Plain scalars

A plain scalar is a sequence of words without quotes.  It ends before `: `, before a comment,
before a document marker, where the indentation falls back, and in brackets before a bracket or a
comma.
-/

namespace EscapeRoom.Yaml

/-- The characters that end a plain scalar in brackets. -/
def isFlowIndicator (c : Char) : Bool := c == ',' || c == '[' || c == ']' || c == '{' || c == '}'

/-- The word at the front of a text, with a flag for text inside brackets. -/
def plainWord (flow : Bool) : List Char → Except Fault (List Char)
  | [] => .ok []
  | c :: rest =>
      if isSpaceOrTab c || isBreak c then .ok []
      else if flow && c == ':' && rest.head?.any (fun d => isFlowIndicator d || d == '?') then
        .error .ambiguousColon
      else if (c == ':' && atSpaceOrEnd rest) || (flow && isFlowIndicator c) then .ok []
      else (plainWord flow rest).map (c :: ·)

/-- Reads words and gaps until the scalar ends.  `back` is the text so far, backwards, and `gap`
the gap before the cursor.  The answer holds the text, the cursor past the last gap, and whether
that gap has a line break. -/
def readPlain (flow : Bool) (indent : Nat) :
    Nat → Cursor → List Char → Gap → Except Fault (List Char × Cursor × Bool)
  | 0, c, back, gap => .ok (back.reverse, c, gap.broken)
  | fuel + 1, c, back, gap =>
      if (c.column == 0 && atDocumentMarker c.rest) || c.at? '#' then
        .ok (back.reverse, c, gap.broken)
      else do
        let word ← plainWord flow c.rest
        if word.isEmpty then return (back.reverse, c, gap.broken)
        let back := word.reverseAux (gap.fold.reverseAux back)
        let c := c.skip word.length
        let (gap, after) ← Gap.read indent (fuel + 1) .none c
        if after.index == c.index then return (back.reverse, c, false)
        if !flow && after.column < indent then return (back.reverse, after, gap.broken)
        readPlain flow indent fuel after back gap

/-- The plain scalar at a cursor: its text, the cursor after it, and whether a line break was
passed on the way.  Outside brackets its lines have to begin at column `indent` or later.  The
first argument is at least the length of the rest. -/
def plainScalar (fuel : Nat) (flow : Bool) (indent : Nat) (c : Cursor) :
    Except Fault (List Char × Cursor × Bool) :=
  readPlain flow indent fuel c [] .none

end EscapeRoom.Yaml
