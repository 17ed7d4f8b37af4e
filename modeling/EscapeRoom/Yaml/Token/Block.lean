import EscapeRoom.Yaml.Cursor

/-!
# Block scalars

A block scalar begins with `|` or `>` and holds the indented lines that follow.  A `|` keeps line
breaks, a `>` folds those between two lines that both begin with a word.  The header may fix the
indentation and say which of the last line breaks are kept.
-/

namespace EscapeRoom.Yaml

/-- Which line breaks at the end of a block scalar are kept. -/
inductive Chomping
  /-- None. -/
  | strip
  /-- The first one. -/
  | clip
  /-- All of them. -/
  | keep
  deriving DecidableEq

/-- The chomping that a header character asks for. -/
def chomping? : Char → Option Chomping
  | '+' => some .keep
  | '-' => some .strip
  | _ => none

/-- The header after the `|` or `>`: chomping, fixed indentation (zero for none), and its length. -/
def blockHeader (cs : List Char) : Except Fault (Chomping × Nat × Nat) :=
  let digit? (c : Char) : Option Nat := if c.isDigit then some (c.toNat - '0'.toNat) else none
  let checked (chomp : Chomping) (n len : Nat) : Except Fault (Chomping × Nat × Nat) :=
    if n == 0 then .error .malformedBlockHeader else .ok (chomp, n, len)
  match cs with
  | [] => .ok (.clip, 0, 0)
  | c :: rest =>
      match chomping? c with
      | some chomp =>
          match rest.head?.bind digit? with
          | some n => checked chomp n 2
          | none => .ok (chomp, 0, 1)
      | none =>
          match digit? c with
          | none => .ok (.clip, 0, 0)
          | some n =>
              match rest.head?.bind chomping? with
              | some chomp => checked chomp n 2
              | none => checked .clip n 1

/-- Past spaces, tabs and a comment, up to the end of the line, and past its break. -/
def skipToNextLine (c : Cursor) : Option Cursor :=
  let c := c.skipSpan isSpaceOrTab
  let c := if c.at? '#' then c.skipSpan (fun d => !isBreak d) else c
  if atBreakOrEnd c.rest then some c.skipLine else none

/-- Passes indentation and empty lines.  `indent` is zero while the indentation is still open;
`deepest` is the deepest column seen.  The answer holds the breaks, the cursor and the deepest
column. -/
def blockBreaks (indent : Nat) :
    Nat → Nat → List Char → Cursor → Except Fault (List Char × Cursor × Nat)
  | 0, deepest, breaks, c => .ok (breaks, c, deepest)
  | fuel + 1, deepest, breaks, c =>
      let spaces := (c.rest.takeWhile (· == ' ')).length
      let c := c.skip (if indent == 0 then spaces else min spaces (indent - c.column))
      let deepest := max deepest c.column
      if (indent == 0 || c.column < indent) && c.at? '\t' then .error .tabIndentation
      else if c.atBreak then
        blockBreaks indent fuel deepest (breaks ++ c.breakText) c.skipLine
      else .ok (breaks, c, deepest)

/-- A block scalar while it is read: the text of its lines, backwards, the break that ended the
last line, the empty lines after it, and whether the last line began with a blank. -/
structure BlockText where
  back : List Char
  lastBreak : List Char
  emptyLines : List Char
  blank : Bool

/-- The text, backwards, once a line follows.  In a folded scalar a single break between two lines
that begin with a word becomes a space. -/
def BlockText.join (b : BlockText) (literal blankNext : Bool) : List Char :=
  let breaks :=
    if !literal && b.lastBreak == ['\n'] && !b.blank && !blankNext then
      if b.emptyLines.isEmpty then [' '] else b.emptyLines
    else b.lastBreak ++ b.emptyLines
  breaks.reverseAux b.back

/-- Reads the lines that begin at column `indent`. -/
def blockLines (literal : Bool) (indent : Nat) :
    Nat → BlockText → Cursor → Except Fault (BlockText × Cursor)
  | 0, b, c => .ok (b, c)
  | fuel + 1, b, c =>
      if c.column != indent || c.rest.isEmpty then .ok (b, c)
      else do
        let blank := c.rest.head?.any isSpaceOrTab
        let line := c.rest.takeWhile fun d => !isBreak d
        let back := line.reverseAux (b.join literal blank)
        let c := c.skip line.length
        let lastBreak := c.breakText
        let c := c.skipLine
        let (emptyLines, c, _) ← blockBreaks indent (fuel + 1) 0 [] c
        blockLines literal indent fuel ⟨back, lastBreak, emptyLines, blank⟩ c

/-- The block scalar at a cursor.  `parent` is the indentation around it, `-1` at the top.  The
first argument is at least the length of the rest. -/
def blockScalar (fuel : Nat) (literal : Bool) (parent : Int) (c : Cursor) :
    Except Fault (List Char × Cursor) := do
  let c := c.skip 1
  let (chomp, fixed, length) ← blockHeader c.rest
  let some c := skipToNextLine (c.skip length) | throw .malformedBlockHeader
  let indent := if fixed == 0 then 0 else parent.toNat + fixed
  let (emptyLines, c, deepest) ← blockBreaks indent fuel 0 [] c
  let indent := if indent == 0 then max (max deepest (parent + 1).toNat) 1 else indent
  let (b, c) ← blockLines literal indent fuel ⟨[], [], emptyLines, false⟩ c
  let tail :=
    match chomp with
    | .strip => []
    | .clip => b.lastBreak
    | .keep => b.lastBreak ++ b.emptyLines
  return (b.back.reverse ++ tail, c)

end EscapeRoom.Yaml
