import EscapeRoom.Yaml.Token.Plain
import EscapeRoom.Yaml.Token.Block
import EscapeRoom.Yaml.Token.Property

/-!
# From characters to tokens

The lexer walks over a text once.  Two things make a YAML text more than a list of words: the
indentation opens and closes collections, and a scalar turns out to be a key only when the `:`
after it is reached.  Until then the place of a possible key is remembered for each level of
brackets, and a `key` token is put there later.

A text may be at fault behind tokens that are already settled.  `Lexer.settled` counts the tokens
that no later character can change; those in front of a fault are still delivered, so that what
stands there can be judged first.

* `Lexer.next` — the tokens of one more lexeme.
* `Token.ofSource` — all tokens of a text, and the fault that ends it early.
-/

namespace EscapeRoom.Yaml

/-- A place where a key may begin. -/
structure KeyPlace where
  /-- Whether only a key can stand here. -/
  required : Bool
  /-- How many tokens come before it. -/
  number : Nat
  index : Nat
  line : Nat
  column : Nat
  deriving DecidableEq

/-- A key may reach over one line and 1024 characters. -/
def KeyPlace.isStale (k : KeyPlace) (c : Cursor) : Bool :=
  k.line < c.line || k.index + 1024 < c.index

/-- The state of the walk over a text. -/
structure Lexer where
  cursor : Cursor
  /-- The tokens so far, the last one first. -/
  back : List Token
  /-- How many tokens there are. -/
  count : Nat
  /-- The tokens that are final. -/
  settled : Nat
  /-- The column of the innermost block collection, `-1` outside. -/
  indent : Int
  /-- The columns around it, from the inside out. -/
  outer : List Int
  /-- The possible key of each level of brackets, the innermost first; one more than levels. -/
  keys : List (Option KeyPlace)
  /-- Whether a key may begin here. -/
  keyAllowed : Bool

namespace Lexer

/-- The walk before its first step. -/
def start (cs : List Char) : Lexer :=
  { cursor := .start cs, back := [], count := 0, settled := 0, indent := -1, outer := [],
    keys := [none], keyAllowed := true }

/-- Whether the cursor is inside brackets. -/
def inFlow (l : Lexer) : Bool := 1 < l.keys.length

/-- Adds a token at the end. -/
def push (l : Lexer) (t : Token) : Lexer := { l with back := t :: l.back, count := l.count + 1 }

/-- A list with `t` put behind its first `n` elements. -/
def insertAt (t : Token) : Nat → List Token → List Token
  | 0, ts => t :: ts
  | _ + 1, [] => [t]
  | n + 1, u :: ts => u :: insertAt t n ts

/-- Adds a token in front of the token with a number. -/
def insert (l : Lexer) (number : Nat) (t : Token) : Lexer :=
  { l with back := insertAt t (l.count - number) l.back, count := l.count + 1 }

/-- Forgets the possible keys that are out of reach; a required one must not be among them. -/
def dropStale (l : Lexer) : Except Fault Lexer := do
  if l.keys.any (fun key => key.any fun k => k.isStale l.cursor && k.required) then
    throw .unfinishedKey
  return { l with keys := l.keys.map fun key => key.filter fun k => !k.isStale l.cursor }

/-- Forgets the possible key of the innermost level, which must not be required. -/
def dropKey (l : Lexer) : Except Fault Lexer :=
  match l.keys with
  | some k :: rest =>
      if k.required then .error .unfinishedKey else .ok { l with keys := none :: rest }
  | _ => .ok l

/-- Remembers the cursor as the place of a possible key, where one may begin. -/
def saveKey (l : Lexer) : Except Fault Lexer := do
  if !l.keyAllowed then return l
  let place : KeyPlace :=
    { required := !l.inFlow && l.indent == l.cursor.column, number := l.count,
      index := l.cursor.index, line := l.cursor.line, column := l.cursor.column }
  let l ← l.dropKey
  return { l with keys := some place :: l.keys.tail }

/-- Opens a block collection when the column lies deeper than the innermost one.  Its token goes to
the end, or in front of the token with a given number. -/
def roll (l : Lexer) (column : Nat) (number : Option Nat) (t : Token) : Lexer :=
  if l.inFlow || (column : Int) ≤ l.indent then l
  else
    let l := { l with indent := column, outer := l.indent :: l.outer }
    match number with
    | none => l.push t
    | some n => l.insert n t

/-- Closes the block collections that lie deeper than a column: one `blockEnd` for each. -/
def closeBlocks (column : Int) :
    List Int → Int → List Token → Nat → List Int × Int × List Token × Nat
  | [], indent, back, count => ([], indent, back, count)
  | o :: outer, indent, back, count =>
      if column < indent then closeBlocks column outer o (.blockEnd :: back) (count + 1)
      else (o :: outer, indent, back, count)

/-- Closes the block collections that lie deeper than a column, outside brackets. -/
def unroll (l : Lexer) (column : Int) : Lexer :=
  if l.inFlow then l
  else
    let (outer, indent, back, count) := closeBlocks column l.outer l.indent l.back l.count
    { l with outer, indent, back, count }

/-- Past spaces, comments and line breaks, up to the next lexeme.  A byte order mark may begin a
line.  Tabs separate tokens except where they would indent a key. -/
def skipToToken : Nat → Lexer → Lexer
  | 0, l => l
  | fuel + 1, l =>
      let c := l.cursor
      let c := if c.column == 0 && c.at? '\ufeff' then c.skip 1 else c
      let tabs := l.inFlow || !l.keyAllowed
      let c := c.skipSpan fun d => d == ' ' || (tabs && d == '\t')
      let c := if c.at? '#' then c.skipSpan (fun d => !isBreak d) else c
      if c.atBreak then
        skipToToken fuel
          { l with cursor := c.skipLine, keyAllowed := l.keyAllowed || !l.inFlow }
      else { l with cursor := c }

/-- The end of the text closes everything. -/
def endOfText (l : Lexer) : Except Fault Lexer := do
  let l ← (l.unroll (-1)).dropKey
  return { l.push .streamEnd with keyAllowed := false }

/-- A `%` line. -/
def directive (l : Lexer) : Except Fault Lexer := do
  let l ← (l.unroll (-1)).dropKey
  let (t, cursor) ← directiveToken l.cursor
  return { l.push t with cursor, keyAllowed := false }

/-- `---` or `...`. -/
def documentMarker (l : Lexer) (t : Token) : Except Fault Lexer := do
  let l ← (l.unroll (-1)).dropKey
  return { l.push t with cursor := l.cursor.skip 3, keyAllowed := false }

/-- An opening bracket. -/
def openFlow (l : Lexer) (t : Token) : Except Fault Lexer := do
  let l ← l.saveKey
  return { l.push t with cursor := l.cursor.skip 1, keys := none :: l.keys, keyAllowed := true }

/-- A closing bracket. -/
def closeFlow (l : Lexer) (t : Token) : Except Fault Lexer := do
  let l ← l.dropKey
  let keys := if l.inFlow then l.keys.tail else l.keys
  return { l.push t with cursor := l.cursor.skip 1, keys, keyAllowed := false }

/-- A comma in brackets. -/
def flowEntry (l : Lexer) : Except Fault Lexer := do
  let l ← l.dropKey
  return { l.push .flowEntry with cursor := l.cursor.skip 1, keyAllowed := true }

/-- A `-` before an item. -/
def blockEntry (l : Lexer) : Except Fault Lexer := do
  if !l.inFlow && !l.keyAllowed then throw .misplacedIndicator
  let l ← (l.roll l.cursor.column none .blockSequenceStart).dropKey
  return { l.push .blockEntry with cursor := l.cursor.skip 1, keyAllowed := true }

/-- A `?` before a key. -/
def explicitKey (l : Lexer) : Except Fault Lexer := do
  if !l.inFlow && !l.keyAllowed then throw .misplacedIndicator
  let l ← (l.roll l.cursor.column none .blockMappingStart).dropKey
  return { l.push .key with cursor := l.cursor.skip 1, keyAllowed := !l.inFlow }

/-- A `:` before a value.  If a key may have begun on this level, it has. -/
def value (l : Lexer) : Except Fault Lexer := do
  match l.keys with
  | some k :: rest =>
      let l := (l.insert k.number .key).roll k.column (some k.number) .blockMappingStart
      let l := { l with keys := none :: rest, keyAllowed := false }
      return { l.push .value with cursor := l.cursor.skip 1 }
  | _ =>
      if !l.inFlow && !l.keyAllowed then throw .misplacedIndicator
      let l := l.roll l.cursor.column none .blockMappingStart
      return { l.push .value with cursor := l.cursor.skip 1, keyAllowed := !l.inFlow }

/-- An anchor or an alias. -/
def name (l : Lexer) (token : List Char → Token) : Except Fault Lexer := do
  let l ← l.saveKey
  let (text, cursor) ← anchorName l.cursor
  return { l.push (token text) with cursor, keyAllowed := false }

def tag (l : Lexer) : Except Fault Lexer := do
  let l ← l.saveKey
  let (t, cursor) ← tagToken l.inFlow l.cursor
  return { l.push t with cursor, keyAllowed := false }

/-- A block scalar. -/
def block (l : Lexer) (fuel : Nat) (literal : Bool) : Except Fault Lexer := do
  let l ← l.dropKey
  let (text, cursor) ← blockScalar fuel literal l.indent l.cursor
  return { l.push (.scalar text false) with cursor, keyAllowed := true }

/-- A quoted scalar. -/
def quoted (l : Lexer) (fuel : Nat) (single : Bool) : Except Fault Lexer := do
  let l ← l.saveKey
  let (text, cursor) ← quotedScalar fuel single l.cursor
  return { l.push (.scalar text false) with cursor, keyAllowed := false }

/-- A plain scalar.  Behind a line break a key may begin again. -/
def plain (l : Lexer) (fuel : Nat) : Except Fault Lexer := do
  let l ← l.saveKey
  let (text, cursor, broken) ← plainScalar fuel l.inFlow (l.indent + 1).toNat l.cursor
  return { l.push (.scalar text true) with cursor, keyAllowed := broken }

/-- The characters that cannot begin a plain scalar. -/
def isIndicator (c : Char) : Bool :=
  ['-', '?', ':', ',', '[', ']', '{', '}', '#', '&', '*', '!', '|', '>', '\'', '"', '%',
    '@'].contains c || c.toNat == 0x60

/-- Whether a plain scalar may begin with `c` in front of `rest`. -/
def beginsPlain (flow : Bool) (c : Char) (rest : List Char) : Bool :=
  !(isSpaceOrTab c || isBreak c || isIndicator c) ||
    (c == '-' && !rest.head?.any isSpaceOrTab) ||
    (!flow && (c == '?' || c == ':') && !atSpaceOrEnd rest)

/-- The tokens of the lexeme at the cursor. -/
def lexeme (l : Lexer) (fuel : Nat) : Except Fault Lexer :=
  let flow := l.inFlow
  let atLineStart := l.cursor.column == 0
  match l.cursor.rest with
  | [] => l.endOfText
  | c :: rest =>
      if atLineStart && c == '%' then l.directive
      else if atLineStart && atDocumentMarker (c :: rest) then
        l.documentMarker (if c == '-' then .documentStart else .documentEnd)
      else if c == '[' then l.openFlow .flowSequenceStart
      else if c == '{' then l.openFlow .flowMappingStart
      else if c == ']' then l.closeFlow .flowSequenceEnd
      else if c == '}' then l.closeFlow .flowMappingEnd
      else if c == ',' then l.flowEntry
      else if c == '-' && atSpaceOrEnd rest then l.blockEntry
      else if c == '?' && (flow || atSpaceOrEnd rest) then l.explicitKey
      else if c == ':' && (flow || atSpaceOrEnd rest) then l.value
      else if c == '*' then l.name .alias
      else if c == '&' then l.name .anchor
      else if c == '!' then l.tag
      else if c == '|' && !flow then l.block fuel true
      else if c == '>' && !flow then l.block fuel false
      else if c == '\'' then l.quoted fuel true
      else if c == '"' then l.quoted fuel false
      else if beginsPlain flow c rest then l.plain fuel
      else .error .strayCharacter

/-- How many tokens are final: those in front of every place where a key may still be put. -/
def final (l : Lexer) : Nat :=
  l.keys.foldl (fun n key => key.elim n fun k => min n k.number) l.count

/-- The tokens of one more lexeme. -/
def next (fuel : Nat) (l : Lexer) : Except Fault Lexer := do
  let l ← (skipToToken (fuel + 1) l).dropStale
  let l ← (l.unroll l.cursor.column).lexeme fuel
  let l ← l.dropStale
  return { l with settled := l.final }

/-- All tokens from a state on, or those that are final before a fault. -/
def run (broken : Bool) : Nat → Lexer → List Token × Option Fault
  | 0, l => (l.back.reverse, none)
  | fuel + 1, l =>
      match next fuel l with
      | .error fault => (l.back.reverse.take l.settled, some fault)
      | .ok l' =>
          if l'.back.head? == some .streamEnd then
            if broken then (l.back.reverse.take l.settled, some .forbiddenCharacter)
            else (l'.back.reverse, none)
          else run broken fuel l'

end Lexer

/-- The tokens of a text up to its end or to its first fault. -/
def Token.ofSource (s : Source) : List Token × Option Fault :=
  Lexer.run s.broken (s.chars.length + 2) (.start s.chars)

end EscapeRoom.Yaml
