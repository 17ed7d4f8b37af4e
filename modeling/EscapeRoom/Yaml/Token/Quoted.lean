import EscapeRoom.Number.Digit
import EscapeRoom.Yaml.Token

/-!
# Quoted scalars

In single quotes a doubled quote stands for one quote and nothing else is special.  In double
quotes a backslash begins an escape, and before a line break it takes the break back.
-/

namespace EscapeRoom.Yaml

/-- The character that a one-letter escape stands for. -/
def simpleEscape? : Char → Option Char
  | '0' => some '\x00'
  | 'a' => some '\x07'
  | 'b' => some '\x08'
  | 't' => some '\t'
  | '\t' => some '\t'
  | 'n' => some '\n'
  | 'v' => some '\x0b'
  | 'f' => some '\x0c'
  | 'r' => some '\r'
  | 'e' => some '\x1b'
  | ' ' => some ' '
  | '"' => some '"'
  | '/' => some '/'
  | '\\' => some '\\'
  | 'N' => some '\u0085'
  | '_' => some '\u00a0'
  | 'L' => some '\u2028'
  | 'P' => some '\u2029'
  | _ => none

/-- How many digits follow the letter of a numeric escape. -/
def escapeDigits? : Char → Option Nat
  | 'x' => some 2
  | 'u' => some 4
  | 'U' => some 8
  | _ => none

/-- The escape whose letter is `c`: the character it stands for and the characters after the
letter that belong to it. -/
def readEscape (c : Char) (rest : List Char) : Except Fault (Char × Nat) :=
  match simpleEscape? c with
  | some d => .ok (d, 0)
  | none =>
      match escapeDigits? c with
      | none => .error .malformedEscape
      | some n =>
          let digits := rest.take n
          if digits.length < n then .error .malformedEscape
          else
            match Digit.character? digits with
            | some d => .ok (d, n)
            | none => .error .malformedEscape

/-- What ends a word of a quoted scalar. -/
inductive WordEnd
  /-- The closing quote. -/
  | quote
  /-- A space, a tab, a line break or the end of the text. -/
  | gap
  /-- A backslash before a line break. -/
  | escapedBreak

/-- A word of a single-quoted scalar: its text, its length in the source, and what ends it. -/
def singleWord : List Char → List Char × Nat × WordEnd
  | [] => ([], 0, .gap)
  | '\'' :: '\'' :: rest =>
      let (text, n, stop) := singleWord rest
      ('\'' :: text, n + 2, stop)
  | c :: rest =>
      if c == '\'' then ([], 0, .quote)
      else if isSpaceOrTab c || isBreak c then ([], 0, .gap)
      else
        let (text, n, stop) := singleWord rest
        (c :: text, n + 1, stop)

/-- A word of a double-quoted scalar: its text, its length in the source, and what ends it.  The
first argument counts characters of a numeric escape that are still to be passed. -/
def doubleWord : Nat → List Char → Except Fault (List Char × Nat × WordEnd)
  | _, [] => .ok ([], 0, .gap)
  | pending + 1, _ :: rest => do
      let (text, n, stop) ← doubleWord pending rest
      return (text, n + 1, stop)
  | 0, c :: rest =>
      if c == '"' then .ok ([], 0, .quote)
      else if isSpaceOrTab c || isBreak c then .ok ([], 0, .gap)
      else if c == '\\' then
        match rest with
        | [] => .error .malformedEscape
        | d :: after =>
            if isBreak d then .ok ([], 0, .escapedBreak)
            else do
              let (ch, digits) ← readEscape d after
              let (text, n, stop) ← doubleWord digits after
              return (ch :: text, n + 2, stop)
      else do
        let (text, n, stop) ← doubleWord 0 rest
        return (c :: text, n + 1, stop)

/-- Reads words and gaps up to the closing quote.  `back` is the text so far, backwards. -/
def readQuoted (single : Bool) : Nat → Cursor → List Char → Except Fault (List Char × Cursor)
  | 0, _, _ => .error .unclosedQuote
  | fuel + 1, c, back =>
      if c.column == 0 && atDocumentMarker c.rest then .error .unclosedQuote
      else if c.rest.isEmpty then .error .unclosedQuote
      else do
        let (word, n, stop) ← if single then pure (singleWord c.rest) else doubleWord 0 c.rest
        let back := word.reverseAux back
        let c := c.skip n
        match stop with
        | .quote => return (back.reverse, c.skip 1)
        | .gap =>
            let (gap, c) ← Gap.read 0 (fuel + 1) .none c
            readQuoted single fuel c (gap.fold.reverseAux back)
        | .escapedBreak =>
            let c := (c.skip 1).skipLine
            let (gap, c) ← Gap.read 0 (fuel + 1) .escaped c
            readQuoted single fuel c (gap.fold.reverseAux back)

/-- The quoted scalar whose opening quote is at the cursor.  The first argument is at least the
length of the rest. -/
def quotedScalar (fuel : Nat) (single : Bool) (c : Cursor) :
    Except Fault (List Char × Cursor) :=
  readQuoted single fuel (c.skip 1) []

end EscapeRoom.Yaml
