import EscapeRoom.Number.Digit

/-!
# Quoted text

A text is quoted in one of four ways: between single or double quotes, one or three of them.
Between single quotes every character stands for itself; between double quotes a backslash begins an
escape.  Three quotes admit line breaks and lone quotes.

* `Quoting`, `Quoting.for` — the ways, and the simplest one that a text fits.
* `quoted` — the text in quotes.
* `quotedText` — reading a quoted text.
-/

namespace EscapeRoom.Toml

/-- Reads something from the front of a text; the rest of the text comes with it. -/
abbrev Reader (α : Type) := List Char → Option (α × List Char)

/-- A way to quote a text. -/
inductive Quoting
  /-- Double quotes; escapes. -/
  | basic
  /-- Single quotes; no escapes. -/
  | literal
  /-- Three double quotes; escapes and line breaks. -/
  | basicLines
  /-- Three single quotes; line breaks but no escapes. -/
  | literalLines
  deriving DecidableEq, Repr

/-- The quote that ends a literal text. -/
def tick : Char := '\x27'

/-- A control character other than tab and newline. -/
def isControl (c : Char) : Bool := (c.toNat < 0x20 && c != '\t' && c != '\n') || c == '\x7f'

/-- A character that may stand unescaped in a line. -/
def isLineText (c : Char) : Bool := c != '\n' && !isControl c

/-! ### Writing -/

/-- Whether three copies of a character stand side by side. -/
def hasTriple (q : Char) : List Char → Bool
  | a :: b :: c :: rest => (a == q && b == q && c == q) || hasTriple q (b :: c :: rest)
  | _ => false

/-- The simplest way to quote a text: without escapes if that can be, and in one line. -/
def Quoting.for (text : List Char) : Quoting :=
  let visible := !text.any isControl
  let oneLine := !text.contains '\n'
  if visible && oneLine && !text.contains '\\' && !text.contains '"' then .basic
  else if visible && oneLine && !text.contains tick then .literal
  else if visible && !text.contains '\\' && !hasTriple '"' text then .basicLines
  else if visible && !hasTriple tick text then .literalLines
  else if oneLine then .basic
  else .basicLines

/-- A character between double quotes; quotes and line breaks apart. -/
def escaped (c : Char) : List Char :=
  if c = '\x08' then ['\\', 'b']
  else if c = '\t' then ['\\', 't']
  else if c = '\x0c' then ['\\', 'f']
  else if c = '\r' then ['\\', 'r']
  else if c = '\\' then ['\\', '\\']
  else if isControl c then
    ['\\', 'u', '0', '0', Digit.upper (c.toNat / 16), Digit.upper (c.toNat % 16)]
  else [c]

/-- A character in a line between double quotes. -/
def escapedInLine (c : Char) : List Char :=
  if c = '"' then ['\\', '"'] else if c = '\n' then ['\\', 'n'] else escaped c

/-- Characters between three double quotes, where `run` quotes stand right before them.  The third
quote of a run is escaped. -/
def escapedLines : Nat → List Char → List Char
  | _, [] => []
  | run, c :: rest =>
      if c = '"' then
        if run = 2 then '\\' :: '"' :: escapedLines 0 rest else '"' :: escapedLines (run + 1) rest
      else escaped c ++ escapedLines 0 rest

/-- What stands between opening quotes and a text: a line break that does not count, if the text
has any. -/
def openingBreak (text : List Char) : List Char := if text.contains '\n' then ['\n'] else []

def Quoting.write (text : List Char) : Quoting → List Char
  | basic => '"' :: text.flatMap escapedInLine ++ ['"']
  | literal => tick :: text ++ [tick]
  | basicLines => ['"', '"', '"'] ++ openingBreak text ++ escapedLines 0 text ++ ['"', '"', '"']
  | literalLines => [tick, tick, tick] ++ openingBreak text ++ text ++ [tick, tick, tick]

/-- A text quoted in the simplest way. -/
def quoted (s : String) : List Char := (Quoting.for s.toList).write s.toList

/-! ### Reading -/

/-- Whether a line break starts at a character before which `next` stands behind it. -/
def isBreak (c : Char) (next : Option Char) : Bool :=
  c == '\n' || (c == '\r' && next == some '\n')

/-- The character of an escape of one letter. -/
def unescape? : Char → Option Char
  | 'b' => some '\x08'
  | 't' => some '\t'
  | 'n' => some '\n'
  | 'f' => some '\x0c'
  | 'r' => some '\r'
  | 'e' => some '\x1b'
  | '"' => some '"'
  | '\\' => some '\\'
  | _ => none

/-- How many digits follow the letter of an escape. -/
def escapeDigits? : Char → Option Nat
  | 'x' => some 2
  | 'u' => some 4
  | 'U' => some 8
  | _ => none

/-- What a reader between double quotes is in the middle of. -/
inductive Escape
  /-- No escape. -/
  | idle
  /-- A backslash has been read. -/
  | begun
  /-- So many digits are missing, and the others spell a number. -/
  | digits (missing : Nat) (number : Nat)
  /-- A backslash and blanks have been read, and a line break has to follow. -/
  | beforeBreak
  /-- A line break has been taken back, and the blanks after it do not count. -/
  | afterBreak
  deriving DecidableEq

/-- Reads a character between double quotes, three of them if `lines` holds: the characters that it
completes, and what goes on.  `next` is the character behind it. -/
def Escape.step (lines : Bool) (c : Char) (next : Option Char) :
    Escape → Option (List Char × Escape)
  | idle =>
      if c = '\\' then some ([], begun)
      else if isLineText c || (lines && isBreak c next) then some ([c], idle)
      else none
  | begun =>
      match unescape? c with
      | some d => some ([d], idle)
      | none =>
          match escapeDigits? c with
          | some n => some ([], digits n 0)
          | none =>
              if !lines then none
              else if c = ' ' || c = '\t' then some ([], beforeBreak)
              else if c = '\n' then some ([], afterBreak)
              else if isBreak c next then some ([], beforeBreak)
              else none
  | digits missing number => do
      let number ← Digit.append? 16 number c
      if missing ≤ 1 then
        let d ← Digit.ofCode? number
        return ([d], idle)
      else return ([], digits (missing - 1) number)
  | beforeBreak =>
      if c = '\n' then some ([], afterBreak)
      else if c = ' ' || c = '\t' || isBreak c next then some ([], beforeBreak)
      else none
  | afterBreak =>
      if c = ' ' || c = '\t' || isBreak c next then some ([], afterBreak)
      else if c = '\\' then some ([], begun)
      else if isLineText c then some ([c], idle)
      else none

/-- Whether a quote would end the text. -/
def Escape.isClosable : Escape → Bool
  | idle => true
  | afterBreak => true
  | _ => false

/-- Three closing quotes and the quotes of the text before them, of which there are two at most. -/
def closing? (q : Char) (cs : List Char) : Option (List Char × List Char) :=
  let run := (cs.takeWhile (· == q)).length
  if run < 3 then none
  else
    let extra := min (run - 3) 2
    some (List.replicate extra q, cs.drop (extra + 3))

/-- The text up to a closing double quote. -/
def basicText : Escape → Reader (List Char)
  | _, [] => none
  | e, c :: rest =>
      if c = '"' && e.isClosable then some ([], rest)
      else do
        let (text, e) ← e.step false c rest.head?
        let (more, rest) ← basicText e rest
        return (text ++ more, rest)

/-- The text up to three closing double quotes. -/
def basicLinesText : Escape → Reader (List Char)
  | _, [] => none
  | e, c :: rest =>
      match if e.isClosable then closing? '"' (c :: rest) else none with
      | some ending => some ending
      | none => do
          let (text, e) ← e.step true c rest.head?
          let (more, rest) ← basicLinesText e rest
          return (text ++ more, rest)

/-- The text up to a closing single quote. -/
def literalText : Reader (List Char)
  | [] => none
  | c :: rest =>
      if c = tick then some ([], rest)
      else if isLineText c then do
        let (more, rest) ← literalText rest
        return (c :: more, rest)
      else none

/-- The text up to three closing single quotes. -/
def literalLinesText : Reader (List Char)
  | [] => none
  | c :: rest =>
      match closing? tick (c :: rest) with
      | some ending => some ending
      | none =>
          if isLineText c || isBreak c rest.head? then do
            let (more, rest) ← literalLinesText rest
            return (c :: more, rest)
          else none

/-- A text without a line break at its front. -/
def skipBreak : List Char → List Char
  | '\n' :: rest => rest
  | '\r' :: '\n' :: rest => rest
  | cs => cs

/-- A text in one line, quoted in one of two ways. -/
def quotedLine : Reader (List Char)
  | [] => none
  | c :: rest =>
      if c = '"' then basicText .idle rest
      else if c = tick then literalText rest
      else none

/-- A text quoted in one of the four ways. -/
def quotedText : Reader (List Char) := fun cs =>
  if (cs.take 3) = ['"', '"', '"'] then basicLinesText .idle (skipBreak (cs.drop 3))
  else if (cs.take 3) = [tick, tick, tick] then literalLinesText (skipBreak (cs.drop 3))
  else quotedLine cs

end EscapeRoom.Toml
