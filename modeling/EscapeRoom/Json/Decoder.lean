import EscapeRoom.Number.Binary64
import EscapeRoom.Number.Digit
import EscapeRoom.Text.Utf8

/-!
# Reading JSON

A decoder reads a value of one type from the front of a text.  It goes through the text once, so of
two faults the one that comes first is reported, and it tells a text that is no JSON from JSON that
does not fit the type.

* `Decoder`, `Decoder.run` — decoders, and reading a whole text.
* `string`, `bool`, `octet`, `optional`, `list`, `entries` — decoders of values.
* `skipValue` — passing over a value of no interest, of which less is asked.
* `Decoder.runOctets` — reading octets, which need to be text only where they are read as text.
-/

namespace EscapeRoom.Json

/-- Why a text is refused. -/
inductive DecodeError
  /-- The text is no JSON. -/
  | malformed
  /-- The value has another shape than is asked for. -/
  | unfit
  /-- A number stands where a level is asked for, and no level has it. -/
  | unknownLevel (n : UInt8)
  deriving DecidableEq, Repr

/-- Reads a value from the front of a text; the rest of the text comes with it. -/
abbrev Decoder (α : Type) := List Char → Except DecodeError (α × List Char)

/-- The characters that may stand between tokens. -/
def isSpace (c : Char) : Bool := c == ' ' || c == '\n' || c == '\t' || c == '\r'

/-- A text without the spaces at its front. -/
def skipSpaces (cs : List Char) : List Char := cs.dropWhile isSpace

/-- The number of four hexadecimal digits. -/
def hex4? (a b c d : Char) : Option Nat := Digit.number? 16 [a, b, c, d]

/-- The character that a one-letter escape stands for. -/
def unescape? : Char → Option Char
  | '"' => some '"'
  | '\\' => some '\\'
  | '/' => some '/'
  | 'b' => some '\x08'
  | 'f' => some '\x0c'
  | 'n' => some '\n'
  | 'r' => some '\r'
  | 't' => some '\t'
  | _ => none

/-- Whether a number is the first half of a pair that stands for one character. -/
def isHighSurrogate (n : Nat) : Bool := 0xD800 ≤ n && n < 0xDC00

/-- Whether a number is the second half of such a pair. -/
def isLowSurrogate (n : Nat) : Bool := 0xDC00 ≤ n && n < 0xE000

/-- The characters up to the closing quote.  Halves of pairs have to come together, and control
characters have to be escaped. -/
def stringBody : List Char → Except DecodeError (List Char × List Char)
  | [] => .error .malformed
  | '"' :: rest => .ok ([], rest)
  | '\\' :: 'u' :: a :: b :: c :: d :: '\\' :: 'u' :: e :: f :: g :: h :: rest =>
      match hex4? a b c d with
      | none => .error .malformed
      | some n =>
          if isHighSurrogate n then
            match hex4? e f g h with
            | none => .error .malformed
            | some m =>
                if isLowSurrogate m then do
                  let (text, rest) ← stringBody rest
                  return (Char.ofNat (0x10000 + (n - 0xD800) * 1024 + (m - 0xDC00)) :: text, rest)
                else .error .malformed
          else if isLowSurrogate n then .error .malformed
          else do
            let (text, rest) ← stringBody ('\\' :: 'u' :: e :: f :: g :: h :: rest)
            return (Char.ofNat n :: text, rest)
  | '\\' :: 'u' :: a :: b :: c :: d :: rest =>
      match hex4? a b c d with
      | none => .error .malformed
      | some n =>
          if isHighSurrogate n || isLowSurrogate n then .error .malformed
          else do
            let (text, rest) ← stringBody rest
            return (Char.ofNat n :: text, rest)
  | '\\' :: e :: rest =>
      match unescape? e with
      | none => .error .malformed
      | some c => do
          let (text, rest) ← stringBody rest
          return (c :: text, rest)
  | c :: rest =>
      if c == '\\' || c.toNat < 0x20 then .error .malformed
      else do
        let (text, rest) ← stringBody rest
        return (c :: text, rest)

/-- Past the characters up to the closing quote, without a look at what escapes stand for. -/
def skipString : List Char → Except DecodeError (List Char)
  | [] => .error .malformed
  | '"' :: rest => .ok rest
  | '\\' :: 'u' :: a :: b :: c :: d :: rest =>
      if (hex4? a b c d).isNone then .error .malformed else skipString rest
  | '\\' :: e :: rest => if (unescape? e).isNone then .error .malformed else skipString rest
  | c :: rest => if c == '\\' || c.toNat < 0x20 then .error .malformed else skipString rest

/-- A number as written: its sign, its whole part and fraction, and its exponent. -/
structure Numeral where
  negative : Bool
  whole : List Char
  fraction : List Char
  exponent : Option Int
  deriving DecidableEq

/-- The number at the front of a text.  The whole part has no leading zero. -/
def numeral : List Char → Except DecodeError (Numeral × List Char) := fun cs => do
  let (negative, cs) :=
    match cs with
    | '-' :: rest => (true, rest)
    | rest => (false, rest)
  let whole := cs.takeWhile Char.isDigit
  let cs := cs.drop whole.length
  if whole.isEmpty || (whole.head? == some '0' && 1 < whole.length) then throw .malformed
  let (fraction, cs) ←
    match cs with
    | '.' :: rest =>
        let fraction := rest.takeWhile Char.isDigit
        if fraction.isEmpty then throw DecodeError.malformed
        pure (fraction, rest.drop fraction.length)
    | rest => pure ([], rest)
  match cs with
  | e :: rest =>
      if e == 'e' || e == 'E' then
        let (minus, rest) :=
          match rest with
          | '-' :: r => (true, r)
          | '+' :: r => (false, r)
          | r => (false, r)
        let ds := rest.takeWhile Char.isDigit
        if ds.isEmpty then throw DecodeError.malformed
        let n : Int := decimalValue ds
        return (⟨negative, whole, fraction, some (if minus then -n else n)⟩, rest.drop ds.length)
      else return (⟨negative, whole, fraction, none⟩, cs)
  | [] => return (⟨negative, whole, fraction, none⟩, cs)

/-- The natural number that a numeral writes without sign, fraction and exponent. -/
def Numeral.natural? (n : Numeral) : Option Nat :=
  if n.negative || !n.fraction.isEmpty || n.exponent.isSome then none
  else some (decimalValue n.whole)

/-- Whether the value of a numeral is too large for a binary fraction. -/
def Numeral.overflows (n : Numeral) : Bool :=
  let e := n.exponent.getD 0
  let digits := n.whole ++ n.fraction
  !(Binary64.ofDecimal false (decimalValue digits) digits.length (e - n.fraction.length)).isFinite

/-- A word at the front of a text. -/
def word (w : String) (cs : List Char) : Except DecodeError (List Char) :=
  if w.toList.isPrefixOf cs then .ok (cs.drop w.length) else .error .malformed

/-- What is wrong with a value that is not of the type asked for: it may be no value at all. -/
def wrongType (cs : List Char) : DecodeError :=
  let judged {α : Type} (r : Except DecodeError α) : DecodeError :=
    match r with
    | .ok _ => .unfit
    | .error e => e
  match cs with
  | 'n' :: _ => judged (word "null" cs)
  | 't' :: _ => judged (word "true" cs)
  | 'f' :: _ => judged (word "false" cs)
  | '"' :: rest => judged (stringBody rest)
  | '[' :: _ => .unfit
  | '{' :: _ => .unfit
  | c :: _ =>
      if c == '-' || c.isDigit then
        judged do
          let (n, _) ← numeral cs
          if n.overflows then throw DecodeError.malformed
      else .malformed
  | [] => .malformed

def string : Decoder String := fun cs =>
  match skipSpaces cs with
  | '"' :: rest => do
      let (text, rest) ← stringBody rest
      return (String.ofList text, rest)
  | cs => .error (wrongType cs)

/-- A truth value. -/
def bool : Decoder Bool := fun cs =>
  match skipSpaces cs with
  | 't' :: rest => do return (true, ← word "true" ('t' :: rest))
  | 'f' :: rest => do return (false, ← word "false" ('f' :: rest))
  | cs => .error (wrongType cs)

/-- A number from 0 to 255, written without sign, fraction and exponent. -/
def octet : Decoder UInt8 := fun cs =>
  match skipSpaces cs with
  | c :: rest =>
      if c == '-' || c.isDigit then do
        let (n, after) ← numeral (c :: rest)
        if n.overflows then throw .malformed
        match n.natural? with
        | some k => if h : k < 256 then return (.ofNatLT k h, after) else throw .unfit
        | none => throw .unfit
      else .error (wrongType (c :: rest))
  | [] => .error .malformed

/-- A value or `null`. -/
def optional {α : Type} (d : Decoder α) : Decoder (Option α) := fun cs =>
  match skipSpaces cs with
  | 'n' :: rest => do return (none, ← word "null" ('n' :: rest))
  | cs => do
      let (a, rest) ← d cs
      return (some a, rest)

/-- Past the comma before an item or member, or past the closing bracket.  The answer tells whether
something follows. -/
def separator (closing : Char) (first : Bool) (cs : List Char) :
    Except DecodeError (Bool × List Char) :=
  match skipSpaces cs with
  | [] => .error .malformed
  | c :: rest =>
      if c = closing then .ok (false, rest)
      else if first then .ok (true, c :: rest)
      else if c = ',' then
        match skipSpaces rest with
        | [] => .error .malformed
        | d :: after => if d = closing then .error .malformed else .ok (true, d :: after)
      else .error .malformed

/-- Past a key's colon. -/
def colon (cs : List Char) : Except DecodeError (List Char) :=
  match skipSpaces cs with
  | ':' :: rest => .ok rest
  | _ => .error .malformed

def memberKey (cs : List Char) : Except DecodeError (String × List Char) :=
  match cs with
  | '"' :: rest => do
      let (text, rest) ← stringBody rest
      return (String.ofList text, rest)
  | _ => .error .malformed

/-- The items up to the closing bracket. -/
def listItems {α : Type} (d : Decoder α) : Nat → Bool → Decoder (List α)
  | 0, _, _ => .error .malformed
  | fuel + 1, first, cs => do
      let (more, cs) ← separator ']' first cs
      if !more then return ([], cs)
      let (a, cs) ← d cs
      let (rest, cs) ← listItems d fuel false cs
      return (a :: rest, cs)

/-- An array of values of one type. -/
def list {α : Type} (d : Decoder α) : Decoder (List α) := fun cs =>
  match skipSpaces cs with
  | '[' :: rest => listItems d (rest.length + 1) true rest
  | cs => .error (wrongType cs)

/-- The members up to the closing bracket.  `key` reads a key with its quotes. -/
def members {κ α : Type} (key : Decoder κ) (d : Decoder α) : Nat → Bool → Decoder (List (κ × α))
  | 0, _, _ => .error .malformed
  | fuel + 1, first, cs => do
      let (more, cs) ← separator '}' first cs
      if !more then return ([], cs)
      let (k, cs) ← key cs
      let (a, cs) ← d (← colon cs)
      let (rest, cs) ← members key d fuel false cs
      return ((k, a) :: rest, cs)

/-- An object with members of one type, in the order in which they stand. -/
def entriesWith {κ α : Type} (key : Decoder κ) (d : Decoder α) : Decoder (List (κ × α)) := fun cs =>
  match skipSpaces cs with
  | '{' :: rest => members key d (rest.length + 1) true rest
  | cs => .error (wrongType cs)

/-- An object with members of one type under strings. -/
def entries {α : Type} (d : Decoder α) : Decoder (List (String × α)) := entriesWith memberKey d

/-- A key that spells a number from 0 to 255, without a space or an escape. -/
def octetKey : Decoder UInt8 := fun cs =>
  match cs with
  | '"' :: c :: rest =>
      if c == '-' || c.isDigit then do
        let (n, after) ← octet (c :: rest)
        match after with
        | '"' :: after => return (n, after)
        | _ => throw .malformed
      else .error .malformed
  | _ => .error .malformed

mutual

/-- Past a value that nobody asks for.  Its numbers may be of any size and its escapes may name
halves of pairs. -/
def skipValue : Nat → List Char → Except DecodeError (List Char)
  | 0, _ => .error .malformed
  | fuel + 1, cs =>
      match skipSpaces cs with
      | 'n' :: rest => word "null" ('n' :: rest)
      | 't' :: rest => word "true" ('t' :: rest)
      | 'f' :: rest => word "false" ('f' :: rest)
      | '"' :: rest => skipString rest
      | '[' :: rest => skipItems fuel true rest
      | '{' :: rest => skipMembers fuel true rest
      | cs => (numeral cs).map (·.2)

/-- Past the items up to the closing bracket. -/
def skipItems : Nat → Bool → List Char → Except DecodeError (List Char)
  | 0, _, _ => .error .malformed
  | fuel + 1, first, cs => do
      let (more, cs) ← separator ']' first cs
      if more then skipItems fuel false (← skipValue fuel cs) else return cs

/-- Past the members up to the closing bracket. -/
def skipMembers : Nat → Bool → List Char → Except DecodeError (List Char)
  | 0, _, _ => .error .malformed
  | fuel + 1, first, cs => do
      let (more, cs) ← separator '}' first cs
      if more then
        match cs with
        | '"' :: rest =>
            let cs ← colon (← skipString rest)
            skipMembers fuel false (← skipValue fuel cs)
        | _ => throw .malformed
      else return cs

end

/-- Reads a text that holds one value and nothing else. -/
def Decoder.run {α : Type} (d : Decoder α) (cs : List Char) : Except DecodeError α := do
  let (a, rest) ← d cs
  if (skipSpaces rest).isEmpty then return a else throw .malformed

/-! ### Octets -/

/-- What stands for octets that are no character.  The first character is part of no token, so
between and within tokens the mark is a fault.  The second half of a pair, which follows it, is a
fault in a string that is read, and none in a string that is passed over. -/
def illFormed : List Char := ['\ufffd', '\\', 'u', 'd', 'c', '0', '0']

/-- The text of octets. -/
def textOf (octets : List UInt8) : List Char := Text.Utf8.decodeMarked illFormed octets

/-- Reads octets that hold one value and nothing else.  Strings that nobody asks for may hold octets
that are no text. -/
def Decoder.runOctets {α : Type} (d : Decoder α) (octets : List UInt8) : Except DecodeError α :=
  d.run (textOf octets)

end EscapeRoom.Json
