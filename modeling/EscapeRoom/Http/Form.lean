import EscapeRoom.Number.Digit
import EscapeRoom.Text.Blank
import EscapeRoom.Text.Utf8

/-!
# Queries

A query lists keys with values.  Letters, digits and `* - . _` stand for themselves, a plus for a
space, and everything else is written octet by octet with a percent sign and two digits.

* `Form.write` — the text of a query.
* `Form.read` — the keys and values of a text; anything can be read.
* `Form.single?` — the value of a key that comes once.
-/

namespace EscapeRoom.Form

/-- An octet that stands for itself. -/
def isPlain (b : UInt8) : Bool :=
  (0x30 ≤ b && b ≤ 0x39) || (0x41 ≤ b && b ≤ 0x5A) || (0x61 ≤ b && b ≤ 0x7A) ||
    b == 0x2A || b == 0x2D || b == 0x2E || b == 0x5F

/-- The text of an octet. -/
def writeOctet (b : UInt8) : List Char :=
  if isPlain b then [Char.ofNat b.toNat]
  else if b = 0x20 then ['+']
  else ['%', Digit.upper (b.toNat / 16), Digit.upper (b.toNat % 16)]

/-- The text of a key or value. -/
def writePart (s : String) : List Char := (Text.Utf8.encode s.toList).flatMap writeOctet

/-- The text of a key with its value. -/
def writePair (p : String × String) : List Char := writePart p.1 ++ '=' :: writePart p.2

/-- The texts of pairs with ampersands between them. -/
def writePairs : List (String × String) → List Char
  | [] => []
  | [p] => writePair p
  | p :: ps => writePair p ++ '&' :: writePairs ps

/-- The text of a query. -/
def write (pairs : List (String × String)) : String := String.ofList (writePairs pairs)

/-- The octets that some octets stand for; a percent sign without two digits stands for itself. -/
def readOctets : List UInt8 → List UInt8
  | [] => []
  | 0x2B :: rest => 0x20 :: readOctets rest
  | b :: x :: y :: rest =>
      if b = 0x25 then
        match Digit.number? 16 [Char.ofNat x.toNat, Char.ofNat y.toNat] with
        | some n => .ofNat n :: readOctets rest
        | none => b :: readOctets (x :: y :: rest)
      else b :: readOctets (x :: y :: rest)
  | b :: rest => b :: readOctets rest

/-- The key or value of a text. -/
def readPart (cs : List Char) : String :=
  String.ofList (Text.Utf8.decodeLossy (readOctets (Text.Utf8.encode cs)))

/-- The pair of a text, cut at its first equals sign; without one the value is empty. -/
def readPair (cs : List Char) : String × String :=
  (readPart (cs.takeWhile (· != '=')), readPart ((cs.dropWhile (· != '=')).drop 1))

/-- The keys and values of a query. -/
def read (query : String) : List (String × String) :=
  ((Text.splitOn (· == '&') query.toList).filter fun piece => !piece.isEmpty).map readPair

/-- The value of a key that comes exactly once. -/
def single? (pairs : List (String × String)) (key : String) : Option String :=
  match pairs.filter fun p => p.1 == key with
  | [p] => some p.2
  | _ => none

end EscapeRoom.Form
