/-!
# Text as octets

UTF-8 writes a character as one to four octets.  `decode?` accepts exactly the well-formed
sequences; `decodeMarked` reads any octets, with a mark for each ill-formed place, which is a
longest ill-formed start of a character.

* `encode` — the octets of a text.
* `decode?` — the text of well-formed octets.
* `decodeMarked`, `decodeLossy` — a text for any octets, and the one with U+FFFD as the mark.
-/

namespace EscapeRoom.Text.Utf8

/-- The octets of a character. -/
def encodeChar (c : Char) : List UInt8 :=
  let n := c.toNat
  if n < 0x80 then [UInt8.ofNat n]
  else if n < 0x800 then [UInt8.ofNat (0xC0 + n / 64), UInt8.ofNat (0x80 + n % 64)]
  else if n < 0x10000 then
    [UInt8.ofNat (0xE0 + n / 4096), UInt8.ofNat (0x80 + n / 64 % 64), UInt8.ofNat (0x80 + n % 64)]
  else
    [UInt8.ofNat (0xF0 + n / 262144), UInt8.ofNat (0x80 + n / 4096 % 64),
      UInt8.ofNat (0x80 + n / 64 % 64), UInt8.ofNat (0x80 + n % 64)]

/-- The octets of a text. -/
def encode (cs : List Char) : List UInt8 := cs.flatMap encodeChar

/-- An octet that continues a character. -/
def isContinuation (b : UInt8) : Bool := 0x80 ≤ b && b < 0xC0

/-- The six bits that a continuation octet carries. -/
def low6 (b : UInt8) : Nat := b.toNat % 64

/-- Whether `b` may follow a leading octet of a longer sequence: no overlong form, no surrogate and
nothing above the last character. -/
def isSecond (lead b : UInt8) : Bool :=
  isContinuation b &&
    (if lead == 0xE0 then 0xA0 ≤ b
     else if lead == 0xED then b < 0xA0
     else if lead == 0xF0 then 0x90 ≤ b
     else if lead == 0xF4 then b < 0x90
     else true)

/-- How many octets a character has whose first octet is `b`. -/
def sequenceLength (b : UInt8) : Nat :=
  if b < 0x80 then 1
  else if 0xC2 ≤ b && b < 0xE0 then 2
  else if 0xE0 ≤ b && b < 0xF0 then 3
  else if 0xF0 ≤ b && b < 0xF5 then 4
  else 0

/-- The character at the front of some octets, or the number of octets to pass over when there is
none: the longest start of a well-formed sequence, and at least one. -/
def firstChar (b : UInt8) (rest : List UInt8) : Char × Nat ⊕ Nat :=
  match sequenceLength b with
  | 1 => .inl (Char.ofNat b.toNat, 1)
  | 2 =>
      match rest with
      | x :: _ =>
          if isContinuation x then .inl (Char.ofNat (b.toNat % 32 * 64 + low6 x), 2) else .inr 1
      | [] => .inr 1
  | 3 =>
      match rest with
      | x :: y :: _ =>
          if !isSecond b x then .inr 1
          else if !isContinuation y then .inr 2
          else .inl (Char.ofNat (b.toNat % 16 * 4096 + low6 x * 64 + low6 y), 3)
      | x :: [] => if isSecond b x then .inr 2 else .inr 1
      | [] => .inr 1
  | 4 =>
      match rest with
      | x :: y :: z :: _ =>
          if !isSecond b x then .inr 1
          else if !isContinuation y then .inr 2
          else if !isContinuation z then .inr 3
          else
            .inl (Char.ofNat (b.toNat % 8 * 262144 + low6 x * 4096 + low6 y * 64 + low6 z), 4)
      | x :: y :: [] =>
          if !isSecond b x then .inr 1 else if !isContinuation y then .inr 2 else .inr 3
      | x :: [] => if isSecond b x then .inr 2 else .inr 1
      | [] => .inr 1
  | _ => .inr 1

/-- Decodes octets, passing over the first `skip` of them; `bad` says what an ill-formed place
becomes. -/
def decodeWith (bad : Option (List Char)) : Nat → List UInt8 → Option (List Char)
  | _, [] => some []
  | skip + 1, _ :: rest => decodeWith bad skip rest
  | 0, b :: rest =>
      match firstChar b rest with
      | .inl (c, n) => (decodeWith bad (n - 1) rest).map (c :: ·)
      | .inr n => bad.bind fun mark => (decodeWith bad (n - 1) rest).map (mark ++ ·)

/-- The text of well-formed octets. -/
def decode? (bytes : List UInt8) : Option (List Char) := decodeWith none 0 bytes

/-- A text for any octets, in which a mark stands for each ill-formed place. -/
def decodeMarked (mark : List Char) (bytes : List UInt8) : List Char :=
  (decodeWith (some mark) 0 bytes).getD []

/-- A text for any octets. -/
def decodeLossy (bytes : List UInt8) : List Char := decodeMarked ['\ufffd'] bytes

end EscapeRoom.Text.Utf8
