/-!
# Decimal text to the nearest binary fraction

A decimal text denotes a rational number.  `Binary64.ofDecimal` rounds it to the nearest number
`m * 2 ^ e` with `m` below `2 ^ 53` and `e` from `-1074` to `971`, a tie to the even `m`, all in
exact arithmetic.  Each number has one representation: `m` is at least `2 ^ 52` unless `e` is
`-1074`.

* `Binary64.ofDecimal` — rounding, with infinity beyond the largest number.
* `Binary64.isFinite_ofDecimal` — integers below `2 ^ 1023` are not rounded to infinity.
* `Decimal.ofText?` — the grammar of decimal texts.
* `Binary64.same` — numeric equality; zero has two signs and `nan` equals itself.
-/

namespace EscapeRoom

/-- A binary fraction of 53 bits, an infinity, or no number. -/
inductive Binary64
  | finite (negative : Bool) (mantissa : Nat) (exponent : Int)
  | infinite (negative : Bool)
  | nan
  deriving DecidableEq, Repr

namespace Binary64

/-- The quotient rounded to the nearest integer, a tie to the even one. -/
def roundDiv (num den : Nat) : Nat :=
  let q := num / den
  let r := num % den
  if 2 * r < den then q
  else if den < 2 * r then q + 1
  else if q % 2 == 0 then q else q + 1

/-- The largest `k` with `2 ^ k ≤ num / den`, for positive `num` and `den`. -/
def floorLog (num den : Nat) : Int :=
  let k : Int := (Nat.log2 num : Int) - (Nat.log2 den : Int)
  let atLeast (k : Int) : Bool :=
    if 0 ≤ k then den * Nat.pow 2 k.toNat ≤ num else den ≤ num * Nat.pow 2 (-k).toNat
  if atLeast k then k else k - 1

/-- The positive rational `num / den` rounded to 53 bits. -/
def ofRatio (negative : Bool) (num den : Nat) : Binary64 :=
  let e := max (-1074) (floorLog num den - 52)
  let m :=
    if 0 ≤ e then roundDiv num (den * Nat.pow 2 e.toNat)
    else roundDiv (num * Nat.pow 2 (-e).toNat) den
  let (m, e) := if m == Nat.pow 2 53 then (Nat.pow 2 52, e + 1) else (m, e)
  if 971 < e then .infinite negative else .finite negative m e

/-- The number `digits * 10 ^ scale` rounded to 53 bits, where `length` digits were written.
Beyond 310 digits before the point it is infinite and below 330 zeros after it zero. -/
def ofDecimal (negative : Bool) (digits length : Nat) (scale : Int) : Binary64 :=
  if digits == 0 || scale + length < -330 then .finite negative 0 (-1074)
  else if 310 < scale + (Nat.log2 digits / 4 : Nat) then .infinite negative
  else if 0 ≤ scale then ofRatio negative (digits * Nat.pow 10 scale.toNat) 1
  else ofRatio negative digits (Nat.pow 10 (-scale).toNat)

/-- Whether the number is finite. -/
def isFinite : Binary64 → Bool
  | .finite .. => true
  | _ => false

/-- Whether the number is zero, of either sign. -/
def isZero : Binary64 → Bool
  | .finite _ m _ => m == 0
  | _ => false

theorem floorLog_le (num den : Nat) : floorLog num den ≤ Nat.log2 num := by
  unfold floorLog
  dsimp only
  split <;> omega

/-- What is far below `2 ^ 1024` is not rounded to infinity. -/
theorem isFinite_ofRatio (negative : Bool) {num : Nat} (den : Nat) (h : Nat.log2 num ≤ 1022) :
    (ofRatio negative num den).isFinite = true := by
  have hlog := floorLog_le num den
  unfold ofRatio
  generalize floorLog num den = k at hlog
  dsimp only
  have hexponent : max (-1074) (k - 52) + 1 ≤ 971 := by omega
  -- whether rounding reaches the next power of two, and moves the exponent by one
  generalize (if 0 ≤ max (-1074) (k - 52) then
    roundDiv num (den * Nat.pow 2 (max (-1074) (k - 52)).toNat)
    else roundDiv (num * Nat.pow 2 (-max (-1074) (k - 52)).toNat) den) = m
  split
  · rw [if_neg (by omega)]
    rfl
  · rw [if_neg (by omega)]
    rfl

theorem isFinite_ofDecimal (negative : Bool) {digits : Nat} (length : Nat)
    (h : Nat.log2 digits ≤ 1022) : (ofDecimal negative digits length 0).isFinite = true := by
  unfold ofDecimal
  split
  · rfl
  · rw [if_neg (by omega), if_pos (Int.le_refl 0)]
    exact isFinite_ofRatio negative 1 (by simpa using h)

/-- Numeric equality, except that `nan` equals itself. -/
def same (a b : Binary64) : Bool := (a.isZero && b.isZero) || a == b

end Binary64

/-- The parts of a decimal text: the digits without the point, how many there are, and the power of
ten that scales them. -/
structure Decimal where
  digits : Nat
  length : Nat
  scale : Int
  deriving DecidableEq

/-- The number that a list of decimal digits spells. -/
def decimalValue (digits : List Char) : Nat :=
  digits.foldl (fun n c => n * 10 + (c.toNat - '0'.toNat)) 0

/-- An exponent: `e` or `E`, a sign if there is one, and at least one digit. -/
def exponent? : List Char → Option Int
  | [] => some 0
  | e :: rest =>
      if e == 'e' || e == 'E' then
        let (negative, digits) :=
          match rest with
          | '-' :: ds => (true, ds)
          | '+' :: ds => (false, ds)
          | ds => (false, ds)
        if digits.isEmpty || !digits.all Char.isDigit then none
        else
          let n : Int := decimalValue digits
          some (if negative then -n else n)
      else none

/-- Reads digits with at most one point among or beside them and an exponent; at least one digit
stands before the exponent.  Leading and trailing zeros are allowed. -/
def Decimal.ofText? (cs : List Char) : Option Decimal :=
  let whole := cs.takeWhile Char.isDigit
  let rest := cs.drop whole.length
  let (fraction, rest) :=
    match rest with
    | '.' :: r =>
        let f := r.takeWhile Char.isDigit
        (f, r.drop f.length)
    | r => ([], r)
  if whole.isEmpty && fraction.isEmpty then none
  else
    (exponent? rest).map fun e =>
      { digits := decimalValue (whole ++ fraction), length := whole.length + fraction.length,
        scale := e - fraction.length }

/-- The nearest binary fraction to a decimal text with an optional sign. -/
def Binary64.ofText? (cs : List Char) : Option Binary64 :=
  let (negative, body) :=
    match cs with
    | '-' :: r => (true, r)
    | '+' :: r => (false, r)
    | r => (false, r)
  (Decimal.ofText? body).map fun d => .ofDecimal negative d.digits d.length d.scale

end EscapeRoom
