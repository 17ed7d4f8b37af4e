/-!
# Digits

Digits stand for numbers in a base of at most 16.  The letters for the digits above nine are read in
either case.

* `Digit.value?`, `Digit.lower`, `Digit.upper` — one digit.
* `Digit.value?_upper` — a digit that was written reads as its number.
* `Digit.number?` — the number that several digits spell.
* `Digit.character?` — the character whose code they spell.
-/

namespace EscapeRoom.Digit

/-- The number of a digit, in base 16. -/
def value? (c : Char) : Option Nat :=
  if c.isDigit then some (c.toNat - '0'.toNat)
  else if 'a' ≤ c && c ≤ 'f' then some (c.toNat - 'a'.toNat + 10)
  else if 'A' ≤ c && c ≤ 'F' then some (c.toNat - 'A'.toNat + 10)
  else none

/-- The digit of a number below 16, in lower case. -/
def lower (n : Nat) : Char := Char.ofNat (if n < 10 then 0x30 + n else 0x57 + n)

/-- The digit of a number below 16, in upper case. -/
def upper (n : Nat) : Char := Char.ofNat (if n < 10 then 0x30 + n else 0x37 + n)

theorem value?_upper : ∀ n < 16, value? (upper n) = some n := by decide

/-- Appends a digit to a number. -/
def append? (base n : Nat) (c : Char) : Option Nat :=
  (value? c).bind fun d => if d < base then some (n * base + d) else none

/-- The number that digits of a base up to 16 spell. -/
def number? (base : Nat) (digits : List Char) : Option Nat := digits.foldlM (append? base) 0

/-- The character with a code, unless the code is a surrogate or too large. -/
def ofCode? (n : Nat) : Option Char :=
  if n < 0xD800 || (0xDFFF < n && n ≤ 0x10FFFF) then some (Char.ofNat n) else none

/-- The character whose code digits of base 16 spell. -/
def character? (digits : List Char) : Option Char := (number? 16 digits).bind ofCode?

end EscapeRoom.Digit
