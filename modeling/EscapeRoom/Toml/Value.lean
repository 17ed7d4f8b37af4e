import EscapeRoom.Number.Binary64
import EscapeRoom.Number.Digit
import EscapeRoom.Toml.Quoted

/-!
# Values and how they are written

A value is a text, a number, a truth value, a moment in time, a list of values or a table of values
under keys.  Everything but texts, lists and tables is one word, of which the spelling decides the
type.

* `Value` — the values.
* `integer?`, `fraction?`, `isMoment` — the spellings of words.
* `value` — reading a value; lists and tables nest up to a depth.
-/

namespace EscapeRoom.Toml

/-- A value.  A moment is kept as written, and a table lists its entries under the keys that lead to
them. -/
inductive Value
  | text (s : String)
  | integer (n : Int)
  | fraction (x : Binary64)
  | truth (b : Bool)
  | moment (written : String)
  | list (items : List Value)
  | table (entries : List (List String × Value))

/-! ### Words -/

/-- Splits a sign off a word: whether it is a minus, and the rest. -/
def splitSign : List Char → Bool × List Char
  | '-' :: rest => (true, rest)
  | '+' :: rest => (false, rest)
  | cs => (false, cs)

/-- The digits of a group in which underscores may stand between digits. -/
def plainDigits? (isDigit : Char → Bool) : List Char → Option (List Char)
  | [] => none
  | [d] => if isDigit d then some [d] else none
  | d :: '_' :: e :: rest => do
      if !isDigit d then none
      return d :: (← plainDigits? isDigit (e :: rest))
  | d :: rest => do
      if !isDigit d then none
      return d :: (← plainDigits? isDigit rest)

/-- The digits of a decimal number, which has no zero in front. -/
def wholeDigits? (cs : List Char) : Option (List Char) :=
  (plainDigits? Char.isDigit cs).filter fun ds => ds.head? != some '0' || ds.length == 1

/-- The base that the front of a word names, and the digits. -/
def splitBase? : List Char → Option (Nat × List Char)
  | '0' :: 'x' :: rest => some (16, rest)
  | '0' :: 'o' :: rest => some (8, rest)
  | '0' :: 'b' :: rest => some (2, rest)
  | _ => none

def isDigitOf (base : Nat) (c : Char) : Bool := (Digit.value? c).any fun d => d < base

/-- The integer that a word spells. -/
def integer? (cs : List Char) : Option Int :=
  match splitBase? cs with
  | some (base, digits) => do
      let ds ← plainDigits? (isDigitOf base) digits
      let n ← Digit.number? base ds
      return (n : Int)
  | none => do
      let (negative, body) := splitSign cs
      let ds ← wholeDigits? body
      let n : Int := decimalValue ds
      return if negative then -n else n

/-- Whether an integer can be kept: in 128 bits, with a sign or without one. -/
def isStorable (n : Int) : Bool := -(Nat.pow 2 127 : Int) ≤ n && n < (Nat.pow 2 128 : Int)

/-- Whether a text is a decimal exponent without its letter. -/
def isExponent (cs : List Char) : Bool := (plainDigits? Char.isDigit (splitSign cs).2).isSome

/-- Whether a text is the part of a fraction from its point or exponent letter on. -/
def isFractionTail : List Char → Bool
  | '.' :: rest =>
      let digits := rest.takeWhile fun c => c.isDigit || c == '_'
      let after := rest.drop digits.length
      (plainDigits? Char.isDigit digits).isSome &&
        match after with
        | [] => true
        | e :: power => (e == 'e' || e == 'E') && isExponent power
  | e :: power => (e == 'e' || e == 'E') && isExponent power
  | [] => false

/-- The fraction that a word spells, if it is not too large. -/
def fraction? (cs : List Char) : Option Binary64 :=
  let (negative, body) := splitSign cs
  if body = ['i', 'n', 'f'] then some (.infinite negative)
  else if body = ['n', 'a', 'n'] then some .nan
  else
    let whole := body.takeWhile fun c => c.isDigit || c == '_'
    if (wholeDigits? whole).isNone || !isFractionTail (body.drop whole.length) then none
    else (Binary64.ofText? (cs.filter (· != '_'))).filter Binary64.isFinite

/-- The number of a text of so many decimal digits. -/
def fixedNumber? (width : Nat) (cs : List Char) : Option Nat :=
  if cs.length = width && cs.all Char.isDigit then some (decimalValue cs) else none

def daysIn (year month : Nat) : Nat :=
  if month = 2 then
    if (year % 4 = 0 && year % 100 != 0) || year % 400 = 0 then 29 else 28
  else if month = 4 || month = 6 || month = 9 || month = 11 then 30
  else 31

/-- Whether a text is a date such as `1979-05-27`. -/
def isDate : List Char → Bool
  | [y₁, y₂, y₃, y₄, '-', m₁, m₂, '-', d₁, d₂] =>
      match fixedNumber? 4 [y₁, y₂, y₃, y₄], fixedNumber? 2 [m₁, m₂], fixedNumber? 2 [d₁, d₂] with
      | some year, some month, some day =>
          1 ≤ month && month ≤ 12 && 1 ≤ day && day ≤ daysIn year month
      | _, _, _ => false
  | _ => false

/-- Whether a text is an hour and a minute such as `07:32`. -/
def isHourMinute : List Char → Bool
  | [h₁, h₂, ':', m₁, m₂] =>
      (fixedNumber? 2 [h₁, h₂]).any (· < 24) && (fixedNumber? 2 [m₁, m₂]).any (· < 60)
  | _ => false

/-- Whether a text is the part of a time after the minute: nothing, or seconds with an optional
fraction. -/
def isSecondTail : List Char → Bool
  | [] => true
  | ':' :: s₁ :: s₂ :: rest =>
      (fixedNumber? 2 [s₁, s₂]).any (· ≤ 60) &&
        match rest with
        | [] => true
        | '.' :: digits => !digits.isEmpty && digits.all Char.isDigit
        | _ => false
  | _ => false

/-- Whether a text is a time such as `07:32:00.5`. -/
def isTime (cs : List Char) : Bool := isHourMinute (cs.take 5) && isSecondTail (cs.drop 5)

/-- Whether a text is the distance from the zero meridian's time: `Z` or such as `-07:00`. -/
def isOffset : List Char → Bool
  | ['Z'] => true
  | ['z'] => true
  | '+' :: rest => isHourMinute rest
  | '-' :: rest => isHourMinute rest
  | _ => false

/-- Whether a text is a date, a time, or a date and a time with or without an offset. -/
def isMoment (cs : List Char) : Bool :=
  isDate cs || isTime cs ||
    (isDate (cs.take 10) &&
      match cs.drop 10 with
      | mark :: rest =>
          let time := rest.takeWhile fun c => c.isDigit || c == ':' || c == '.'
          let offset := rest.drop time.length
          (mark == 'T' || mark == 't' || mark == ' ') && isTime time &&
            (offset.isEmpty || isOffset offset)
      | [] => false)

/-- What a word denotes. -/
def wordValue? (cs : List Char) : Option Value :=
  if cs = ['t', 'r', 'u', 'e'] then some (.truth true)
  else if cs = ['f', 'a', 'l', 's', 'e'] then some (.truth false)
  else
    match integer? cs with
    | some n => if isStorable n then some (.integer n) else none
    | none =>
        match fraction? cs with
        | some x => some (.fraction x)
        | none => if isMoment cs then some (.moment (String.ofList cs)) else none

def isWordChar (c : Char) : Bool :=
  c.isAlphanum || c == '_' || c == '+' || c == '-' || c == '.' || c == ':'

/-- The word at the front of a text.  A space may stand between a date and a time. -/
def word : Reader (List Char) := fun cs =>
  let first := cs.takeWhile isWordChar
  match cs.drop first.length with
  | ' ' :: d :: rest =>
      if isDate first && d.isDigit then
        let second := (d :: rest).takeWhile isWordChar
        some (first ++ ' ' :: second, (d :: rest).drop second.length)
      else some (first, ' ' :: d :: rest)
  | rest => some (first, rest)

/-- A value that is neither a list nor a table. -/
def scalar : Reader Value
  | [] => none
  | c :: rest =>
      if c = '"' || c = tick then do
        let (text, rest) ← quotedText (c :: rest)
        return (.text (String.ofList text), rest)
      else do
        let (w, rest) ← word (c :: rest)
        return (← wordValue? w, rest)

/-! ### Keys -/

/-- A blank in a line. -/
def isBlank (c : Char) : Bool := c == ' ' || c == '\t'

/-- A text without the blanks at its front. -/
def skipBlanks (cs : List Char) : List Char := cs.dropWhile isBlank

/-- A character of a key without quotes. -/
def isBareKeyChar (c : Char) : Bool := c.isAlphanum || c == '_' || c == '-'

/-- One key, quoted or not. -/
def simpleKey : Reader String
  | [] => none
  | c :: rest =>
      if c = '"' || c = tick then do
        let (text, rest) ← quotedLine (c :: rest)
        return (String.ofList text, rest)
      else
        let key := (c :: rest).takeWhile isBareKeyChar
        if key.isEmpty then none else some (String.ofList key, (c :: rest).drop key.length)

/-- Keys with points between them, up to so many. -/
def keys : Nat → Reader (List String)
  | 0, _ => none
  | fuel + 1, cs => do
      let (key, rest) ← simpleKey (skipBlanks cs)
      match skipBlanks rest with
      | '.' :: rest =>
          let (more, rest) ← keys fuel rest
          return (key :: more, rest)
      | rest => return ([key], rest)

/-- The keys that lead to an entry, and the blanks around them. -/
def keyPath : Reader (List String) := fun cs => keys (cs.length + 1) cs

/-- An entry: the keys that lead to it, and its value. -/
def entry (value : Reader Value) : Reader (List String × Value) := fun cs => do
  let (path, rest) ← keyPath cs
  match rest with
  | '=' :: rest =>
      let (v, rest) ← value (skipBlanks rest)
      return ((path, v), rest)
  | _ => none

/-! ### Lists and tables -/

/-- Passes over blanks, line breaks and comments.  The flag tells whether a comment has begun. -/
def skipGap : Bool → List Char → List Char
  | _, [] => []
  | comment, c :: rest =>
      if isBreak c rest.head? then skipGap (comment && c == '\r') rest
      else if comment then if isLineText c then skipGap true rest else c :: rest
      else if isBlank c then skipGap false rest
      else if c = '#' then skipGap true rest
      else c :: rest

/-- Items with commas between them up to a closing bracket, before which a comma may stand. -/
def itemsUntil {α : Type} (closing : Char) (item : Reader α) : Nat → Reader (List α)
  | 0, _ => none
  | fuel + 1, cs =>
      match skipGap false cs with
      | [] => none
      | c :: rest =>
          if c = closing then some ([], rest)
          else do
            let (a, rest) ← item (c :: rest)
            match skipGap false rest with
            | ',' :: rest =>
                let (more, rest) ← itemsUntil closing item fuel rest
                return (a :: more, rest)
            | d :: rest => if d = closing then some ([a], rest) else none
            | [] => none

/-- Whether each entry has keys of its own: none leads to another entry or through one. -/
def areApart (entries : List (List String × Value)) : Bool :=
  match entries with
  | [] => true
  | (path, _) :: rest =>
      (rest.all fun e => !path.isPrefixOf e.1 && !e.1.isPrefixOf path) && areApart rest

/-- A value, in which lists and tables nest up to a depth. -/
def value : Nat → Reader Value
  | 0, cs => scalar cs
  | depth + 1, cs =>
      match cs with
      | '[' :: rest => do
          let (items, rest) ← itemsUntil ']' (value depth) (rest.length + 1) rest
          return (.list items, rest)
      | '{' :: rest => do
          let (entries, rest) ← itemsUntil '}' (entry (value depth)) (rest.length + 1) rest
          if areApart entries then return (.table entries, rest) else none
      | cs => scalar cs

/-- How deep lists and tables nest. -/
def nestingLimit : Nat := 80

end EscapeRoom.Toml
