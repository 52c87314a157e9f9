import TransferBoard.Toml.Text

/-!
# Numbers, dates and times of a settings file

## Main definitions

* `Toml.digitRun` — digits with single underscores between them.
* `Toml.Numeral`, `Toml.numeral` — whole numbers and fractions.
* `Toml.exceedsFloat` — a fraction is beyond the largest binary64 number.
* `Toml.dateTime` — dates and times of the calendar.
-/

namespace TransferBoard

namespace Toml

/-! ### Digits -/

/-- Takes the digits after the first one. An underscore has to stand between two
digits. -/
def moreDigits (isDigit : Char → Bool) : Reader (List Char)
  | '_' :: c :: rest => if isDigit c then consChar c (moreDigits isDigit rest) else none
  | ['_'] => none
  | c :: rest => if isDigit c then consChar c (moreDigits isDigit rest) else some ([], c :: rest)
  | [] => some ([], [])

/-- Takes one digit or more. -/
def digitRun (isDigit : Char → Bool) : Reader (List Char)
  | c :: rest => if isDigit c then consChar c (moreDigits isDigit rest) else none
  | [] => none

/-- The number that digits of a base stand for. -/
def digitsValue (base : Nat) (cs : List Char) : Nat :=
  cs.foldl (fun n c => base * n + (hexDigit? c).getD 0) 0

/-- Takes the digits before the point: zero alone, or digits that do not start with
it. -/
def wholePart : Reader (List Char)
  | '0' :: rest => some (['0'], rest)
  | cs => digitRun Char.isDigit cs

/-! ### Numbers -/

/-- A number as it is written. -/
inductive Numeral where
  /-- A whole number. -/
  | whole (value : Int)
  /-- A number with a point or an exponent, or none that digits can write. -/
  | fraction
  deriving DecidableEq, Repr

/-- The whole numbers that there is room for are those of signed 64-bit words. -/
def wholeNumeral? (value : Int) : Option Numeral :=
  if -0x8000000000000000 ≤ value ∧ value ≤ 0x7FFFFFFFFFFFFFFF then some (.whole value) else none

/-- The first number that no binary64 number is near: half a step above the largest
one. -/
def floatEnd : Nat := Nat.pow 2 1024 - Nat.pow 2 970

/-- Digits and a power of ten make a number that is beyond the largest binary64 number.
With a power far from the range the number of digits decides. -/
def exceedsFloat (digits : List Char) (power : Int) : Bool :=
  let significant := digits.dropWhile (· == '0')
  let size : Int := significant.length + power
  if significant.isEmpty || size < 308 then false
  else if 310 < size then true
  else
    let m := digitsValue 10 significant
    if 0 ≤ power then floatEnd ≤ m * Nat.pow 10 power.toNat
    else floatEnd * Nat.pow 10 (-power).toNat ≤ m

/-- Takes a sign, if there is one; tells whether it is a minus. -/
def takeSign : List Char → Bool × List Char
  | '-' :: rest => (true, rest)
  | '+' :: rest => (false, rest)
  | cs => (false, cs)

/-- Takes an exponent after its letter. -/
def exponent : Reader Int := fun cs =>
  let (negative, cs) := takeSign cs
  (digitRun Char.isDigit cs).map fun p =>
    let e : Int := digitsValue 10 p.1
    (if negative then -e else e, p.2)

/-- A letter that an exponent follows. -/
def isExponentLetter (c : Char) : Bool := c == 'e' || c == 'E'

/-- Takes an exponent, if its letter is there. -/
def exponent? : Reader Int
  | c :: rest => if isExponentLetter c then exponent rest else some (0, c :: rest)
  | [] => some (0, [])

/-- A fraction, unless it is too large; a negative one never is. -/
def fractionNumeral? (negative : Bool) (digits : List Char) (power : Int) : Option Numeral :=
  if !negative && exceedsFloat digits power then none else some .fraction

/-- Takes what follows the whole part of a number. -/
def afterWhole (negative : Bool) (whole : List Char) : Reader Numeral
  | '.' :: rest => do
    let (places, rest) ← digitRun Char.isDigit rest
    let (e, rest) ← exponent? rest
    let n ← fractionNumeral? negative (whole ++ places) (e - places.length)
    some (n, rest)
  | c :: rest =>
    if isExponentLetter c then do
      let (e, rest) ← exponent rest
      let n ← fractionNumeral? negative whole e
      some (n, rest)
    else
      let value : Int := digitsValue 10 whole
      (wholeNumeral? (if negative then -value else value)).map fun n => (n, c :: rest)
  | [] =>
    let value : Int := digitsValue 10 whole
    (wholeNumeral? (if negative then -value else value)).map fun n => (n, [])

/-- Takes the digits of another base. -/
def basedNumeral (base : Nat) (isDigit : Char → Bool) : Reader Numeral := fun cs => do
  let (digits, rest) ← digitRun isDigit cs
  let n ← wholeNumeral? (digitsValue base digits)
  some (n, rest)

/-- A digit of base two, eight or sixteen. -/
def isDigitOf (base : Nat) (c : Char) : Bool := (hexDigit? c).any (· < base)

/-- Takes a number. -/
def numeral : Reader Numeral
  | '0' :: 'x' :: rest => basedNumeral 16 (isDigitOf 16) rest
  | '0' :: 'o' :: rest => basedNumeral 8 (isDigitOf 8) rest
  | '0' :: 'b' :: rest => basedNumeral 2 (isDigitOf 2) rest
  | cs =>
    let (negative, cs) := takeSign cs
    match cs with
    | 'i' :: 'n' :: 'f' :: rest => some (.fraction, rest)
    | 'n' :: 'a' :: 'n' :: rest => some (.fraction, rest)
    | cs => (wholePart cs).bind fun p => afterWhole negative p.1 p.2

/-! ### Dates and times -/

/-- Takes the given number of digits and reads them, within bounds. -/
def fixedDigits (count low high : Nat) : Reader Nat := fun cs =>
  let digits := cs.take count
  if digits.length = count ∧ digits.all Char.isDigit then
    let n := digitsValue 10 digits
    if low ≤ n ∧ n ≤ high then some (n, cs.drop count) else none
  else none

/-- Takes one given character. -/
def expect (c : Char) : List Char → Option (List Char)
  | d :: rest => if d = c then some rest else none
  | [] => none

/-- The number of days of a month. -/
def daysIn (year month : Nat) : Nat :=
  if month = 2 then
    if year % 4 = 0 ∧ (year % 100 ≠ 0 ∨ year % 400 = 0) then 29 else 28
  else if month = 4 ∨ month = 6 ∨ month = 9 ∨ month = 11 then 30
  else 31

/-- Takes a date. -/
def date (cs : List Char) : Option (List Char) := do
  let (year, cs) ← fixedDigits 4 0 9999 cs
  let cs ← expect '-' cs
  let (month, cs) ← fixedDigits 2 1 12 cs
  let cs ← expect '-' cs
  let (_, cs) ← fixedDigits 2 1 (daysIn year month) cs
  some cs

/-- Takes a part of a second, if there is one. -/
def secondPart : List Char → Option (List Char)
  | '.' :: c :: rest => if c.isDigit then some (rest.dropWhile Char.isDigit) else none
  | ['.'] => none
  | cs => some cs

/-- Takes a time of the day; a minute may have a second more. -/
def timeOfDay (cs : List Char) : Option (List Char) := do
  let (_, cs) ← fixedDigits 2 0 23 cs
  let cs ← expect ':' cs
  let (_, cs) ← fixedDigits 2 0 59 cs
  let cs ← expect ':' cs
  let (_, cs) ← fixedDigits 2 0 60 cs
  secondPart cs

/-- Takes the distance from universal time, if there is one. -/
def offset : List Char → Option (List Char)
  | 'Z' :: rest => some rest
  | 'z' :: rest => some rest
  | c :: rest =>
    if c == '+' || c == '-' then do
      let (_, cs) ← fixedDigits 2 0 23 rest
      let cs ← expect ':' cs
      let (_, cs) ← fixedDigits 2 0 59 cs
      some cs
    else some (c :: rest)
  | [] => some []

/-- What starts like a time of the day: two digits and a colon. -/
def startsTime : List Char → Bool
  | a :: b :: ':' :: _ => a.isDigit && b.isDigit
  | _ => false

/-- What starts like a date: four digits and a dash. -/
def startsDate : List Char → Bool
  | a :: b :: c :: d :: '-' :: _ => a.isDigit && b.isDigit && c.isDigit && d.isDigit
  | _ => false

/-- A character between a date and a time. -/
def isTimeMark (c : Char) : Bool := c == 'T' || c == 't' || c == ' '

/-- Takes what follows a date: perhaps a time, and then perhaps the distance from
universal time. -/
def afterDate : List Char → Option (List Char)
  | c :: rest =>
    if isTimeMark c && startsTime rest then (timeOfDay rest).bind offset
    else some (c :: rest)
  | [] => some []

/-- Takes a date, a time or both. -/
def dateTime (cs : List Char) : Option (List Char) :=
  if startsDate cs then (date cs).bind afterDate else timeOfDay cs

end Toml

end TransferBoard
