import Soundstage.Number.Binary
import Soundstage.Number.Digits
import Soundstage.Toml.Value

/-!
# Numbers and moments

The values that start with a digit or a sign. A moment is tried first, then a float, then an
integer. Each reader takes as much as its grammar allows and gives the rest back; what may not follow
a value is noticed by whoever reads on.
-/

namespace Soundstage.Toml

open Number

/-! ### Runs of digits -/

/-- Further digits, each after at most one underscore. -/
def takeMore (ok : Char → Bool) : List Char → List Char × List Char
  | [] => ([], [])
  | '_' :: c :: rest =>
    if ok c then
      let (ds, rest) := takeMore ok rest
      (c :: ds, rest)
    else ([], '_' :: c :: rest)
  | c :: rest =>
    if ok c then
      let (ds, rest) := takeMore ok rest
      (c :: ds, rest)
    else ([], c :: rest)

/-- A run of digits in which single underscores may stand between two digits. -/
def takeRun (ok : Char → Bool) : List Char → Option (List Char × List Char)
  | [] => none
  | c :: rest =>
    if ok c then
      let (ds, rest) := takeMore ok rest
      some (c :: ds, rest)
    else none

/-- The whole part of a decimal number: a zero alone, or a run that starts with another digit. -/
def takeWhole : List Char → Option (List Char × List Char)
  | '0' :: rest => some (['0'], rest)
  | cs => takeRun isDigit cs

/-! ### Integers -/

/-- The integers are those of 64 bits. -/
def leastInteger : Int := -9223372036854775808

def greatestInteger : Int := 9223372036854775807

def ofInteger (n : Int) : Option Value :=
  if leastInteger ≤ n ∧ n ≤ greatestInteger then some (.integer n) else none

/-- The number written by digits of a base up to sixteen. -/
def numberIn (base : Nat) (ds : List Char) : Nat :=
  ds.foldl (fun n c => base * n + (hexValue c).getD 0) 0

/-- An integer of another base, after the mark of the base. -/
def readBased (base : Nat) (cs : List Char) : Option (Value × List Char) := do
  let (ds, rest) ← takeRun (fun c => (hexValue c).any (· < base)) cs
  return (← ofInteger (numberIn base ds), rest)

/-- A mark of a base comes without a sign. -/
def readInteger : List Char → Option (Value × List Char)
  | '0' :: 'x' :: rest => readBased 16 rest
  | '0' :: 'o' :: rest => readBased 8 rest
  | '0' :: 'b' :: rest => readBased 2 rest
  | cs => do
    let (negative, rest) := takeSign cs
    let (ds, rest) ← takeWhole rest
    let magnitude := (digitsValue ds : Int)
    return (← ofInteger (if negative then -magnitude else magnitude), rest)

/-! ### Floats -/

/-- The digits of a fraction, if there is one. -/
def takeFraction : List Char → Option (List Char × List Char)
  | '.' :: rest => takeRun isDigit rest
  | _ => none

def takeExponent : List Char → Option (Int × List Char)
  | [] => none
  | c :: rest =>
    if c = 'e' ∨ c = 'E' then do
      let (negative, rest) := takeSign rest
      let (ds, rest) ← takeRun isDigit rest
      let magnitude := (digitsValue ds : Int)
      return (if negative then -magnitude else magnitude, rest)
    else none

def infinity : Float := Float.ofBits double.infinity.toUInt64

/-- The value of a decimal. One that is too large is refused, one that is too small is not. -/
def ofDecimal (d : Decimal) : Option Value :=
  if d.toFloat == infinity then none else some (.float d.toFloat)

/-- A number with a fraction, an exponent or both. -/
def readDecimal (cs : List Char) : Option (Value × List Char) := do
  let (negative, rest) := takeSign cs
  let (whole, rest) ← takeWhole rest
  let (fraction, tail) := (takeFraction rest).getD ([], rest)
  match takeExponent tail with
  | some (e, tail) =>
    return (← ofDecimal ⟨negative, digitsValue (whole ++ fraction), e - fraction.length⟩, tail)
  | none =>
    if fraction.isEmpty then none
    else
      return (← ofDecimal ⟨negative, digitsValue (whole ++ fraction), -fraction.length⟩, tail)

/-- The words `inf` and `nan`, with or without a sign. -/
def readSpecial (cs : List Char) : Option (Value × List Char) :=
  match takeSign cs with
  | (negative, 'i' :: 'n' :: 'f' :: rest) =>
    some (.float (if negative then -infinity else infinity), rest)
  | (_, 'n' :: 'a' :: 'n' :: rest) => some (.float (infinity - infinity), rest)
  | _ => none

/-! ### Moments -/

/-- A number of exactly `n` digits. -/
def readFixed (n : Nat) (cs : List Char) : Option (Nat × List Char) :=
  let ds := cs.take n
  if ds.length = n ∧ ds.all isDigit then some (digitsValue ds, cs.drop n) else none

/-- A number of two digits in a range. -/
def readTwo (least greatest : Nat) (cs : List Char) : Option (Nat × List Char) := do
  let (n, rest) ← readFixed 2 cs
  if least ≤ n ∧ n ≤ greatest then return (n, rest) else none

def readMark (mark : Char) : List Char → Option (List Char)
  | [] => none
  | c :: rest => if c = mark then some rest else none

def isLeapYear (year : Nat) : Bool := year % 4 = 0 && (year % 100 ≠ 0 || year % 400 = 0)

def daysIn (year month : Nat) : Nat :=
  if month = 2 then if isLeapYear year then 29 else 28
  else if month = 4 ∨ month = 6 ∨ month = 9 ∨ month = 11 then 30
  else 31

/-- The rest after a date. -/
def readDate (cs : List Char) : Option (List Char) := do
  let (year, rest) ← readFixed 4 cs
  let (month, rest) ← readTwo 1 12 (← readMark '-' rest)
  let (_, rest) ← readTwo 1 (daysIn year month) (← readMark '-' rest)
  return rest

/-- The rest after the fraction of a second. -/
def skipFraction : List Char → List Char
  | '.' :: rest =>
    match takeDigits rest with
    | ([], _) => '.' :: rest
    | (_, rest) => rest
  | cs => cs

/-- The rest after a time of day. A minute may have a leap second. -/
def readTime (cs : List Char) : Option (List Char) := do
  let (_, rest) ← readTwo 0 23 cs
  let (_, rest) ← readTwo 0 59 (← readMark ':' rest)
  let (_, rest) ← readTwo 0 60 (← readMark ':' rest)
  return skipFraction rest

/-- The rest after an offset from universal time. -/
def readOffset : List Char → Option (List Char)
  | [] => none
  | c :: rest =>
    if c = 'Z' ∨ c = 'z' then some rest
    else if c = '+' ∨ c = '-' then do
      let (_, rest) ← readTwo 0 23 rest
      let (_, rest) ← readTwo 0 59 (← readMark ':' rest)
      return rest
    else none

/-- The rest after a mark between date and time, the time, and the offset if there is one. -/
def readClock : List Char → Option (List Char)
  | [] => none
  | c :: rest =>
    if c = 'T' ∨ c = 't' ∨ c = ' ' then do
      let rest ← readTime rest
      return (readOffset rest).getD rest
    else none

/-- The rest after a date, a date with a time, or a time. -/
def readMoment (cs : List Char) : Option (List Char) :=
  match readDate cs with
  | some rest => some ((readClock rest).getD rest)
  | none => readTime cs

/-- A value that starts with a digit or a sign. -/
def readNumeric (cs : List Char) : Option (Value × List Char) :=
  match readMoment cs with
  | some rest => some (.moment, rest)
  | none => (readDecimal cs).or ((readSpecial cs).or (readInteger cs))

end Soundstage.Toml
