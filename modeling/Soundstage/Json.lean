import Soundstage.Number.Literal

/-!
# JSON texts

A strict reader: blanks may stand between tokens, but nothing else may be added to the grammar and
nothing may follow the value. A string may escape half of a surrogate pair; it is then well formed
but denotes no text, and is read as `none`.
-/

namespace Soundstage

inductive Json
  | null
  | boolean (value : Bool)
  /-- `integral` when it is written without fraction and exponent. -/
  | number (value : Decimal) (integral : Bool)
  | string (text : Option String)
  | array (items : List Json)
  | object (members : List (Option String × Json))

namespace Json

open Number

def isBlank (c : Char) : Bool := c = ' ' || c = '\n' || c = '\t' || c = '\r'

def skipBlank (cs : List Char) : List Char := cs.dropWhile isBlank

/-- A part of a string: a character as such, or a code unit by its number. -/
inductive Unit16
  | char (c : Char)
  | unit (n : Nat)

def simpleEscape (c : Char) : Option Char :=
  if c = '"' ∨ c = '\\' ∨ c = '/' then some c
  else if c = 'b' then some '\x08'
  else if c = 'f' then some '\x0c'
  else if c = 'n' then some '\n'
  else if c = 'r' then some '\r'
  else if c = 't' then some '\t'
  else none

/-- The parts of a string after its opening quote, and the rest after its closing one. -/
def readUnits : List Char → Option (List Unit16 × List Char)
  | [] => none
  | '"' :: rest => some ([], rest)
  | '\\' :: 'u' :: a :: b :: c :: d :: rest => do
    let n ← hexNumber [a, b, c, d]
    let (units, rest) ← readUnits rest
    return (.unit n :: units, rest)
  | '\\' :: c :: rest => do
    let e ← simpleEscape c
    let (units, rest) ← readUnits rest
    return (.char e :: units, rest)
  | c :: rest => do
    if c.toNat < 0x20 ∨ c = '\\' then none
    let (units, rest) ← readUnits rest
    return (.char c :: units, rest)

def isLead (n : Nat) : Bool := 0xd800 ≤ n && n < 0xdc00

def isTrail (n : Nat) : Bool := 0xdc00 ≤ n && n < 0xe000

/-- The text of the parts, unless half of a surrogate pair stands alone. -/
def textOf : List Unit16 → Option (List Char)
  | [] => some []
  | .char c :: rest => (textOf rest).map (c :: ·)
  | .unit n :: .unit m :: rest =>
    if isLead n then
      if isTrail m then
        (textOf rest).map (Char.ofNat (0x10000 + (n - 0xd800) * 0x400 + (m - 0xdc00)) :: ·)
      else none
    else if isTrail n then none
    else (textOf (.unit m :: rest)).map (Char.ofNat n :: ·)
  | .unit n :: rest => if isLead n || isTrail n then none else (textOf rest).map (Char.ofNat n :: ·)

def readString (cs : List Char) : Option (Option String × List Char) := do
  let (units, rest) ← readUnits cs
  return ((textOf units).map String.ofList, rest)

/-- The digits of a whole part: one zero, or a run that starts with another digit. -/
def readWhole : List Char → Option (List Char × List Char)
  | '0' :: rest =>
    match rest with
    | c :: _ => if isDigit c then none else some (['0'], rest)
    | [] => some (['0'], [])
  | cs =>
    match takeDigits cs with
    | ([], _) => none
    | cut => some cut

/-- The digits of a fraction, `none` when a point has no digits. -/
def readFraction : List Char → Option (List Char × List Char)
  | '.' :: rest =>
    match takeDigits rest with
    | ([], _) => none
    | cut => some cut
  | cs => some ([], cs)

/-- The exponent and whether there is one, `none` when its mark has no digits. -/
def readExponent : List Char → Option (Int × Bool × List Char)
  | [] => some (0, false, [])
  | c :: rest =>
    if c = 'e' ∨ c = 'E' then
      let (negative, rest) := takeSign rest
      match takeDigits rest with
      | ([], _) => none
      | (ds, rest) =>
        let magnitude := (digitsValue ds : Int)
        some (if negative then -magnitude else magnitude, true, rest)
    else some (0, false, c :: rest)

def readNumber (cs : List Char) : Option (Json × List Char) := do
  let (negative, cs) := match cs with
    | '-' :: rest => (true, rest)
    | cs => (false, cs)
  let (whole, cs) ← readWhole cs
  let (fraction, cs) ← readFraction cs
  let (exponent, marked, cs) ← readExponent cs
  let value : Decimal := ⟨negative, digitsValue (whole ++ fraction), exponent - fraction.length⟩
  return (.number value (fraction.isEmpty && !marked), cs)

/-- A word such as `null`, if the text starts with it. -/
def readWord (word : List Char) (value : Json) (cs : List Char) : Option (Json × List Char) :=
  if word.isPrefixOf cs then some (value, cs.drop word.length) else none

mutual

/-- A value at the start of the text. The first argument bounds the depth of the recursion. -/
def readValue : Nat → List Char → Option (Json × List Char)
  | 0, _ => none
  | fuel + 1, cs =>
    match skipBlank cs with
    | '"' :: rest => (readString rest).map fun (text, rest) => (.string text, rest)
    | '[' :: rest =>
      match skipBlank rest with
      | ']' :: rest => some (.array [], rest)
      | rest => (readItems fuel rest).map fun (items, rest) => (.array items, rest)
    | '{' :: rest =>
      match skipBlank rest with
      | '}' :: rest => some (.object [], rest)
      | rest => (readMembers fuel rest).map fun (members, rest) => (.object members, rest)
    | 'n' :: rest => readWord ['u', 'l', 'l'] .null rest
    | 't' :: rest => readWord ['r', 'u', 'e'] (.boolean true) rest
    | 'f' :: rest => readWord ['a', 'l', 's', 'e'] (.boolean false) rest
    | cs => readNumber cs

/-- Values with commas between them, up to the closing bracket. -/
def readItems : Nat → List Char → Option (List Json × List Char)
  | 0, _ => none
  | fuel + 1, cs => do
    let (value, cs) ← readValue fuel cs
    match skipBlank cs with
    | ']' :: rest => return ([value], rest)
    | ',' :: rest =>
      let (values, rest) ← readItems fuel rest
      return (value :: values, rest)
    | _ => none

/-- Members with commas between them, up to the closing brace. -/
def readMembers : Nat → List Char → Option (List (Option String × Json) × List Char)
  | 0, _ => none
  | fuel + 1, cs =>
    match skipBlank cs with
    | '"' :: rest => do
      let (key, cs) ← readString rest
      match skipBlank cs with
      | ':' :: rest =>
        let (value, cs) ← readValue fuel rest
        match skipBlank cs with
        | '}' :: rest => return ([(key, value)], rest)
        | ',' :: rest =>
          let (members, rest) ← readMembers fuel rest
          return ((key, value) :: members, rest)
        | _ => none
      | _ => none
    | _ => none

end

/-- The value that a whole text denotes. Every level of nesting takes a character, so the length of
the text bounds the depth. -/
def parse (text : String) : Option Json :=
  let cs := text.toList
  match readValue (2 * cs.length + 2) cs with
  | some (value, rest) => if (skipBlank rest).isEmpty then some value else none
  | none => none

end Json

end Soundstage
