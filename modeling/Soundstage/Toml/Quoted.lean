import Soundstage.Number.Digits

/-!
# Quoted text

Texts between quotes, of one line or of several. A text between double quotes is read in two steps:
it is cut off at its closing quote, where a backslash keeps the next character from closing it
(`cutShort`, `cutLong`), and then its escapes are replaced (`unescape`).
-/

namespace Soundstage.Toml

open Number

/-- The blanks within a line. -/
def isBlank (c : Char) : Bool := c = ' ' || c = '\t'

/-- Whether nothing but blanks stands before the next line break. -/
def endsLine (cs : List Char) : Bool := (cs.dropWhile isBlank).head? = some '\n'

def simpleEscape (c : Char) : Option Char :=
  if c = '"' ∨ c = '\\' then some c
  else if c = 'b' then some '\x08'
  else if c = 't' then some '\t'
  else if c = 'n' then some '\n'
  else if c = 'f' then some '\x0c'
  else if c = 'r' then some '\r'
  else none

/-- The character of a code point, if it is one. -/
def scalar? (n : Nat) : Option Char :=
  if n < 0xd800 ∨ (0xe000 ≤ n ∧ n < 0x110000) then some (Char.ofNat n) else none

/-- Replace the escapes. A backslash at the end of a line takes away the break and the blanks and
breaks after it; with `gap` such a stretch is being skipped. -/
def unescape (gap : Bool) : List Char → Option (List Char)
  | [] => some []
  | '\\' :: 'u' :: a :: b :: c :: d :: rest => do
    let e ← scalar? (← hexNumber [a, b, c, d])
    return e :: (← unescape false rest)
  | '\\' :: 'U' :: a :: b :: c :: d :: e :: f :: g :: h :: rest => do
    let e ← scalar? (← hexNumber [a, b, c, d, e, f, g, h])
    return e :: (← unescape false rest)
  | '\\' :: c :: rest =>
    match simpleEscape c with
    | some e => (unescape false rest).map (e :: ·)
    | none => if endsLine (c :: rest) then unescape true rest else none
  | c :: rest =>
    if gap ∧ (isBlank c ∨ c = '\n') then unescape true rest
    else if c = '\\' then none
    else (unescape false rest).map (c :: ·)

/-- The text up to a closing quote on the same line, and the rest after it. -/
def cutShort (quote : Char) (escapes : Bool) : List Char → Option (List Char × List Char)
  | [] => none
  | c :: rest =>
    if c = quote then some ([], rest)
    else if c = '\n' then none
    else if escapes ∧ c = '\\' then
      match rest with
      | [] => none
      | d :: rest => (cutShort quote escapes rest).map fun cut => (c :: d :: cut.1, cut.2)
    else (cutShort quote escapes rest).map fun cut => (c :: cut.1, cut.2)

/-- Take at most `n` further quotes. -/
def takeQuotes (quote : Char) : Nat → List Char → List Char × List Char
  | n + 1, c :: rest =>
    if c = quote then
      let (quotes, rest) := takeQuotes quote n rest
      (c :: quotes, rest)
    else ([], c :: rest)
  | _, cs => ([], cs)

/-- The text up to three closing quotes. Up to two more quotes before them belong to the text. -/
def cutLong (quote : Char) (escapes : Bool) : List Char → Option (List Char × List Char)
  | [] => none
  | c :: rest =>
    if c = quote ∧ rest.take 2 = [quote, quote] then some (takeQuotes quote 2 (rest.drop 2))
    else if escapes ∧ c = '\\' then
      match rest with
      | [] => none
      | d :: rest => (cutLong quote escapes rest).map fun cut => (c :: d :: cut.1, cut.2)
    else (cutLong quote escapes rest).map fun cut => (c :: cut.1, cut.2)

/-- The line break right after the opening quotes does not count. -/
def skipBreak : List Char → List Char
  | '\n' :: rest => rest
  | cs => cs

/-- A quoted text of one line, after its opening quote. -/
def readShort (quote : Char) (cs : List Char) : Option (String × List Char) := do
  let escapes := quote = '"'
  let (raw, rest) ← cutShort quote escapes cs
  return (String.ofList (← if escapes then unescape false raw else some raw), rest)

/-- A quoted text of several lines, after its opening quotes. -/
def readLong (quote : Char) (cs : List Char) : Option (String × List Char) := do
  let escapes := quote = '"'
  let (raw, rest) ← cutLong quote escapes (skipBreak cs)
  return (String.ofList (← if escapes then unescape false raw else some raw), rest)

/-- A quoted text of either form, after its first quote. -/
def readQuoted (quote : Char) (cs : List Char) : Option (String × List Char) :=
  if cs.take 2 = [quote, quote] then readLong quote (cs.drop 2) else readShort quote cs

end Soundstage.Toml
