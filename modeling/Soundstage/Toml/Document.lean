import Soundstage.Toml.Quoted
import Soundstage.Toml.Scalar

/-!
# TOML documents

A document is read in three steps: its line breaks are unified (`unify`), its lines are read into
entries and headers (`readLines`), and these build the tree of tables from the top (`build`).
-/

namespace Soundstage.Toml

open Number

/-! ### Characters -/

/-- Whether a character may stand in a document at all. -/
def isAllowed (c : Char) : Bool := c = '\t' || c = '\n' || (0x20 ≤ c.toNat && c.toNat ≠ 0x7f)

/-- With `\n` for every line break, `none` when a character may not stand in a document. -/
def unify : List Char → Option (List Char)
  | [] => some []
  | '\r' :: '\n' :: rest => (unify rest).map ('\n' :: ·)
  | c :: rest => if isAllowed c then (unify rest).map (c :: ·) else none

def skipBlank (cs : List Char) : List Char := cs.dropWhile isBlank

def skipComment (cs : List Char) : List Char :=
  match cs with
  | '#' :: rest => rest.dropWhile (· ≠ '\n')
  | _ => cs

/-- Skip blanks, line breaks and comments. The first argument bounds the number of steps. -/
def skipGap : Nat → List Char → List Char
  | 0, cs => cs
  | fuel + 1, cs =>
    match skipComment (skipBlank cs) with
    | '\n' :: rest => skipGap fuel rest
    | rest => rest

/-- The rest after the end of a line, where a comment may stand. -/
def readLineEnd (cs : List Char) : Option (List Char) :=
  match skipComment (skipBlank cs) with
  | [] => some []
  | '\n' :: rest => some rest
  | _ => none

/-! ### Keys -/

def isBare (c : Char) : Bool :=
  ('a' ≤ c && c ≤ 'z') || ('A' ≤ c && c ≤ 'Z') || isDigit c || c = '_' || c = '-'

/-- One step of a key, quoted or bare. -/
def readStep (cs : List Char) : Option (String × List Char) :=
  match cs with
  | '"' :: rest => readShort '"' rest
  | '\'' :: rest => readShort '\'' rest
  | _ =>
    match cs.takeWhile isBare with
    | [] => none
    | bare => some (String.ofList bare, cs.dropWhile isBare)

/-- A key of at most as many steps as the first argument says: those before the last, the last, and
the rest. -/
def readKey : Nat → List Char → Option (List String × String × List Char)
  | 0, _ => none
  | limit + 1, cs => do
    let (step, rest) ← readStep (skipBlank cs)
    match skipBlank rest with
    | '.' :: rest => do
      let (path, last, rest) ← readKey limit rest
      return (step :: path, last, rest)
    | rest => return ([], step, rest)

/-- How deep arrays and tables between braces may be nested, and how many steps a key may have. -/
def depthLimit : Nat := 79

/-! ### Values -/

def readWord (word : List Char) (value : Value) (cs : List Char) : Option (Value × List Char) :=
  if word.isPrefixOf cs then some (value, cs.drop word.length) else none

mutual

/-- A value at the start of the text. The first argument is how deep it may be nested, the second
bounds the recursion. -/
def readValue : Nat → Nat → List Char → Option (Value × List Char)
  | _, 0, _ => none
  | depth, fuel + 1, cs =>
    match cs with
    | '"' :: rest => (readQuoted '"' rest).map fun (text, rest) => (.text text, rest)
    | '\'' :: rest => (readQuoted '\'' rest).map fun (text, rest) => (.text text, rest)
    | '[' :: rest =>
      match depth with
      | 0 => none
      | depth + 1 =>
        match skipGap rest.length rest with
        | ']' :: rest => some (.array [], rest)
        | rest => (readItems depth fuel rest).map fun (items, rest) => (.array items, rest)
    | '{' :: rest =>
      match depth with
      | 0 => none
      | depth + 1 =>
        match skipBlank rest with
        | '}' :: rest => some (.table .inline [], rest)
        | rest => do
          let (entries, rest) ← readEntries depth fuel rest
          return (.table .inline (← Members.ofInline entries), rest)
    | 't' :: rest => readWord ['r', 'u', 'e'] (.boolean true) rest
    | 'f' :: rest => readWord ['a', 'l', 's', 'e'] (.boolean false) rest
    | cs => (readSpecial cs).or (readNumeric cs)

/-- Values with commas between them, up to the closing bracket. A comma may stand before it. -/
def readItems : Nat → Nat → List Char → Option (List Value × List Char)
  | _, 0, _ => none
  | depth, fuel + 1, cs => do
    let (value, rest) ← readValue depth fuel cs
    match skipGap rest.length rest with
    | ']' :: rest => return ([value], rest)
    | ',' :: rest =>
      match skipGap rest.length rest with
      | ']' :: rest => return ([value], rest)
      | rest =>
        let (values, rest) ← readItems depth fuel rest
        return (value :: values, rest)
    | _ => none

/-- Entries with commas between them, up to the closing brace. -/
def readEntries : Nat → Nat → List Char → Option (List (List String × String × Value) × List Char)
  | _, 0, _ => none
  | depth, fuel + 1, cs => do
    let (path, key, rest) ← readKey depthLimit cs
    match rest with
    | '=' :: rest =>
      let (value, rest) ← readValue depth fuel (skipBlank rest)
      match skipBlank rest with
      | '}' :: rest => return ([(path, key, value)], rest)
      | ',' :: rest =>
        let (entries, rest) ← readEntries depth fuel rest
        return ((path, key, value) :: entries, rest)
      | _ => none
    | _ => none

end

/-! ### Lines -/

inductive Line
  /-- A value under a key, seen from the table that is open. -/
  | entry (path : List String) (key : String) (value : Value)
  /-- The header of a table, seen from the root. -/
  | table (path : List String) (key : String)
  /-- The header of the next table of an array. -/
  | element (path : List String) (key : String)

/-- A line that is neither blank nor a comment. -/
def readLine (cs : List Char) : Option (Line × List Char) :=
  match cs with
  | '[' :: '[' :: rest => do
    let (path, key, rest) ← readKey depthLimit rest
    match rest with
    | ']' :: ']' :: rest => return (.element path key, ← readLineEnd rest)
    | _ => none
  | '[' :: rest => do
    let (path, key, rest) ← readKey depthLimit rest
    match rest with
    | ']' :: rest => return (.table path key, ← readLineEnd rest)
    | _ => none
  | _ => do
    let (path, key, rest) ← readKey depthLimit cs
    match rest with
    | '=' :: rest =>
      let (value, rest) ← readValue depthLimit (2 * rest.length + 2) (skipBlank rest)
      return (.entry path key value, ← readLineEnd rest)
    | _ => none

/-- All lines. Every line takes a character, so the length of the text bounds their number. -/
def readLines : Nat → List Char → Option (List Line)
  | 0, _ => none
  | fuel + 1, cs =>
    match skipGap cs.length cs with
    | [] => some []
    | cs => do
      let (line, rest) ← readLine cs
      return line :: (← readLines fuel rest)

/-! ### The tree -/

/-- Carry out the lines one after another; `current` leads to the table that is open. -/
def buildFrom (root : Members) (current : List String) : List Line → Option Members
  | [] => some root
  | .entry path key value :: rest => do
    let root ← Members.within false (Members.add path key value) current .header root
    buildFrom root current rest
  | .table path key :: rest => do
    let root ← Members.within false (fun _ => Members.openTable key) path .header root
    buildFrom root (path ++ [key]) rest
  | .element path key :: rest => do
    let root ← Members.within false (fun _ => Members.openElement key) path .header root
    buildFrom root (path ++ [key]) rest

def build (lines : List Line) : Option Members := buildFrom [] [] lines

/-- A byte order mark may stand at the start. -/
def skipMark : List Char → List Char
  | '\ufeff' :: rest => rest
  | cs => cs

/-- The root table of a document. -/
def parse (text : String) : Option Members := do
  let cs ← unify (skipMark text.toList)
  build (← readLines (cs.length + 1) cs)

end Soundstage.Toml
