import Soundstage.Text.Pieces

/-!
# Paths

A path is kept as it is written. What it names depends on the spelling (a trailing slash asks for a
directory), but two paths are the same key when their components agree: doubled slashes, inner `.`
pieces and a trailing slash do not count, a leading `./` and every `..` do.
-/

namespace Soundstage

structure Path where
  text : String
  deriving DecidableEq, Repr

namespace Path

instance : Inhabited Path := ⟨⟨""⟩⟩

/-- One step of a path. -/
inductive Component
  | root
  | here
  | up
  | name (text : List Char)
  deriving DecidableEq, Repr

/-- The text between slashes. A path without slashes has one piece. -/
def pieces (p : Path) : List (List Char) := Text.pieces '/' p.text.toList

/-- Whether a piece after the first is a step; blanks and `.` are none. -/
def isStep (piece : List Char) : Bool := piece ≠ [] && piece ≠ ['.']

/-- The pieces of a path that lead from one place to the next. -/
def steps (p : Path) : List (List Char) := p.pieces.filter isStep

def Component.ofPiece (piece : List Char) : Component :=
  if piece = ['.', '.'] then .up else if piece = ['.'] then .here else .name piece

/-- The steps of a list of pieces of which the first is special: blank before a slash it is the root,
and only there does `.` count. -/
def componentsOf : List (List Char) → List Component
  | [] => []
  | first :: rest =>
    let later := (rest.filter isStep).map Component.ofPiece
    if first ≠ [] then Component.ofPiece first :: later
    else if rest = [] then []
    else .root :: later

def components (p : Path) : List Component := componentsOf p.pieces

/-- Whether two paths are the same key. -/
def same (p q : Path) : Bool := p.components == q.components

def isAbsolute (p : Path) : Bool := p.text.toList.head? = some '/'

def isRelative (p : Path) : Bool := !p.isAbsolute

/-- The path of `rest` seen from the directory `base`. -/
def join (base rest : Path) : Path :=
  if rest.isAbsolute then rest
  else if base.text.toList = [] ∨ base.text.toList.getLast? = some '/' then
    ⟨base.text ++ rest.text⟩
  else ⟨base.text ++ "/" ++ rest.text⟩

/-- The pieces without those at the end that are no steps. -/
def trimEnd (pieces : List (List Char)) : List (List Char) :=
  (pieces.reverse.dropWhile fun piece => !isStep piece).reverse

/-- The text before the last component, if there is one; what stands before it keeps its
spelling. The root has no parent. -/
def parent? (p : Path) : Option Path :=
  match p.pieces with
  | [] => none
  | first :: rest =>
    match trimEnd rest with
    | [] => if first = [] then none else some ⟨""⟩
    | step :: steps =>
      match trimEnd (step :: steps).dropLast with
      | [] => some ⟨if first = [] then "/" else String.ofList first⟩
      | kept => some ⟨String.ofList (Text.join '/' (first :: kept))⟩

end Path

end Soundstage
