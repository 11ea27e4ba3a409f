import Soundstage.Path

/-!
# Files

The files a program can see. They lie in directories below one root, and the program works in one of
these: a relative path starts there, an absolute one at the root. A path is followed one piece at a
time, and every piece needs a directory to start from.
-/

namespace Soundstage

/-- A sound file: 16 bit samples. -/
structure Recording where
  frames : Nat
  channels : Nat
  rate : Nat
  deriving DecidableEq, Repr

inductive Content
  | text (text : String)
  | bytes (bytes : List UInt8)
  | recording (recording : Recording)
  deriving DecidableEq, Repr

inductive Node
  | directory
  | file (content : Content)
  deriving DecidableEq, Repr

/-- Why a file cannot be read. -/
inductive FileFault
  | notFound
  | notDirectory
  | isDirectory
  | nameTooLong
  | notText
  | nulByte
  deriving DecidableEq, Repr

def FileFault.message : FileFault → String
  | notFound => "No such file or directory (os error 2)"
  | notDirectory => "Not a directory (os error 20)"
  | isDirectory => "Is a directory (os error 21)"
  | nameTooLong => "File name too long (os error 36)"
  | notText => "stream did not contain valid UTF-8"
  | nulByte => "file name contained an unexpected NUL byte"

/-- A place a path can lead to, by the names on the way from the root. -/
abbrev Spot := List (List Char)

/-- The directory around a place. The root is around itself. -/
def Spot.up (s : Spot) : Spot := s.dropLast

structure Disk where
  entries : List (Spot × Node) := []
  /-- The working directory. It is there whatever the entries are, and so is all that is around it. -/
  home : Spot := ["home".toList]
  deriving DecidableEq, Repr

namespace Disk

/-- Nothing but the working directory. -/
def empty : Disk := {}

instance : Inhabited Disk := ⟨empty⟩

def lookup (s : Spot) : List (Spot × Node) → Option Node
  | [] => none
  | (t, node) :: rest => if s = t then some node else lookup s rest

def nodeAt (d : Disk) (s : Spot) : Option Node :=
  if s.isPrefixOf d.home then some .directory else lookup s d.entries

/-- The longest name of a file, in bytes. -/
def nameLimit : Nat := 255

/-- The longest path, in bytes. -/
def pathLimit : Nat := 4095

/-- Go from a directory to what is called `name` in it. -/
def enter (d : Disk) (spot : Spot) (name : List Char) : Except FileFault Spot :=
  if nameLimit < (String.ofList name).utf8ByteSize then .error .nameTooLong
  else
    let target := spot ++ [name]
    if (d.nodeAt target).isSome then .ok target else .error .notFound

/-- One piece of a path, a blank one too. -/
def advance (d : Disk) (spot : Spot) (piece : List Char) : Except FileFault Spot :=
  match d.nodeAt spot with
  | none => .error .notFound
  | some (.file _) => .error .notDirectory
  | some .directory =>
    if !Path.isStep piece then .ok spot
    else if piece = ['.', '.'] then .ok spot.up
    else d.enter spot piece

def follow (d : Disk) : Spot → List (List Char) → Except FileFault Spot
  | spot, [] => .ok spot
  | spot, piece :: rest =>
    match d.advance spot piece with
    | .ok next => d.follow next rest
    | .error fault => .error fault

/-- Where a path starts. -/
def startOf (d : Disk) (p : Path) : Spot := if p.isAbsolute then [] else d.home

/-- The place a path leads to. -/
def resolve (d : Disk) (p : Path) : Except FileFault Spot :=
  if p.text.toList.contains (Char.ofNat 0) then .error .nulByte
  else if p.text.toList = [] then .error .notFound
  else if pathLimit < p.text.utf8ByteSize then .error .nameTooLong
  else d.follow (d.startOf p) p.pieces

/-- What a path leads to. -/
def find (d : Disk) (p : Path) : Except FileFault Node :=
  match d.resolve p with
  | .error fault => .error fault
  | .ok spot =>
    match d.nodeAt spot with
    | some node => .ok node
    | none => .error .notFound

def pathExists (d : Disk) (p : Path) : Bool :=
  match d.find p with
  | .ok _ => true
  | .error _ => false

/-- The text of a file. Bytes of a sound are none. -/
def readText (d : Disk) (p : Path) : Except FileFault String :=
  match d.find p with
  | .error fault => .error fault
  | .ok .directory => .error .isDirectory
  | .ok (.file (.text text)) => .ok text
  | .ok (.file (.bytes bytes)) =>
    match String.fromUTF8? ⟨bytes.toArray⟩ with
    | some text => .ok text
    | none => .error .notText
  | .ok (.file (.recording _)) => .error .notText

/-! ### Filling a disk -/

def put (d : Disk) (s : Spot) (node : Node) : Disk :=
  { d with entries := d.entries.filter (fun e => e.1 ≠ s) ++ [(s, node)] }

/-- Make a directory unless something is there. -/
def ensure (d : Disk) (s : Spot) : Disk := if (d.nodeAt s).isSome then d else d.put s .directory

/-- Put `node` where the steps lead, with the directories on the way. -/
def plant (node : Node) : Disk → Spot → List Path.Component → Disk
  | d, _, [] => d
  | d, s, [.name n] => if node = .directory then d.ensure (s ++ [n]) else d.put (s ++ [n]) node
  | d, s, .name n :: rest => plant node (d.ensure (s ++ [n])) (s ++ [n]) rest
  | d, s, .up :: rest => plant node d s.up rest
  | d, s, _ :: rest => plant node d s rest

def add (d : Disk) (p : Path) (node : Node) : Disk := plant node d (d.startOf p) p.components

/-- The disk with the given files besides, made one after another. -/
def fill (d : Disk) (files : List (Path × Node)) : Disk :=
  files.foldl (fun d f => d.add f.1 f.2) d

def ofList (files : List (Path × Node)) : Disk := empty.fill files

end Disk

end Soundstage
