import Soundstage.Engine
import Soundstage.NameMap

/-!
# Parameters of an entity

Every parameter set on an entity is remembered, so that instances posted later start with the same
values. Numbers and labels are kept apart: a name may have one of each.
-/

namespace Soundstage

structure Params where
  floats : NameMap Float32 := .empty
  labels : NameMap String := .empty

namespace Params

instance : Inhabited Params := ⟨{}⟩

def setFloat (p : Params) (name : String) (value : Float32) : Params :=
  { p with floats := p.floats.insert name value }

def setLabel (p : Params) (name label : String) : Params :=
  { p with labels := p.labels.insert name label }

def float? (p : Params) (name : String) : Option Float32 := p.floats.get? name

def label? (p : Params) (name : String) : Option String := p.labels.get? name

def size (p : Params) : Nat := p.floats.size + p.labels.size

def isEmpty (p : Params) : Bool := p.size = 0

def sameFloats : List (String × Float32) → List (String × Float32) → Bool
  | [], [] => true
  | (m, x) :: xs, (n, y) :: ys => m == n && x == y && sameFloats xs ys
  | _, _ => false

/-- Whether names and values agree, values as numbers: a NaN differs from itself. -/
def same (p q : Params) : Bool :=
  sameFloats p.floats.entries q.floats.entries && p.labels.entries == q.labels.entries

variable {E L : Type} [Loader L] [Engine E L]

def writeFloat (i : InstanceId) (r : Rig E L) (entry : String × Float32) : Rig E L :=
  r.attempt (Engine.setFloat i entry.1 entry.2) fun e =>
    "Audio: " ++ i.text ++ " rejected parameter '" ++ entry.1 ++ "': " ++ e.message

def writeLabel (i : InstanceId) (r : Rig E L) (entry : String × String) : Rig E L :=
  r.attempt (Engine.setLabel i entry.1 entry.2) fun e =>
    "Audio: " ++ i.text ++ " rejected label '" ++ entry.1 ++ "': " ++ e.message

/-- Write every value to an instance: the numbers by name, then the labels by name. -/
def applyTo (p : Params) (i : InstanceId) (r : Rig E L) : Rig E L :=
  p.labels.entries.foldl (writeLabel i) (p.floats.entries.foldl (writeFloat i) r)

end Params

end Soundstage
