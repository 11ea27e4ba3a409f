import Soundstage.Id
import Soundstage.Json
import Soundstage.Spatial
import Soundstage.Voice

/-!
# Values from JSON

How identifiers, places and voices are written in save files. A record is an object, in which unknown
members are passed over, or an array of its fields in order.
-/

namespace Soundstage

namespace Json

/-- The largest identifier. -/
def idLimit : Nat := 18446744073709551615

def toEntityId? : Json → Option EntityId
  | .number value true =>
    if value.negative ∨ idLimit < value.digits then none else some ⟨value.digits⟩
  | _ => none

/-- A number of single precision; it must be finite. -/
def toFloat32? : Json → Option Float32
  | .number value _ => if value.toFloat32.isInf then none else some value.toFloat32
  | _ => none

/-- The one member called `name`; every name must be a text. -/
def field? (name : String) (members : List (Option String × Json)) : Option Json :=
  if members.any (·.1.isNone) then none
  else
    match members.filter (·.1 == some name) with
    | [(_, value)] => some value
    | _ => none

def toVec3? : Json → Option Vec3
  | .array [x, y, z] => do
    return ⟨← x.toFloat32?, ← y.toFloat32?, ← z.toFloat32?⟩
  | .object members => do
    let x ← field? "x" members
    let y ← field? "y" members
    let z ← field? "z" members
    return ⟨← x.toFloat32?, ← y.toFloat32?, ← z.toFloat32?⟩
  | _ => none

def toAttributes? : Json → Option Attributes
  | .array [position, forward] => do
    return ⟨← position.toVec3?, ← forward.toVec3?⟩
  | .object members => do
    let position ← field? "position" members
    let forward ← field? "forward" members
    return ⟨← position.toVec3?, ← forward.toVec3?⟩
  | _ => none

/-- A voice by its label, alone or as the name of an only member without a value. -/
def toVoice? : Json → Option Voice
  | .string (some label) => Voice.ofLabel? label
  | .object [(some label, .null)] => Voice.ofLabel? label
  | _ => none

end Json

end Soundstage
