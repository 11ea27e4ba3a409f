/-!
# Places in the world

Positions and facings in single precision. `same` is the comparison of the numbers themselves: a
NaN differs from itself and the two zeros are the same.
-/

namespace Soundstage

/-- A point or a direction. -/
structure Vec3 where
  x : Float32
  y : Float32
  z : Float32

namespace Vec3

def zero : Vec3 := ⟨0, 0, 0⟩

/-- The facing that emitters and the listener start with: down the negative z axis. -/
def forward : Vec3 := ⟨0, 0, -1⟩

def same (a b : Vec3) : Bool := a.x == b.x && a.y == b.y && a.z == b.z

end Vec3

instance : Inhabited Vec3 := ⟨.zero⟩

/-- Where something is and where it faces. -/
structure Attributes where
  position : Vec3
  forward : Vec3

namespace Attributes

/-- At `position`, facing forward. -/
def ofPosition (position : Vec3) : Attributes := ⟨position, .forward⟩

def origin : Attributes := .ofPosition .zero

def same (a b : Attributes) : Bool := a.position.same b.position && a.forward.same b.forward

end Attributes

instance : Inhabited Attributes := ⟨.origin⟩

end Soundstage
