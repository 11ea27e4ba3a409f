/-!
# Identifiers

Instances, sounds and entities are named by natural numbers of their own types, so that none can
stand where another is meant. `text` is the form used in messages, `debugText` the form that shows
the type.
-/

namespace Soundstage

/-- An event instance inside an engine. -/
structure InstanceId where
  val : Nat
  deriving DecidableEq, Repr

/-- A decoded sound owned by a loader. -/
structure SoundId where
  val : Nat
  deriving DecidableEq, Repr

/-- A game entity that owns sounds. Zero is left to the host, for instance for music. -/
structure EntityId where
  val : Nat
  deriving DecidableEq, Repr

namespace InstanceId

def text (id : InstanceId) : String := "instance#" ++ toString id.val

def debugText (id : InstanceId) : String := "InstanceId(" ++ toString id.val ++ ")"

end InstanceId

namespace SoundId

def text (id : SoundId) : String := "sound#" ++ toString id.val

def debugText (id : SoundId) : String := "SoundRef(" ++ toString id.val ++ ")"

end SoundId

namespace EntityId

/-- The owner of the background music. -/
def music : EntityId := ⟨0⟩

/-- The entity allocated first; later ones follow without gaps. -/
def first : EntityId := ⟨1⟩

/-- The `count` entities allocated one after another, starting with the first. -/
def allocate (count : Nat) : List EntityId :=
  (List.range count).map fun i => ⟨first.val + i⟩

def text (id : EntityId) : String := "entity " ++ toString id.val

def debugText (id : EntityId) : String := "EntityId(" ++ toString id.val ++ ")"

end EntityId

end Soundstage
