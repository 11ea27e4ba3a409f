import Soundstage.Id

/-!
# Callbacks

What an engine tells about an instance, and to whom. A receiver is data: the emitter that only keeps
a record, the bridge that answers with a streamed file, or a host that watches and may supply a
sound of its own.
-/

namespace Soundstage

inductive CallbackKind
  /-- The instance needs a sound. -/
  | createSound
  /-- The instance no longer needs its sound. -/
  | destroySound
  /-- The instance is gone; nothing follows. -/
  | destroyed
  deriving DecidableEq, Repr

def CallbackKind.name : CallbackKind → String
  | createSound => "CreateSound"
  | destroySound => "DestroySound"
  | destroyed => "Destroyed"

/-- What engine and receiver pass back and forth. The receiver writes `sound` when one is asked for,
and finds there what was written when it is given back. -/
structure Props where
  sound : Option SoundId := none
  subsound : Int := 0
  deriving DecidableEq, Repr

instance : Inhabited Props := ⟨{}⟩

inductive Receiver
  | lifecycle (entity : EntityId)
  | bridge
  | host (supplied : Option SoundId)
  deriving DecidableEq, Repr

end Soundstage
