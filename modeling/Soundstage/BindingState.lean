/-!
# The life of a binding

A binding ties a file to an instance. It waits for the engine to ask for the sound, holds the loaded
sound, gives it back, and may load again until it is freed:

    unbound → awaitingLoad → loaded → releasing → awaitingLoad → … → freed

`CanBecome` lists the moves; `canBecome` decides it.
-/

namespace Soundstage

inductive BindingState
  | unbound
  | awaitingLoad
  | loaded
  | releasing
  | freed
  deriving DecidableEq, Repr

namespace BindingState

def all : List BindingState := [unbound, awaitingLoad, loaded, releasing, freed]

def name : BindingState → String
  | unbound => "Unbound"
  | awaitingLoad => "AwaitingLoad"
  | loaded => "Loaded"
  | releasing => "Releasing"
  | freed => "Freed"

/-- The moves of a binding. -/
inductive CanBecome : BindingState → BindingState → Prop
  | bind : CanBecome unbound awaitingLoad
  | load : CanBecome awaitingLoad loaded
  | release : CanBecome loaded releasing
  | reload : CanBecome releasing awaitingLoad
  | freeWaiting : CanBecome awaitingLoad freed
  | freeReleased : CanBecome releasing freed

def canBecome : BindingState → BindingState → Bool
  | unbound, awaitingLoad => true
  | awaitingLoad, loaded => true
  | awaitingLoad, freed => true
  | loaded, releasing => true
  | releasing, awaitingLoad => true
  | releasing, freed => true
  | _, _ => false

theorem canBecome_iff {s t : BindingState} : s.canBecome t = true ↔ CanBecome s t := by
  constructor
  · intro h
    cases s <;> cases t <;> first | constructor | exact absurd h (by decide)
  · rintro (_ | _ | _ | _ | _ | _) <;> rfl

end BindingState

end Soundstage
