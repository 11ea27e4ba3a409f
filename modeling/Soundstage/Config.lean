import Soundstage.NameMap
import Soundstage.Path

/-!
# Configuration

The events a mixing engine knows, the names of the two template events that external files are
streamed into, the bank of the voice lines, and how long a sound may fade out.
-/

namespace Soundstage

/-- A playable event. Without a file it is a template: the receiver of the instance supplies the
sound. -/
structure Event where
  file : Option Path := none
  looping : Bool := false
  volume : Float := 1
  minDistance : Float32 := 1
  maxDistance : Float32 := 25

namespace Event

instance : Inhabited Event := ⟨{}⟩

def isTemplate (e : Event) : Bool := e.file.isNone

end Event

structure Config where
  customEvent : String := "SFX/custom"
  customLoopEvent : String := "SFX/custom_loop"
  /-- What the names of voice events start with. -/
  voiceBank : String := "Char/Voice/vo_"
  /-- In milliseconds. -/
  fadeOut : Nat := 250
  events : NameMap Event := .empty

namespace Config

instance : Inhabited Config := ⟨{}⟩

/-- The event that files are streamed into. -/
def template (c : Config) (looping : Bool) : String :=
  if looping then c.customLoopEvent else c.customEvent

def event? (c : Config) (name : String) : Option Event := c.events.get? name

def eventNames (c : Config) : List String := c.events.names

/-- The fade in whole seconds and the nanoseconds beyond them. -/
def fadeOutParts (c : Config) : Nat × Nat := (c.fadeOut / 1000, c.fadeOut % 1000 * 1000000)

/-- Define both templates where they are not defined. The one-shot template comes first, so when
both have one name the template does not loop. -/
def withTemplates (c : Config) : Config :=
  { c with
    events :=
      (c.events.insertIfNew c.customEvent {}).insertIfNew c.customLoopEvent { looping := true } }

end Config

end Soundstage
