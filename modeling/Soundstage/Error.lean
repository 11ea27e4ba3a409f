import Soundstage.BindingState
import Soundstage.Id
import Soundstage.Path

/-!
# Errors

`AudioError` is what engines, loaders and the bridge report; callers log it and go on in silence.
`Fault` is what loading a config reports, with the errors of audio as one of its causes.
-/

namespace Soundstage

inductive AudioError
  | eventNotFound (event : String)
  | invalidInstance (instanceId : InstanceId)
  | noDevice
  | decodeFailed (path : Path) (reason : String)
  | unknownSound (sound : SoundId)
  | unknownBinding (instanceId : InstanceId)
  | bindingAlreadyFreed (instanceId : InstanceId)
  | invalidTransition (instanceId : InstanceId) (source target : BindingState)
  /-- A fault of the engine itself. -/
  | engine (reason : String)
  deriving DecidableEq, Repr

def AudioError.message : AudioError → String
  | eventNotFound event => "Event not found: " ++ event
  | invalidInstance i => "Invalid instance: " ++ i.text
  | noDevice => "No audio device available"
  | decodeFailed path reason => "Failed to decode '" ++ path.text ++ "': " ++ reason
  | unknownSound sound => "Unknown sound: " ++ sound.text
  | unknownBinding i => "No programmer sound bound to " ++ i.text
  | bindingAlreadyFreed i => "Programmer sound binding for " ++ i.text ++ " was already freed"
  | invalidTransition i source target =>
    "Invalid binding transition for " ++ i.text ++ ": " ++ source.name ++ " -> " ++ target.name
  | engine reason => "Backend error: " ++ reason

inductive Fault
  | unreadable (reason : String)
  | malformed (reason : String)
  | audio (reason : String)
  deriving DecidableEq, Repr

def Fault.message : Fault → String
  | unreadable reason => "IO error: " ++ reason
  | malformed reason => "TOML parse error: " ++ reason
  | audio reason => "Audio error: " ++ reason

def AudioError.toFault (e : AudioError) : Fault := .audio e.message

end Soundstage
