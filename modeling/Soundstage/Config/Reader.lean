import Soundstage.Config
import Soundstage.Toml.Document

/-!
# Configs from TOML

How a config is written: a table of settings with the events in a table of their own, each a table
of its fields or an array of them in order. What is left out keeps its default, and keys without a
meaning are passed over.
-/

namespace Soundstage

namespace Toml.Value

def text? : Value → Option String
  | .text s => some s
  | _ => none

def boolean? : Value → Option Bool
  | .boolean b => some b
  | _ => none

def natural? : Value → Option Nat
  | .integer n => if n < 0 then none else some n.toNat
  | _ => none

/-- A number; an integer is rounded to the nearest float. -/
def float? : Value → Option Float
  | .float x => some x
  | .integer n => some (Decimal.ofInt n).toFloat
  | _ => none

/-- A number of single precision. An integer is rounded once, a float literal twice. -/
def single? : Value → Option Float32
  | .float x => some x.toFloat32
  | .integer n => some (Decimal.ofInt n).toFloat32
  | _ => none

def path? (v : Value) : Option Path := v.text?.map Path.mk

/-- A field that may be left out. -/
def orDefault {α : Type} (read : Value → Option α) (default : α) : Option Value → Option α
  | none => some default
  | some v => read v

end Toml.Value

namespace Event

open Toml

/-- An event from its fields, each as far as it is given. -/
def ofFields? (file looping volume least greatest : Option Value) : Option Event := do
  return {
    file := ← Value.orDefault (fun v => v.path?.map some) none file
    looping := ← Value.orDefault Value.boolean? false looping
    volume := ← Value.orDefault Value.float? 1 volume
    minDistance := ← Value.orDefault Value.single? 1 least
    maxDistance := ← Value.orDefault Value.single? 25 greatest }

/-- An event is a table, or an array of its fields in order. A moment is read as a table without any
known key. -/
def ofValue? : Value → Option Event
  | .table _ ms =>
    ofFields? (Members.get? ms "file") (Members.get? ms "looping") (Members.get? ms "volume")
      (Members.get? ms "min_distance") (Members.get? ms "max_distance")
  | .array items => ofFields? items[0]? items[1]? items[2]? items[3]? items[4]?
  | .moment => some {}
  | _ => none

end Event

namespace Config

open Toml

def readEvents : Members → Option (NameMap Event)
  | [] => some .empty
  | (name, value) :: rest => do
    let event ← Event.ofValue? value
    return (← readEvents rest).insert name event

def eventsOf? : Value → Option (NameMap Event)
  | .table _ ms => readEvents ms
  | _ => none

def ofMembers? (ms : Members) : Option Config := do
  let default : Config := {}
  return {
    customEvent :=
      ← Value.orDefault Value.text? default.customEvent (Members.get? ms "custom_event")
    customLoopEvent :=
      ← Value.orDefault Value.text? default.customLoopEvent (Members.get? ms "custom_loop_event")
    voiceBank :=
      ← Value.orDefault Value.text? default.voiceBank (Members.get? ms "voice_event_prefix")
    fadeOut := ← Value.orDefault Value.natural? default.fadeOut (Members.get? ms "fade_out_ms")
    events := ← Value.orDefault eventsOf? .empty (Members.get? ms "events") }

/-- The config that a text writes. -/
def parse? (text : String) : Option Config := (Toml.parse text).bind ofMembers?

end Config

end Soundstage
