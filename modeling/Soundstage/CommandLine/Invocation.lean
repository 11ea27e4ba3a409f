import Soundstage.CommandLine.Usage
import Soundstage.Path

/-!
# Invocations

What a command line asks for. Its words are taken one after another. A switch with a value of its
own word waits for that word, and what has come together is settled only when the next switch or
subject arrives or the words end; so of two faults the one that is met first need not be the one
reported.
-/

namespace Soundstage.CommandLine

/-- What was settled so far in one scope. -/
structure Settings where
  config : Option String := none
  /-- In nanoseconds. -/
  seconds : Option Nat := none
  params : List (String × Float32) := []
  place : Option Vec3 := none
  looping : Bool := false
  subject : Option String := none

/-- Why words are not taken any further. -/
inductive Stop
  | page (page : Page)
  | version
  /-- Nothing was asked for. -/
  | guidance
  | wrong (error : UsageError)
  deriving DecidableEq, Repr

/-- Read a value, unless the switch was given before. -/
def readOnce {α : Type} (switch : Switch) (value : String) (given : Bool)
    (read : String → Except ValueFault α) : Except Stop α :=
  if given then .error (.wrong (.repeated switch))
  else (read value).mapError fun fault => .wrong (.invalidValue switch value fault)

namespace Settings

/-- Settle a switch with its value. Only parameters may be repeated. -/
def accept (s : Settings) (switch : Switch) (value : String) : Except Stop Settings :=
  match switch with
  | .config =>
    (readOnce switch value s.config.isSome .ok).map fun c => { s with config := some c }
  | .seconds =>
    (readOnce switch value s.seconds.isSome readSeconds).map fun n => { s with seconds := some n }
  | .param =>
    (readOnce switch value false readParam).map fun p => { s with params := s.params ++ [p] }
  | .place =>
    (readOnce switch value s.place.isSome readPosition).map fun v => { s with place := some v }
  | _ => .error (.wrong (.unneededValue switch value))

/-- Settle a switch without a value. -/
def turn (s : Settings) (scope : Scope) (switch : Switch) : Except Stop Settings :=
  match switch with
  | .help => .error (.page (.scope scope))
  | .version => .error .version
  | .looping =>
    if s.looping then .error (.wrong (.repeated switch)) else .ok { s with looping := true }
  | _ => .error (.wrong (.missingValue switch))

end Settings

/-- The settings and the switch that is not settled yet, with its value once that has come. -/
structure Scan where
  settings : Settings := {}
  pending : Option (Switch × Option String) := none

namespace Scan

/-- Whether the next word is the value of a switch, unless it looks like a switch. -/
def awaits (s : Scan) : Bool :=
  match s.pending with
  | some (_, none) => true
  | _ => false

def settle (s : Scan) : Except Stop Settings :=
  match s.pending with
  | none => .ok s.settings
  | some (switch, none) => .error (.wrong (.missingValue switch))
  | some (switch, some value) => s.settings.accept switch value

/-- A switch by its name, with the value that is attached to it. -/
def takeSwitch (s : Scan) (scope : Scope) (switch : Switch) (value : Option String) :
    Except Stop Scan :=
  match switch.valueName?, value with
  | some _, some value => do
    let settings ← (← s.settle).accept switch value
    return { settings }
  | some _, none => do
    return { settings := ← s.settle, pending := some (switch, none) }
  | none, some value => .error (.wrong (.unneededValue switch value))
  | none, none => do
    let settings ← (← s.settle).turn scope switch
    return { settings }

/-- A word that starts with two dashes, without them. -/
def takeLong (s : Scan) (scope : Scope) (word : List Char) : Except Stop Scan :=
  let (name, value) :=
    match Text.splitOnce '=' word with
    | some (name, value) => (String.ofList name, some (String.ofList value))
    | none => (String.ofList word, none)
  match scope.switch? name with
  | some switch => s.takeSwitch scope switch value
  | none => .error (.wrong (.unexpected ("--" ++ name)))

/-- A word that starts with one dash. The first letter decides: those with a meaning end the
scan. -/
def takeShort (s : Scan) (scope : Scope) (letter : Char) : Except Stop Scan :=
  match scope.switchOfLetter? letter with
  | some switch => s.takeSwitch scope switch none
  | none => .error (.wrong (.unexpected (String.ofList ['-', letter])))

/-- A word that is neither a switch nor the value of one. -/
def takeSubject (s : Scan) (scope : Scope) (trailing : Bool) (word : String) : Except Stop Scan :=
  if scope.takesSubject ∧ s.settings.subject = none then do
    return { settings := { ← s.settle with subject := some word } }
  else if scope = .root ∧ ¬(trailing ∧ (word = "help" ∨ (Scope.ofCommand? word).isSome)) then
    .error (.wrong (.unknownCommand word))
  else .error (.wrong (.unexpected word))

/-- A word before any lone pair of dashes. -/
def takeWord (s : Scan) (scope : Scope) (word : String) : Except Stop Scan :=
  match word.toList with
  | '-' :: '-' :: rest => s.takeLong scope rest
  | '-' :: letter :: _ => s.takeShort scope letter
  | _ =>
    match s.pending with
    | some (switch, none) => .ok { s with pending := some (switch, some word) }
    | _ => s.takeSubject scope false word

end Scan

/-- Take words up to the name of a command, which only the root has. After a lone pair of dashes no
word is a switch or a command. Answers with the scan, and with the command and the words after it. -/
def scanWords (scope : Scope) : (trailing : Bool) → Scan → List String →
    Except Stop (Scan × Option (String × List String))
  | _, s, [] => .ok (s, none)
  | true, s, word :: rest => do scanWords scope true (← s.takeSubject scope true word) rest
  | false, s, word :: rest =>
    if scope = .root ∧ ¬s.awaits ∧ (word = "help" ∨ (Scope.ofCommand? word).isSome) then
      .ok (s, some (word, rest))
    else if word = "--" then scanWords scope true s rest
    else do scanWords scope false (← s.takeWord scope word) rest

/-- The settings after a command. -/
def readSettings (scope : Scope) (words : List String) : Except Stop Settings := do
  let (scan, _) ← scanWords scope false {} words
  let settings ← scan.settle
  if scope.takesSubject ∧ settings.subject = none then .error (.wrong .missingSubject)
  return settings

inductive Command
  | events
  | play (event : String) (seconds : Option Nat) (params : List (String × Float32)) (place : Vec3)
  | file (path : Path) (looping : Bool) (seconds : Option Nat)

structure Invocation where
  config : Path
  command : Command

def defaultConfig : String := "audio.toml"

/-- Where an event is played unless a place is given. -/
def defaultPlace : Vec3 := ⟨0, 0, -2⟩

def Settings.toCommand (s : Settings) : Scope → Command
  | .play => .play (s.subject.getD "") s.seconds s.params (s.place.getD defaultPlace)
  | .file => .file ⟨s.subject.getD ""⟩ s.looping s.seconds
  | _ => .events

/-- What the words of a command line ask for. What was given before the command is settled after
what was given behind it, which also overrides it. -/
def readInvocation (words : List String) : Except Stop Invocation := do
  let (scan, command?) ← scanWords .root false {} words
  match command? with
  | none =>
    let outer ← scan.settle
    if outer.config = none then .error .guidance else .error (.wrong .missingCommand)
  | some (name, rest) =>
    match Scope.ofCommand? name with
    | none =>
      match Page.ofWords rest with
      | .ok page => .error (.page page)
      | .error e => .error (.wrong e)
    | some scope =>
      let inner ← readSettings scope rest
      let outer ← scan.settle
      let config := (inner.config.or outer.config).getD defaultConfig
      return { config := ⟨config⟩, command := inner.toCommand scope }

end Soundstage.CommandLine
