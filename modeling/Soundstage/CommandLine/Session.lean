import Soundstage.Audition
import Soundstage.CommandLine.Invocation
import Soundstage.Config.Load
import Soundstage.Engine.Mixing
import Soundstage.Number.Fixed

/-!
# Sessions

A run of the program: what it prints, what it logs and how it ends, given the files it can see and
the device it can play on.
-/

namespace Soundstage.CommandLine

open Number

/-- Why a well-formed command fails. -/
inductive Failure
  | config (failure : Config.LoadFailure)
  | unknownEvent (path : Path) (event : String)
  | notPosted (name : String)
  deriving DecidableEq, Repr

def Failure.message : Failure → String
  | config f => f.message
  | unknownEvent path event => "Event not found in '" ++ path.text ++ "': " ++ event
  | notPosted name => "Failed to post '" ++ name ++ "'"

/-- What a run leaves behind. -/
structure Session where
  code : Nat
  output : String := ""
  /-- What is said about a failure. -/
  complaint : String := ""
  journal : List Line := []

def Session.ofFailure (failure : Failure) (output : String) (journal : List Line) : Session :=
  { code := 1, output, complaint := "Error: " ++ failure.message, journal }

def Session.ofStop : Stop → Session
  | .page page => { code := 0, output := page.text }
  | .version => { code := 0, output := versionLine ++ "\n" }
  | .guidance => { code := 2, complaint := String.intercalate "\n" (Page.scope .root).lines }
  | .wrong e => { code := 2, complaint := "error: " ++ e.message }

/-! ### Listing -/

def eventLines (name : String) (e : Event) : List String :=
  let source :=
    match e.file with
    | some file => file.text
    | none => "<programmer sound>"
  ["  " ++ name ++ (if e.looping then " (loop)" else "") ++ " : " ++ source,
    "    volume " ++ fixed 2 e.volume ++ ", distance " ++ fixed32 1 e.minDistance ++ " .. " ++
      fixed32 1 e.maxDistance]

/-- The events of a config in the order of their names, and its other names. -/
def listing (c : Config) : List String :=
  ("Events (" ++ toString c.events.size ++ "):") ::
    (c.events.entries.flatMap fun (name, e) => eventLines name e) ++
    ["", "Custom templates: " ++ c.customEvent ++ " / " ++ c.customLoopEvent,
      "Voice prefix: " ++ c.voiceBank]

def printed (lines : List String) : String := String.join (lines.map (· ++ "\n"))

/-! ### Playing -/

/-- The one entity of a session. -/
def performer : EntityId := ⟨1⟩

/-- Where a file is streamed: in front of the listener. -/
def stage : Vec3 := ⟨0, 0, -1⟩

/-- The frames that a session waits for an entity that does not fall silent. -/
def patience : Nat := 1000000000

/-- A system with the listener at the origin, after `journal` was reported. -/
def openSystem (disk : Disk) (device : Option Device) (c : Config) (journal : List Line) :
    System MixingEngine StreamingLoader :=
  let s : System MixingEngine StreamingLoader := .ofEngine (.ofConfig c device) c {} disk
  let rig := s.rig
  let s :=
    { s with rig := { rig with journal := journal ++ MixingEngine.openingLines device } }
  s.setListenerPosition .zero

/-- What is printed when there is nothing to play on. -/
def deviceLines (device : Option Device) : List String :=
  if device.isNone then ["Warning: no audio device, running silent"] else []

/-- Print the lines and wait for the performer, if it was posted. -/
def perform (posted : Option Handle) (name : String) (before after : List String) (place : Vec3)
    (limit : Option Nat) (s : System MixingEngine StreamingLoader) : Session :=
  match posted with
  | none => .ofFailure (.notPosted name) (printed before) s.rig.journal
  | some _ =>
    let s := (s.runUntilSilent performer place limit patience).2
    { code := 0, output := printed (before ++ after), journal := s.rig.journal }

def playEvent (disk : Disk) (device : Option Device) (c : Config) (journal : List Line)
    (event : String) (limit : Option Nat) (params : List (String × Float32)) (place : Vec3) :
    Session :=
  let s := (openSystem disk device c journal).setPosition performer place
  let s := params.foldl (fun s (name, value) => s.setFloat performer name value) s
  let (posted, s) := s.post performer event false
  perform posted event (deviceLines device) ["Playing: " ++ event] place limit s

/-- A file that loops does not end by itself; it is kept so that it can be stopped. -/
def streamFile (disk : Disk) (device : Option Device) (c : Config) (journal : List Line)
    (file : Path) (looping : Bool) (limit : Option Nat) : Session :=
  let s := (openSystem disk device c journal).setPosition performer stage
  let (posted, s) := s.postCustom performer file looping looping
  let after :=
    ("Streaming: " ++ file.text ++ (if looping then " (loop)" else "")) ::
      if looping ∧ limit = none then ["Looping until interrupted (Ctrl+C)"] else []
  perform posted file.text (deviceLines device) after stage limit s

/-- Carry out an invocation. -/
def execute (disk : Disk) (device : Option Device) (i : Invocation) : Session :=
  let journal := Config.searchLines disk i.config
  match Config.prepare disk i.config with
  | .error failure => .ofFailure (.config failure) "" journal
  | .ok c =>
    match i.command with
    | .events => { code := 0, output := printed (listing c), journal }
    | .play event limit params place =>
      if (c.event? event).isNone then .ofFailure (.unknownEvent i.config event) "" journal
      else playEvent disk device c journal event limit params place
    | .file file looping limit => streamFile disk device c journal file looping limit

/-- Run the program with the given words. -/
def run (disk : Disk) (device : Option Device) (words : List String) : Session :=
  match readInvocation words with
  | .error stop => .ofStop stop
  | .ok i => execute disk device i

end Soundstage.CommandLine
