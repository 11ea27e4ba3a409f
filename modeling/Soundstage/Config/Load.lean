import Soundstage.Config.Reader
import Soundstage.Disk
import Soundstage.Error
import Soundstage.Journal

/-!
# Configs from files

A config file may lie anywhere: the relative files of its events are looked up from the directory it
lies in.
-/

namespace Soundstage

/-- The event with its file seen from where `base` is seen from. -/
def Event.relativeTo (base : Path) (e : Event) : Event :=
  { e with file := e.file.map fun f => if f.isRelative then base.join f else f }

namespace Config

def relativeTo (base : Path) (c : Config) : Config :=
  { c with events := c.events.map (Event.relativeTo base) }

/-- The config that a text writes, or the reason why it writes none. -/
def ofText (text : String) : Except Fault Config :=
  match parse? text with
  | some c => .ok c
  | none => .error (.malformed "not a table of settings")

/-- The config in a file. -/
def load (disk : Disk) (p : Path) : Except Fault Config :=
  match disk.readText p with
  | .error fault => .error (.unreadable fault.message)
  | .ok text =>
    match ofText text with
    | .error fault => .error fault
    | .ok c =>
      match p.parent? with
      | some base => .ok (c.relativeTo base)
      | none => .ok c

/-- A config file that is there but cannot be used. -/
structure LoadFailure where
  path : Path
  cause : Fault
  deriving DecidableEq, Repr

def LoadFailure.message (f : LoadFailure) : String :=
  "Failed to load audio config '" ++ f.path.text ++ "'"

/-- What is reported while a config is looked for: that there is no file. -/
def searchLines (disk : Disk) (p : Path) : List Line :=
  if disk.pathExists p then []
  else [⟨.warn, "Audio config '" ++ p.text ++ "' not found, using defaults"⟩]

/-- The config to audition with: that of the file, or the default one when there is no file, with
both templates defined. -/
def prepare (disk : Disk) (p : Path) : Except LoadFailure Config :=
  if disk.pathExists p then
    match load disk p with
    | .ok c => .ok c.withTemplates
    | .error cause => .error ⟨p, cause⟩
  else .ok (withTemplates {})

end Config

end Soundstage
