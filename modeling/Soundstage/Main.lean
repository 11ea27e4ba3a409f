import Soundstage.CommandLine.Session

/-!
# The program

Reads the files that the arguments name, runs a session on them and prints what it leaves behind.
There is no output device to play on.
-/

namespace Soundstage.CommandLine

/-- What lies at a path. What cannot be read counts as a directory. -/
def inspect (p : Path) : IO (Option Node) := do
  try
    let bytes ← IO.FS.readBinFile p.text
    return some (.file (.bytes bytes.toList))
  catch e =>
    match e with
    | .noFileOrDirectory .. => return none
    | .resourceExhausted .. => return none
    | _ => return some .directory

/-- The files that an invocation looks for by the names it was given. -/
def Invocation.paths (i : Invocation) : List Path :=
  match i.command with
  | .file file _ _ => [i.config, file]
  | _ => [i.config]

/-- A disk with what lies at the given paths, seen from the working directory. -/
def snapshot (paths : List Path) : IO Disk := do
  let home : Path := ⟨(← IO.currentDir).toString⟩
  let nodes ← paths.mapM inspect
  return ({ home := home.steps } : Disk).fill
    ((paths.zip nodes).filterMap fun (p, node) => node.map fun n => (p, n))

/-- The paths that the arguments name, if they make an invocation. -/
def pathsOf (args : List String) : List Path :=
  match readInvocation args with
  | .ok i => i.paths
  | .error _ => []

/-- Whether a line is printed; the others only help to follow the library at work. -/
def isPrinted (line : Line) : Bool :=
  match line.level with
  | .error => true
  | .warn => true
  | .info => true
  | _ => false

end Soundstage.CommandLine

open Soundstage.CommandLine

def main (args : List String) : IO UInt32 := do
  let disk ← snapshot (pathsOf args)
  let session := run disk none args
  for line in session.journal.filter isPrinted do
    IO.eprintln line.render
  IO.print session.output
  unless session.complaint.isEmpty do
    IO.eprintln session.complaint
  return session.code.toUInt32
