import Soundstage.CommandLine.Value

/-!
# Usage

The commands and their switches, what is wrong with a command line, and the pages of help.
-/

namespace Soundstage.CommandLine

/-- Where a word stands: before the command, or after it. -/
inductive Scope
  | root
  | events
  | play
  | file
  deriving DecidableEq, Repr

namespace Scope

/-- The commands, by name. -/
def ofCommand? (name : String) : Option Scope :=
  if name = "events" then some .events
  else if name = "play" then some .play
  else if name = "file" then some .file
  else none

/-- Whether the command acts on something that is named by a word of its own. -/
def takesSubject : Scope → Bool
  | root => false
  | events => false
  | play => true
  | file => true

end Scope

inductive Switch
  | config
  | seconds
  | param
  | place
  | looping
  | help
  | version
  deriving DecidableEq, Repr

namespace Switch

def name : Switch → String
  | config => "config"
  | seconds => "seconds"
  | param => "param"
  | place => "at"
  | looping => "loop"
  | help => "help"
  | version => "version"

/-- What the value of a switch is called, if it takes one. -/
def valueName? : Switch → Option String
  | config => some "CONFIG"
  | seconds => some "SECONDS"
  | param => some "PARAMS"
  | place => some "AT"
  | looping => none
  | help => none
  | version => none

def letter? : Switch → Option Char
  | help => some 'h'
  | version => some 'V'
  | _ => none

/-- How messages show a switch. -/
def text (s : Switch) : String :=
  match s.valueName? with
  | some value => "--" ++ s.name ++ " <" ++ value ++ ">"
  | none => "--" ++ s.name

end Switch

namespace Scope

def switches : Scope → List Switch
  | root => [.config, .help, .version]
  | events => [.config, .help]
  | play => [.config, .seconds, .param, .place, .help]
  | file => [.config, .looping, .seconds, .help]

def switch? (s : Scope) (name : String) : Option Switch := s.switches.find? fun w => w.name = name

def switchOfLetter? (s : Scope) (letter : Char) : Option Switch :=
  s.switches.find? fun w => w.letter? = some letter

end Scope

inductive UsageError
  | missingValue (switch : Switch)
  | unneededValue (switch : Switch) (value : String)
  | invalidValue (switch : Switch) (value : String) (fault : ValueFault)
  | repeated (switch : Switch)
  | unexpected (word : String)
  | unknownCommand (word : String)
  | missingCommand
  | missingSubject
  deriving DecidableEq, Repr

def UsageError.message : UsageError → String
  | missingValue switch => "a value is required for '" ++ switch.text ++ "' but none was supplied"
  | unneededValue switch value =>
    "unexpected value '" ++ value ++ "' for '" ++ switch.text ++ "' found; no more were expected"
  | invalidValue switch value fault =>
    "invalid value '" ++ value ++ "' for '" ++ switch.text ++ "': " ++ fault.message
  | repeated switch => "the argument '" ++ switch.text ++ "' cannot be used multiple times"
  | unexpected word => "unexpected argument '" ++ word ++ "' found"
  | unknownCommand word => "unrecognized subcommand '" ++ word ++ "'"
  | missingCommand => "'resound' requires a subcommand but one was not provided"
  | missingSubject => "the following required arguments were not provided:"

/-- A page of help: for the program, a command, or the command that shows help. -/
inductive Page
  | scope (scope : Scope)
  | help
  deriving DecidableEq, Repr

namespace Page

/-- The lines of a page. -/
def lines : Page → List String
  | scope .root =>
    ["Audition per-entity audio events",
      "",
      "Usage: resound [OPTIONS] <COMMAND>",
      "",
      "Commands:",
      "  events  List configured events",
      "  play    Post an event on a demo entity and play it to the end",
      "  file    Stream an external audio file through the custom template",
      "  help    Print this message or the help of the given subcommand(s)",
      "",
      "Options:",
      "      --config <CONFIG>  Path to the audio config [default: audio.toml]",
      "  -h, --help             Print help",
      "  -V, --version          Print version"]
  | scope .events =>
    ["List configured events",
      "",
      "Usage: resound events [OPTIONS]",
      "",
      "Options:",
      "      --config <CONFIG>  Path to the audio config [default: audio.toml]",
      "  -h, --help             Print help"]
  | scope .play =>
    ["Post an event on a demo entity and play it to the end",
      "",
      "Usage: resound play [OPTIONS] <EVENT>",
      "",
      "Arguments:",
      "  <EVENT>  Event name (e.g., \"SFX/footstep\")",
      "",
      "Options:",
      "      --config <CONFIG>    Path to the audio config [default: audio.toml]",
      "      --seconds <SECONDS>  Stop after this many seconds",
      "      --param <PARAMS>     Float parameter applied before posting (name=value, repeatable)",
      "      --at <AT>            Emitter position relative to the listener " ++
        "(comma-separated x,y,z) [default: 0,0,-2]",
      "  -h, --help               Print help"]
  | scope .file =>
    ["Stream an external audio file through the custom template",
      "",
      "Usage: resound file [OPTIONS] <PATH>",
      "",
      "Arguments:",
      "  <PATH>  Audio file to play",
      "",
      "Options:",
      "      --config <CONFIG>    Path to the audio config [default: audio.toml]",
      "      --loop               Use the looping template",
      "      --seconds <SECONDS>  Stop after this many seconds",
      "  -h, --help               Print help"]
  | help =>
    ["Print this message or the help of the given subcommand(s)",
      "",
      "Usage: resound help [COMMAND]...",
      "",
      "Arguments:",
      "  [COMMAND]...  Print help for the subcommand(s)"]

def text (p : Page) : String := String.join (p.lines.map (· ++ "\n"))

/-- The page that the words after `help` ask for. -/
def ofWords : List String → Except UsageError Page
  | [] => .ok (.scope .root)
  | word :: rest =>
    let page? := if word = "help" then some .help else (Scope.ofCommand? word).map .scope
    match page?, rest with
    | none, _ => .error (.unknownCommand word)
    | some page, [] => .ok page
    | some _, extra :: _ => .error (.unknownCommand extra)

end Page

/-- What the program calls itself. -/
def versionLine : String := "resound 0.1.0"

end Soundstage.CommandLine
