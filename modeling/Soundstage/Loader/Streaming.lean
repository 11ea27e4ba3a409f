import Soundstage.Loader
import Soundstage.Table

/-!
# The streaming loader

Opens sound files for the mixing engine. A file opened without blocking is a stream, which plays once:
the first to take it gets it. A file decoded up front can be taken any number of times.
-/

namespace Soundstage

/-- What an instance plays. -/
inductive SoundData
  | decoded (recording : Recording)
  | stream (recording : Recording)
  deriving DecidableEq, Repr

def SoundData.recording : SoundData → Recording
  | decoded r => r
  | stream r => r

/-- A sound that a loader holds. -/
inductive LoadedSound
  | decoded (recording : Recording)
  /-- Nothing is left once the stream was taken. -/
  | stream (recording : Option Recording)
  deriving DecidableEq, Repr

namespace Recording

/-- Whether the samples can be decoded. -/
def isPlayable (r : Recording) : Bool := r.channels = 1 || r.channels = 2

end Recording

namespace Disk

def unknownFormat : String := "unsupported feature: core (probe): no suitable format reader found"

def unsupportedChannels : String := "Only mono and stereo audio is supported"

/-- Open a sound file without decoding it. -/
def openSound (d : Disk) (p : Path) : Except String Recording :=
  match d.find p with
  | .error fault => .error fault.message
  | .ok (.file (.recording r)) => .ok r
  | .ok _ => .error unknownFormat

/-- Decode a sound file as a whole. -/
def decodeSound (d : Disk) (p : Path) : Except String Recording :=
  match d.openSound p with
  | .error reason => .error reason
  | .ok r => if r.isPlayable then .ok r else .error unsupportedChannels

end Disk

structure StreamingLoader where
  sounds : Table SoundId LoadedSound := .empty
  /-- The number of the next sound. -/
  next : Nat := 1

namespace StreamingLoader

instance : Inhabited StreamingLoader := ⟨{}⟩

def load (disk : Disk) (path : Path) (mode : DecodeMode) : Except String LoadedSound :=
  if mode.contains .nonblocking then (disk.openSound path).map fun r => .stream (some r)
  else (disk.decodeSound path).map .decoded

def decode (disk : Disk) (path : Path) (mode : DecodeMode) (l : StreamingLoader) :
    Except AudioError SoundId × StreamingLoader :=
  match load disk path mode with
  | .error reason => (.error (.decodeFailed path reason), l)
  | .ok sound => (.ok ⟨l.next⟩, { sounds := l.sounds.insert ⟨l.next⟩ sound, next := l.next + 1 })

def release (sound : SoundId) (l : StreamingLoader) : Except AudioError StreamingLoader :=
  if l.sounds.contains sound then .ok { l with sounds := l.sounds.erase sound }
  else .error (.unknownSound sound)

instance : Loader StreamingLoader where
  decode := decode
  release := release
  decodeLines path mode :=
    [⟨.trace, "Audio: loading '" ++ path.text ++ "' (" ++ mode.text ++ ")"⟩]

/-- What `sound` plays, if it is live; a stream is gone after that. -/
def take (sound : SoundId) (l : StreamingLoader) : Option SoundData × StreamingLoader :=
  match l.sounds.get? sound with
  | none => (none, l)
  | some (.decoded r) => (some (.decoded r), l)
  | some (.stream r) =>
    (r.map .stream, { l with sounds := l.sounds.modify sound fun _ => .stream none })

def isStream (l : StreamingLoader) (sound : SoundId) : Bool :=
  match l.sounds.get? sound with
  | some (.stream _) => true
  | _ => false

end StreamingLoader

end Soundstage
