import Soundstage.Loader
import Soundstage.Table

/-!
# The scripted loader

Decodes nothing: a path counts as a sound file when it was registered or when something is there on
the disk. It counts what it does. Main statements: what decoding and releasing do to the live sounds
(`live_decode`, `live_release`).
-/

namespace Soundstage

structure ScriptedLoader where
  files : List Path := []
  live : Table SoundId Path := .empty
  /-- The number of sounds handed out so far; the next one is its successor. -/
  issued : Nat := 0
  decodes : Nat := 0
  releases : Nat := 0
  lastMode : Option DecodeMode := none

namespace ScriptedLoader

instance : Inhabited ScriptedLoader := ⟨{}⟩

def ofFiles (files : List Path) : ScriptedLoader := { files }

def addFile (l : ScriptedLoader) (path : Path) : ScriptedLoader :=
  { l with files := path :: l.files }

def accepts (l : ScriptedLoader) (disk : Disk) (path : Path) : Bool :=
  l.files.any path.same || disk.pathExists path

def next (l : ScriptedLoader) : SoundId := ⟨l.issued + 1⟩

def decode (disk : Disk) (path : Path) (mode : DecodeMode) (l : ScriptedLoader) :
    Except AudioError SoundId × ScriptedLoader :=
  if l.accepts disk path then
    (.ok l.next,
      { l with
        live := l.live.insert l.next path
        issued := l.issued + 1
        decodes := l.decodes + 1
        lastMode := some mode })
  else (.error (.decodeFailed path "file not found"), { l with lastMode := some mode })

def release (sound : SoundId) (l : ScriptedLoader) : Except AudioError ScriptedLoader :=
  if l.live.contains sound then
    .ok { l with live := l.live.erase sound, releases := l.releases + 1 }
  else .error (.unknownSound sound)

instance : Loader ScriptedLoader where
  decode := decode
  release := release
  decodeLines _ _ := []

theorem live_decode {disk : Disk} {path : Path} {mode : DecodeMode} {l l' : ScriptedLoader}
    {sound : SoundId} (h : l.decode disk path mode = (.ok sound, l')) :
    sound = l.next ∧ l'.live = l.live.insert sound path := by
  unfold decode at h
  split at h
  · cases h
    exact ⟨rfl, rfl⟩
  · cases h

theorem live_of_decode_error {disk : Disk} {path : Path} {mode : DecodeMode}
    {l l' : ScriptedLoader} {e : AudioError} (h : l.decode disk path mode = (.error e, l')) :
    l' = { l with lastMode := some mode } := by
  unfold decode at h
  split at h
  · cases h
  · cases h
    rfl

theorem live_release {sound : SoundId} {l l' : ScriptedLoader} (h : l.release sound = .ok l') :
    l'.live = l.live.erase sound := by
  unfold release at h
  split at h
  · cases h
    rfl
  · cases h

theorem release_eq_error_iff {sound : SoundId} {l : ScriptedLoader} {e : AudioError} :
    l.release sound = .error e ↔ l.live.get? sound = none ∧ e = .unknownSound sound := by
  unfold release Table.contains
  cases h : l.live.get? sound <;> simp [eq_comm]

end ScriptedLoader

end Soundstage
