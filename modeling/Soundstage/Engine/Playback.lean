import Soundstage.Loader.Streaming

/-!
# Playback

A sound on its track. Time passes in blocks: a stop takes effect at the next block, where the last
one asked for starts its fade, and the sound has stopped once the fade has lasted its length. A sound
that does not loop also stops when it has played out. Main statement: a sound that has stopped stays
as it is (`block_of_stopped`).
-/

namespace Soundstage

/-- The least level of a sound. -/
def silence : Float32 := -60

/-- The level of a linear amplitude, in decibels. -/
def decibels (amplitude : Float) : Float32 :=
  if amplitude <= 0 then silence
  else
    let level := 20 * amplitude.toFloat32.log10
    if level > silence then level else silence

/-- The progress of a fade, in milliseconds. -/
structure Fade where
  elapsed : Nat
  length : Nat
  deriving DecidableEq, Repr

structure Playback where
  data : SoundData
  /-- Whether it goes on until it is told to stop. -/
  endless : Bool
  /-- The level last asked for. -/
  volume : Float32
  /-- The rate last asked for. -/
  rate : Float
  blocks : Nat := 0
  /-- The fade of the last stop since the last block. -/
  request : Option Nat := none
  fade : Option Fade := none
  stopped : Bool := false

namespace Playback

/-- The length of a block in milliseconds. -/
def blockLength : Nat := 128

/-- A sound whose rate is not a number apart from zero does not move on and never plays out. -/
def ofData (data : SoundData) (looping : Bool) (volume : Float32) (rate : Float) : Playback :=
  { data, endless := looping || rate == 0 || rate.isNaN, volume, rate }

def requestStop (length : Nat) (p : Playback) : Playback := { p with request := some length }

/-- Whether the sound was told to stop, by a request or a fade under way. -/
def isStopping (p : Playback) : Bool := p.request.isSome || p.fade.isSome

/-- Whether the sound has played out after `blocks` blocks. -/
def hasPlayedOut (p : Playback) (blocks : Nat) : Bool :=
  !p.endless && p.data.recording.frames * 1000 ≤ blocks * blockLength * p.data.recording.rate

def nextFade (p : Playback) : Option Fade :=
  match p.request with
  | some length => some ⟨blockLength, length⟩
  | none => p.fade.map fun f => { f with elapsed := f.elapsed + blockLength }

/-- One block. -/
def block (p : Playback) : Playback :=
  if p.stopped then p
  else
    { p with
      blocks := p.blocks + 1
      request := none
      fade := p.nextFade
      stopped :=
        p.nextFade.any (fun f => f.length ≤ f.elapsed) || p.hasPlayedOut (p.blocks + 1) }

theorem block_of_stopped {p : Playback} (h : p.stopped = true) : p.block = p := by
  simp [block, h]

end Playback

end Soundstage
