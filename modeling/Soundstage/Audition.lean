import Soundstage.System

/-!
# Auditions

Keeping a system going until an entity has nothing left to play. Time is counted in frames: every
frame ticks the system once.
-/

namespace Soundstage

/-- How waiting came to its end. -/
inductive Ending
  /-- The entity had nothing left to play. -/
  | silent
  /-- The limit was reached, and the given number of instances was told to fade out. -/
  | timedOut (stopped : Nat)
  /-- Patience was lost first. -/
  | unfinished
  deriving DecidableEq, Repr

namespace System

/-- The length of a frame in milliseconds. -/
def frame : Nat := 16

/-- A frame in nanoseconds, the unit of limits. -/
def frameNanos : Nat := frame * 1000000

variable {E L : Type} [Loader L] [Engine E L]

def activeCount (s : System E L) (entity : EntityId) : Nat :=
  ((s.emitter? entity).map (·.activeCount)).getD 0

/-- Tell what is left to fade out. -/
def timeOut (s : System E L) (entity : EntityId) : Ending × System E L :=
  let (stopped, s) := s.stopAll entity .allowFadeOut
  (.timedOut stopped,
    s.say .info
      ("Time limit reached, fading out " ++ toString stopped ++ " instance(s)"))

/-- Tick until the entity is silent or `limit` nanoseconds are over, for at most `patience`
frames. -/
def awaitSilence (entity : EntityId) (transform : EntityId → Option Vec3) (limit : Option Nat) :
    (patience elapsed : Nat) → System E L → Ending × System E L
  | 0, _, s => (.unfinished, s)
  | patience + 1, elapsed, s =>
    let s := (s.tick transform).2
    if s.activeCount entity = 0 then (.silent, s)
    else if limit.any fun l => l ≤ elapsed then s.timeOut entity
    else awaitSilence entity transform limit patience (elapsed + frameNanos) s

def tickFrames (transform : EntityId → Option Vec3) : Nat → System E L → System E L
  | 0, s => s
  | n + 1, s => tickFrames transform n (s.tick transform).2

/-- The frames that a fade takes. -/
def fadeFrames (s : System E L) : Nat := (s.config.fadeOut + frame - 1) / frame

/-- The frames that are waited for: those up to the limit, or `patience` without one. -/
def patienceFor (limit : Option Nat) (patience : Nat) : Nat :=
  match limit with
  | some l => l / frameNanos + 2
  | none => patience

/-- Wait until the entity at `position` is silent, let what is left fade out, and shut down. -/
def runUntilSilent (s : System E L) (entity : EntityId) (position : Vec3) (limit : Option Nat)
    (patience : Nat) : Ending × System E L :=
  let transform := fun e => if e = entity then some position else none
  let (ending, s) := awaitSilence entity transform limit (patienceFor limit patience) 0 s
  (ending, (tickFrames transform s.fadeFrames s).shutdown)

end System

end Soundstage
