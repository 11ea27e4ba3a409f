import Soundstage.Config
import Soundstage.Emitter

/-!
# The audio system

One emitter per entity, made when the entity is first addressed, and one for the background music,
which is heard from where the listener is. Operations that stop something never make an emitter.
-/

namespace Soundstage

structure System (E L : Type) where
  rig : Rig E L
  config : Config
  emitters : Table EntityId Emitter := .empty
  music : Emitter := .ofEntity .music
  listener : Attributes := .origin

namespace System

variable {E L : Type}

def say (s : System E L) (level : Level) (text : String) : System E L :=
  { s with rig := s.rig.say level text }

def emitter? (s : System E L) (entity : EntityId) : Option Emitter := s.emitters.get? entity

def hasEmitter (s : System E L) (entity : EntityId) : Bool := s.emitters.contains entity

def emitterCount (s : System E L) : Nat := s.emitters.size

def withEmitter (s : System E L) (em : Emitter) (entity : EntityId) : System E L :=
  { s with emitters := s.emitters.insert entity em }

/-- The emitter of an entity, made if there is none. -/
def resolve (s : System E L) (entity : EntityId) : Emitter × System E L :=
  match s.emitter? entity with
  | some em => (em, s)
  | none =>
    let em := Emitter.ofEntity entity
    (em, (s.say .debug ("Audio: created emitter for " ++ entity.text)).withEmitter em entity)

/-- Let the emitter of an entity act on the rig. -/
def address {α : Type} (s : System E L) (entity : EntityId)
    (act : Emitter → Rig E L → α × Emitter × Rig E L) : α × System E L :=
  let (em, s) := s.resolve entity
  let (a, em, rig) := act em s.rig
  (a, { s with rig }.withEmitter em entity)

variable [Loader L] [Engine E L]

def ofEngine (engine : E) (config : Config) (loader : L) (disk : Disk) : System E L :=
  { rig := { disk, loader, engine }, config }

/-! ### Posting -/

def post (s : System E L) (entity : EntityId) (event : String) (keep : Bool) :
    Option Handle × System E L :=
  s.address entity fun em => em.post event keep

def postFile (s : System E L) (entity : EntityId) (template : String) (file : Path)
    (keep : Bool) : Option Handle × System E L :=
  s.address entity fun em => em.postFile template file keep

/-- Stream a file through one of the configured templates. -/
def postCustom (s : System E L) (entity : EntityId) (file : Path) (looping keep : Bool) :
    Option Handle × System E L :=
  s.postFile entity (s.config.template looping) file keep

/-- Post a voice line of the entity's voice. -/
def postVoice (s : System E L) (entity : EntityId) (key : String) : Option Handle × System E L :=
  s.address entity fun em => em.post (em.voice.event s.config.voiceBank key) false

/-! ### State of an entity -/

def setVoice (s : System E L) (entity : EntityId) (voice : Voice) : System E L :=
  (s.address entity fun em r => ((), em.setVoice voice, r)).2

def setPosition (s : System E L) (entity : EntityId) (position : Vec3) : System E L :=
  (s.address entity fun em r => ((), em.setPosition position, r)).2

def setFloat (s : System E L) (entity : EntityId) (name : String) (value : Float32) :
    System E L :=
  (s.address entity fun em r => ((), em.setFloat name value r)).2

def setLabel (s : System E L) (entity : EntityId) (name label : String) : System E L :=
  (s.address entity fun em r => ((), em.setLabel name label r)).2

/-! ### Stopping -/

def stop (s : System E L) (entity : EntityId) (event : String) (mode : StopMode) :
    Bool × System E L :=
  match s.emitter? entity with
  | none => (false, s)
  | some em =>
    let (found, rig) := em.stop event mode s.rig
    (found, { s with rig })

def stopHandle (s : System E L) (entity : EntityId) (handle : Handle) (mode : StopMode) :
    Bool × System E L :=
  match s.emitter? entity with
  | none => (false, s)
  | some em =>
    let (stopped, em, rig) := em.stopHandle handle mode s.rig
    (stopped, { s with rig }.withEmitter em entity)

def stopAll (s : System E L) (entity : EntityId) (mode : StopMode) : Nat × System E L :=
  match s.emitter? entity with
  | none => (0, s)
  | some em =>
    let (n, rig) := em.stopAll mode s.rig
    (n, { s with rig })

/-- Stop everything an entity plays, and forget the entity. -/
def destroyEntity (s : System E L) (entity : EntityId) : System E L :=
  match s.emitter? entity with
  | none => s
  | some em =>
    let (stopped, rig) := em.stopAll .immediate s.rig
    let (_, _, rig) := em.releaseKept rig
    { s with rig, emitters := s.emitters.erase entity }.say .debug
      ("Audio: removed emitter for " ++ entity.text ++ " (" ++ toString stopped
        ++ " instance(s) stopped)")

/-! ### Background music -/

def stopMusicEach (mode : StopMode) : List Handle → Emitter → Rig E L → Nat × Emitter × Rig E L
  | [], em, r => (0, em, r)
  | h :: rest, em, r =>
    let (stopped, em, r) := em.stopHandle h mode r
    let (n, em, r) := stopMusicEach mode rest em r
    (if stopped then n + 1 else n, em, r)

/-- Stop the music, and count the instances that were stopped. -/
def stopMusic (s : System E L) (mode : StopMode) : Nat × System E L :=
  let (n, music, rig) := stopMusicEach mode s.music.handles s.music s.rig
  (n, { s with rig, music })

/-- Replace the music by a looping file. -/
def playMusic (s : System E L) (file : Path) : Option Handle × System E L :=
  let (_, s) := s.stopMusic .allowFadeOut
  let music := s.music.setPosition s.listener.position
  let (handle, music, rig) := music.postFile (s.config.template true) file true s.rig
  (handle, { s with rig, music })

/-! ### Listener and frames -/

def setListener (s : System E L) (attributes : Attributes) : System E L :=
  { s with listener := attributes, rig := s.rig.setListener attributes }

def setListenerPosition (s : System E L) (position : Vec3) : System E L :=
  s.setListener { s.listener with position }

/-- Tick the emitter of one entity. An entity without a transform stays where it is. -/
def tickEntity (transform : EntityId → Option Vec3) (s : System E L) (entity : EntityId) :
    Nat × System E L :=
  match s.emitter? entity with
  | none => (0, s)
  | some em =>
    let (n, em, rig) := em.tick ((transform entity).getD em.position) s.rig
    (n, { s with rig }.withEmitter em entity)

def tickEach (transform : EntityId → Option Vec3) :
    List EntityId → System E L → Nat × System E L
  | [], s => (0, s)
  | entity :: rest, s =>
    let (n, s) := s.tickEntity transform entity
    let (m, s) := tickEach transform rest s
    (n + m, s)

/-- Update the engine, then tick the emitters in the given order and the music last. The answer
counts the handles that were forgotten. -/
def tickIn (s : System E L) (order : List EntityId) (transform : EntityId → Option Vec3) :
    Nat × System E L :=
  let s := { s with rig := s.rig.update }
  let (n, s) := tickEach transform order s
  let (m, music, rig) := s.music.tick s.listener.position s.rig
  (n + m, { s with rig, music })

def tick (s : System E L) (transform : EntityId → Option Vec3) : Nat × System E L :=
  s.tickIn s.emitters.keys transform

/-- Stop an emitter at once and give up what it kept. -/
def quiet (em : Emitter) (r : Rig E L) : Emitter × Rig E L :=
  let (_, r) := em.stopAll .immediate r
  let (_, em, r) := em.releaseKept r
  (em, r)

def quietEntity (s : System E L) (entity : EntityId) : System E L :=
  match s.emitter? entity with
  | none => s
  | some em =>
    let (em, rig) := quiet em s.rig
    { s with rig }.withEmitter em entity

/-- Stop everything, in the given order and the music last, and forget every entity. -/
def shutdownIn (s : System E L) (order : List EntityId) : System E L :=
  let s := order.foldl quietEntity s
  let (music, rig) := quiet s.music s.rig
  let rig := rig.update
  { s with rig, music, emitters := .empty }.say .debug
    ("Audio: shut down (" ++ toString rig.boundCount ++ " binding(s) still pending)")

def shutdown (s : System E L) : System E L := s.shutdownIn s.emitters.keys

end System

end Soundstage
