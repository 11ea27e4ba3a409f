import Soundstage.Config
import Soundstage.Engine
import Soundstage.Engine.Playback
import Soundstage.Loader.Streaming
import Soundstage.Number.Binary

/-!
# The mixing engine

Plays the events of a config on an output device, which may be missing. Every instance has a track of
its own. An event with a file plays that file; a template asks the receiver of the instance for a
sound when it starts. An instance that was given up goes away once its sound has stopped.
-/

namespace Soundstage

/-- The places on an output device. A block frees those that were given up before it, but it must
have come across what holds a place first: what is given up before its first block is freed by its
second. -/
structure Places where
  taken : Nat := 0
  /-- How many of the taken ones the next block frees. -/
  leaving : Nat := 0
  /-- How many of the taken ones the block after the next frees. -/
  leavingLater : Nat := 0
  deriving DecidableEq, Repr

namespace Places

/-- Take one of `limit` places. -/
def take? (p : Places) (limit : Nat) : Option Places :=
  if p.taken < limit then some { p with taken := p.taken + 1 } else none

/-- Give up a place, by something that a block has come across or not. -/
def leave (rendered : Bool) (p : Places) : Places :=
  if rendered then { p with leaving := p.leaving + 1 }
  else { p with leavingLater := p.leavingLater + 1 }

def sweep (p : Places) : Places :=
  { taken := p.taken - p.leaving, leaving := p.leavingLater, leavingLater := 0 }

end Places

structure Device where
  tracks : Places := {}
  listeners : Places := {}
  /-- The instances whose tracks take no sound. -/
  mute : List InstanceId := []
  deriving DecidableEq, Repr

namespace Device

def trackLimit : Nat := 128

def listenerLimit : Nat := 8

/-- What a device says when it has no place left. -/
def noPlace : String :=
  "Could not add a resource because the maximum capacity for that resource has been reached"

/-- What a track says that takes no sound. -/
def noSound : String :=
  "Could not play a sound because the maximum number of sounds has been reached."

end Device

structure MixingInstance where
  event : String
  definition : Event
  sound : Option Playback := none
  receiver : Option Receiver := none
  props : Props := {}
  started : Bool := false
  released : Bool := false
  volume : Float := 1
  pitch : Float := 1
  /-- Parameters that nothing is made of. -/
  extra : NameMap Float32 := .empty
  labels : NameMap String := .empty
  /-- Whether a block was rendered since it was created. -/
  rendered : Bool := false

namespace MixingInstance

/-- Without a sound an instance has ended as well. -/
def isFinished (x : MixingInstance) : Bool :=
  match x.sound with
  | some sound => sound.stopped
  | none => true

/-- Whether the next update destroys the instance. -/
def isDone (x : MixingInstance) : Bool := x.released && x.isFinished

/-- The level its sound is played at. -/
def level (x : MixingInstance) : Float32 := decibels (x.definition.volume * x.volume)

/-- The name of a parameter as an instance reads it. -/
def folded (name : String) : String := String.ofList (name.toList.map Char.toLower)

/-- Set a parameter. Volume and pitch, in any case, act on the sound; others are kept. -/
def setFloat (name : String) (value : Float32) (x : MixingInstance) : MixingInstance :=
  if folded name = "volume" then
    let x := { x with volume := Number.widen value }
    { x with sound := x.sound.map fun s => { s with volume := x.level } }
  else if folded name = "pitch" then
    let x := { x with pitch := Number.widen value }
    { x with sound := x.sound.map fun s => { s with rate := x.pitch } }
  else { x with extra := x.extra.insert name value }

end MixingInstance

/-- The place the sounds are heard from. -/
structure Listener where
  /-- Whether a block was rendered since it was added. -/
  rendered : Bool := false
  deriving DecidableEq, Repr

structure MixingEngine where
  config : Config
  device : Option Device
  listener : Option Listener := none
  /-- Decoded files, found again by the components of their paths. -/
  cache : List (Path × Recording) := []
  instances : Table InstanceId MixingInstance := .empty
  /-- The number of instances created so far; the next one is its successor. -/
  issued : Nat := 0

namespace MixingEngine

def ofConfig (config : Config) (device : Option Device) : MixingEngine := { config, device }

/-- What opening an engine without a device logs. -/
def openingLines (device : Option Device) : List Line :=
  match device with
  | some _ => []
  | none =>
    [⟨.warn,
      "Audio: no device available (Cannot find the default audio output device), running silent"⟩]

def isAvailable (e : MixingEngine) : Bool := e.device.isSome

def withInstances (e : MixingEngine) (instances : Table InstanceId MixingInstance) :
    MixingEngine :=
  { e with instances }

def change (i : InstanceId) (f : MixingInstance → MixingInstance) (e : MixingEngine) :
    Except AudioError MixingEngine :=
  if e.instances.contains i then .ok (e.withInstances (e.instances.modify i f))
  else .error (.invalidInstance i)

/-- Add a listener; one that was there before gives up its place. -/
def createListener (e : MixingEngine) : Except AudioError MixingEngine :=
  match e.device with
  | none => .ok e
  | some d =>
    match d.listeners.take? Device.listenerLimit with
    | none => .error (.engine ("Failed to create listener: " ++ Device.noPlace))
    | some places =>
      let listeners :=
        match e.listener with
        | some old => places.leave old.rendered
        | none => places
      .ok { e with device := some { d with listeners }, listener := some {} }

def ensureListener (e : MixingEngine) : Except AudioError MixingEngine :=
  if e.listener.isSome then .ok e else e.createListener

/-- Take a track on the device. -/
def takeTrack (e : MixingEngine) : Except AudioError MixingEngine :=
  match e.device with
  | none => .error .noDevice
  | some d =>
    match d.tracks.take? Device.trackLimit with
    | none => .error (.engine ("Failed to create spatial track: " ++ Device.noPlace))
    | some tracks => .ok { e with device := some { d with tracks } }

/-- Give up the track of an instance. -/
def leaveTrack (rendered : Bool) (e : MixingEngine) : MixingEngine :=
  { e with device := e.device.map fun d => { d with tracks := d.tracks.leave rendered } }

/-- The listener that was added on the way stays even if there is no track. -/
def create (event : String) (e : MixingEngine) : Except AudioError InstanceId × MixingEngine :=
  match e.config.event? event with
  | none => (.error (.eventNotFound event), e)
  | some definition =>
    match e.ensureListener with
    | .error err => (.error err, e)
    | .ok e =>
      match e.takeTrack with
      | .error err => (.error err, e)
      | .ok e =>
        let i : InstanceId := ⟨e.issued + 1⟩
        (.ok i,
          { e with
            issued := e.issued + 1
            instances := e.instances.insert i { event, definition } })

/-- The decoded file, from the cache if a path with the same components was decoded before. -/
def fileSound (disk : Disk) (path : Path) (e : MixingEngine) :
    Except AudioError Recording × MixingEngine :=
  match e.cache.find? fun entry => entry.1.same path with
  | some entry => (.ok entry.2, e)
  | none =>
    match disk.decodeSound path with
    | .error reason => (.error (.decodeFailed path reason), e)
    | .ok recording => (.ok recording, { e with cache := e.cache ++ [(path, recording)] })

/-- Ask the receiver of an instance for a sound, and take what it supplies from the loader. -/
def programmerSound (i : InstanceId) (x : MixingInstance)
    (r : Rig MixingEngine StreamingLoader) :
    Option SoundData × Rig MixingEngine StreamingLoader :=
  match x.receiver with
  | none => (none, r)
  | some receiver =>
    let (props, b) := r.toBackstage.deliver receiver .createSound i x.props
    let (data, loader) :=
      match props.sound with
      | none => (none, b.loader)
      | some sound => b.loader.take sound
    let r := r.withBackstage { b with loader }
    (data,
      { r with
        engine := r.engine.withInstances (r.engine.instances.modify i fun x => { x with props }) })

/-- Play data on the track of an instance. -/
def play (i : InstanceId) (data : SoundData) (r : Rig MixingEngine StreamingLoader) :
    Except AudioError Unit × Rig MixingEngine StreamingLoader :=
  match r.engine.instances.get? i with
  | none => (.error (.invalidInstance i), r)
  | some x =>
    if r.engine.device.any fun d => d.mute.contains i then
      (.error (.engine ("Failed to play '" ++ x.event ++ "': " ++ Device.noSound)), r)
    else
      let sound := Playback.ofData data x.definition.looping x.level x.pitch
      (.ok (),
        { r with
          engine :=
            r.engine.withInstances
              (r.engine.instances.modify i fun x => { x with sound := some sound }) })

/-- Note that an instance was started. -/
def markStarted (i : InstanceId) (r : Rig MixingEngine StreamingLoader) :
    Rig MixingEngine StreamingLoader :=
  { r with
    engine :=
      r.engine.withInstances (r.engine.instances.modify i fun x => { x with started := true }) }

/-- Play the file of an instance, or what its receiver supplies. A template that gets no sound plays
silence. -/
def sing (i : InstanceId) (x : MixingInstance) (r : Rig MixingEngine StreamingLoader) :
    Except AudioError Unit × Rig MixingEngine StreamingLoader :=
  match x.definition.file with
  | some path =>
    match r.engine.fileSound r.disk path with
    | (.error err, engine) => (.error err, { r with engine })
    | (.ok recording, engine) => play i (.decoded recording) { r with engine }
  | none =>
    match programmerSound i x r with
    | (none, r) => (.ok (), r)
    | (some data, r) => play i data r

/-- Start an instance. It counts as started from the outset: a second start does nothing, whatever
became of the first. -/
def start (i : InstanceId) (r : Rig MixingEngine StreamingLoader) :
    Except AudioError Unit × Rig MixingEngine StreamingLoader :=
  match r.engine.instances.get? i with
  | none => (.error (.invalidInstance i), r)
  | some x => if x.started then (.ok (), r) else sing i x (markStarted i r)

/-- How long a stop fades. -/
def fadeOf (e : MixingEngine) : StopMode → Nat
  | .immediate => 0
  | .allowFadeOut => e.config.fadeOut

/-- Tell the sound of an instance to stop, if it has one. -/
def stop (i : InstanceId) (mode : StopMode) (e : MixingEngine) : Except AudioError MixingEngine :=
  e.change i fun x => { x with sound := x.sound.map (·.requestStop (e.fadeOf mode)) }

/-- Take an instance away, give up its track and tell its receiver. -/
def destroy (r : Rig MixingEngine StreamingLoader) (i : InstanceId) :
    Rig MixingEngine StreamingLoader :=
  match r.engine.instances.get? i with
  | none => r
  | some x =>
    let engine := (r.engine.withInstances (r.engine.instances.erase i)).leaveTrack x.rendered
    let r := { r with engine }
    let r :=
      match x.receiver with
      | none => r
      | some receiver => r.withBackstage (r.toBackstage.farewell receiver i x.props)
    r.say .trace ("Audio: destroyed " ++ i.text ++ " ('" ++ x.event ++ "')")

def destroyAll (r : Rig MixingEngine StreamingLoader) (ids : List InstanceId) :
    Rig MixingEngine StreamingLoader :=
  ids.foldl destroy r

/-- The instances that the next update destroys. -/
def done (e : MixingEngine) : List InstanceId :=
  (e.instances.entries.filter fun x => x.2.isDone).map (·.1)

def update (r : Rig MixingEngine StreamingLoader) : Rig MixingEngine StreamingLoader :=
  destroyAll r r.engine.done

/-- Render one block: every sound goes on, and places that were given up become free. -/
def renderBlock (e : MixingEngine) : MixingEngine :=
  { e with
    device :=
      e.device.map fun d => { d with tracks := d.tracks.sweep, listeners := d.listeners.sweep }
    listener := e.listener.map fun _ => { rendered := true }
    instances :=
      e.instances.mapValues fun x =>
        { x with sound := x.sound.map Playback.block, rendered := true } }

def render : Nat → MixingEngine → MixingEngine
  | 0, e => e
  | n + 1, e => render n e.renderBlock

def parameter? (e : MixingEngine) (i : InstanceId) (name : String) : Option Float32 :=
  (e.instances.get? i).bind fun x => x.extra.get? name

def parameterLabel? (e : MixingEngine) (i : InstanceId) (name : String) : Option String :=
  (e.instances.get? i).bind fun x => x.labels.get? name

instance : Engine MixingEngine StreamingLoader where
  create := create
  start := start
  stop := stop
  release i := change i fun x => { x with released := true }
  isValid e i := e.instances.contains i
  eventOf e i := (e.instances.get? i).map (·.event)
  setAttributes i _ := change i id
  setFloat i name value := change i (·.setFloat name value)
  setLabel i name label := change i fun x => { x with labels := x.labels.insert name label }
  setReceiver i receiver := change i fun x => { x with receiver := some receiver }
  setListener _ := ensureListener
  update := update

end MixingEngine

end Soundstage
