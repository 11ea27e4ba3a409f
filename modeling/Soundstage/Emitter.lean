import Soundstage.Params
import Soundstage.Voice

/-!
# Emitters

An emitter is the audio state of one entity: a handle for every instance it posted, its parameters,
its place and its voice. A handle does not know whether its instance still exists; the engine is
asked, which may destroy an instance at any time.
-/

namespace Soundstage

/-- An instance as its emitter knows it. -/
structure Handle where
  instanceId : InstanceId
  /-- The event it was posted with. -/
  event : String
  /-- Whether a file is streamed into it. -/
  fileBacked : Bool
  /-- Whether the engine's ownership was given up. -/
  released : Bool
  deriving DecidableEq, Repr

structure Emitter where
  entity : EntityId
  /-- In the order of posting. -/
  handles : List Handle := []
  params : Params := {}
  attributes : Attributes := .origin
  voice : Voice := .duck

namespace Emitter

def ofEntity (entity : EntityId) : Emitter := { entity }

instance : Inhabited Emitter := ⟨ofEntity .music⟩

def activeCount (em : Emitter) : Nat := em.handles.length

def position (em : Emitter) : Vec3 := em.attributes.position

/-- Instances that are playing pick a position up at the next tick. -/
def setPosition (em : Emitter) (position : Vec3) : Emitter :=
  { em with attributes := { em.attributes with position } }

def setVoice (em : Emitter) (voice : Voice) : Emitter := { em with voice }

def handle? (em : Emitter) (i : InstanceId) : Option Handle :=
  em.handles.find? fun h => h.instanceId = i

/-- Note that the instance of the first matching handle was given up. -/
def markReleased (i : InstanceId) : List Handle → List Handle
  | [] => []
  | h :: rest =>
    if h.instanceId = i then { h with released := true } :: rest else h :: markReleased i rest

variable {E L : Type} [Loader L] [Engine E L]

/-! ### Posting -/

def create (em : Emitter) (event : String) (r : Rig E L) : Option InstanceId × Rig E L :=
  match r.create event with
  | (.ok i, r) => (some i, r)
  | (.error e, r) =>
    (none,
      r.say .warn
        ("Audio: " ++ em.entity.text ++ " could not post '" ++ event ++ "': " ++ e.message))

def register (i : InstanceId) (receiver : Receiver) (r : Rig E L) : Rig E L :=
  r.attempt (Engine.setReceiver i receiver) fun e =>
    "Audio: " ++ i.text ++ " rejected callback: " ++ e.message

def place (em : Emitter) (i : InstanceId) (r : Rig E L) : Rig E L :=
  r.attempt (Engine.setAttributes i em.attributes) fun e =>
    "Audio: " ++ i.text ++ " rejected attributes: " ++ e.message

/-- Give an instance the emitter's place and parameters. -/
def prepare (em : Emitter) (i : InstanceId) (r : Rig E L) : Rig E L :=
  em.params.applyTo i (em.place i r)

def release (i : InstanceId) (r : Rig E L) : Rig E L :=
  r.attempt (Engine.release i) fun e =>
    "Audio: failed to release " ++ i.text ++ ": " ++ e.message

def startOrSay (em : Emitter) (i : InstanceId) (event : String) (r : Rig E L) : Rig E L :=
  match r.start i with
  | (.ok (), r) => r
  | (.error e, r) =>
    r.say .warn
      ("Audio: failed to start '" ++ event ++ "' on " ++ em.entity.text ++ ": " ++ e.message)

/-- Start an instance, give it up unless it is kept, and track it. -/
def launch (em : Emitter) (i : InstanceId) (event : String) (fileBacked keep : Bool)
    (r : Rig E L) : Handle × Emitter × Rig E L :=
  let r := em.startOrSay i event r
  let r := if keep then r else release i r
  let handle : Handle := ⟨i, event, fileBacked, !keep⟩
  (handle, { em with handles := em.handles ++ [handle] }, r)

/-- Post an event. An instance that is not kept goes away by itself when it ends. -/
def post (em : Emitter) (event : String) (keep : Bool) (r : Rig E L) :
    Option Handle × Emitter × Rig E L :=
  match em.create event r with
  | (none, r) => (none, em, r)
  | (some i, r) =>
    let (handle, em, r) :=
      em.launch i event false keep (em.prepare i (register i (.lifecycle em.entity) r))
    (some handle, em, r)

/-- Bind a file to an instance. -/
def bindFile (i : InstanceId) (file : Path) (r : Rig E L) : Rig E L :=
  let (result, b) := r.toBackstage.bind i file .programmerSound
  let r := r.withBackstage b
  match result with
  | .ok _ => r
  | .error e =>
    r.say .error
      ("Audio: " ++ i.text ++ " could not bind '" ++ file.text ++ "': " ++ e.message)

/-- Say so when a file is missing. -/
def checkFile (em : Emitter) (file : Path) (r : Rig E L) : Rig E L :=
  if r.disk.pathExists file then r
  else r.say .warn ("Audio: " ++ em.entity.text ++ " posting missing file '" ++ file.text ++ "'")

/-- Stream a file through a template event. A missing file is posted all the same. -/
def postFile (em : Emitter) (template : String) (file : Path) (keep : Bool) (r : Rig E L) :
    Option Handle × Emitter × Rig E L :=
  match em.create template (em.checkFile file r) with
  | (none, r) => (none, em, r)
  | (some i, r) =>
    let (handle, em, r) :=
      em.launch i template true keep (bindFile i file (em.prepare i (register i .bridge r)))
    (some handle, em, r)

/-! ### Stopping -/

/-- Stop an instance and say whether the engine did it. -/
def stopInstance (i : InstanceId) (mode : StopMode) (r : Rig E L) : Bool × Rig E L :=
  match r.act (Engine.stop i mode) with
  | (.ok (), r) => (true, r)
  | (.error e, r) =>
    (false, r.say .debug ("Audio: failed to stop " ++ i.text ++ ": " ++ e.message))

/-- The oldest valid instance of `event`. -/
def oldest? (em : Emitter) (event : String) (r : Rig E L) : Option Handle :=
  em.handles.find? fun h =>
    r.isValid h.instanceId && Engine.eventOf r.engine h.instanceId == some event

/-- Stop the oldest valid instance of `event`, and say whether there was one. -/
def stop (em : Emitter) (event : String) (mode : StopMode) (r : Rig E L) : Bool × Rig E L :=
  match em.oldest? event r with
  | none =>
    (false, r.say .debug ("Audio: " ++ em.entity.text ++ " has no live '" ++ event ++ "' to stop"))
  | some h => (true, (stopInstance h.instanceId mode r).2)

/-- Give up the instance of a handle, and say whether the engine did it. -/
def releaseHandle (i : InstanceId) (r : Rig E L) : Bool × Rig E L :=
  match r.act (Engine.release i) with
  | (.ok (), r) => (true, r)
  | (.error e, r) =>
    (false, r.say .debug ("Audio: failed to release " ++ i.text ++ ": " ++ e.message))

/-- Stop one instance that this emitter posted, and give it up if it was kept. -/
def stopHandle (em : Emitter) (handle : Handle) (mode : StopMode) (r : Rig E L) :
    Bool × Emitter × Rig E L :=
  match em.handle? handle.instanceId with
  | none => (false, em, r)
  | some owned =>
    if !r.isValid owned.instanceId then (false, em, r)
    else
      match stopInstance owned.instanceId mode r with
      | (false, r) => (false, em, r)
      | (true, r) =>
        if owned.released then (true, em, r)
        else
          match releaseHandle owned.instanceId r with
          | (true, r) =>
            (true, { em with handles := markReleased owned.instanceId em.handles }, r)
          | (false, r) => (true, em, r)

def stopEach (mode : StopMode) : List Handle → Rig E L → Nat × Rig E L
  | [], r => (0, r)
  | h :: rest, r =>
    if !r.isValid h.instanceId then stopEach mode rest r
    else
      let (stopped, r) := stopInstance h.instanceId mode r
      let (n, r) := stopEach mode rest r
      (if stopped then n + 1 else n, r)

/-- Stop every valid instance, and count them. -/
def stopAll (em : Emitter) (mode : StopMode) (r : Rig E L) : Nat × Rig E L :=
  stopEach mode em.handles r

def releaseEach : List Handle → Rig E L → Nat × List Handle × Rig E L
  | [], r => (0, [], r)
  | h :: rest, r =>
    if h.released || !r.isValid h.instanceId then
      let (n, handles, r) := releaseEach rest r
      (n, h :: handles, r)
    else
      let (released, r) := releaseHandle h.instanceId r
      let (n, handles, r) := releaseEach rest r
      if released then (n + 1, { h with released := true } :: handles, r) else (n, h :: handles, r)

/-- Give up every kept instance, and count them. -/
def releaseKept (em : Emitter) (r : Rig E L) : Nat × Emitter × Rig E L :=
  let (n, handles, r) := releaseEach em.handles r
  (n, { em with handles }, r)

/-! ### Writing -/

def pushFloat (name : String) (value : Float32) (r : Rig E L) (h : Handle) : Rig E L :=
  if !r.isValid h.instanceId then r
  else
    r.attempt (Engine.setFloat h.instanceId name value) fun e =>
      "Audio: " ++ h.instanceId.text ++ " rejected '" ++ name ++ "': " ++ e.message

/-- Remember a number and write it to every valid instance. -/
def setFloat (em : Emitter) (name : String) (value : Float32) (r : Rig E L) :
    Emitter × Rig E L :=
  ({ em with params := em.params.setFloat name value },
    em.handles.foldl (pushFloat name value) r)

def pushLabel (name label : String) (r : Rig E L) (h : Handle) : Rig E L :=
  if !r.isValid h.instanceId then r
  else
    r.attempt (Engine.setLabel h.instanceId name label) fun e =>
      "Audio: " ++ h.instanceId.text ++ " rejected '" ++ name ++ "': " ++ e.message

/-- Remember a label and write it to every valid instance. -/
def setLabel (em : Emitter) (name label : String) (r : Rig E L) : Emitter × Rig E L :=
  ({ em with params := em.params.setLabel name label }, em.handles.foldl (pushLabel name label) r)

/-! ### Every frame -/

/-- The handles whose instances are gone. -/
def dead (em : Emitter) (r : Rig E L) : List InstanceId :=
  (em.handles.filter fun h => !r.isValid h.instanceId).map (·.instanceId)

def moveHandle (em : Emitter) (r : Rig E L) (h : Handle) : Rig E L :=
  if !r.isValid h.instanceId then r else em.place h.instanceId r

/-- Move every valid instance to `position` and forget the others. The answer counts those. -/
def tick (em : Emitter) (position : Vec3) (r : Rig E L) : Nat × Emitter × Rig E L :=
  let em := em.setPosition position
  let dead := em.dead r
  let r := em.handles.foldl em.moveHandle r
  if dead.isEmpty then (0, em, r)
  else
    (dead.length, { em with handles := em.handles.filter fun h => !dead.contains h.instanceId },
      r.say .trace
        ("Audio: " ++ em.entity.text ++ " reaped " ++ toString dead.length
          ++ " finished instance(s)"))

end Emitter

end Soundstage
