import Soundstage.Engine
import Soundstage.Loader.Scripted

/-!
# The scripted engine

Plays nothing and keeps a record of every call. Instances end when they are told to: a host finishes
or destroys them and fires their callbacks by hand.
-/

namespace Soundstage

structure ScriptedInstance where
  event : String
  started : Bool := false
  released : Bool := false
  finished : Bool := false
  /-- How the instance was stopped last. -/
  stopMode : Option StopMode := none
  stopCount : Nat := 0
  attributes : Option Attributes := none
  attributeWrites : Nat := 0
  /-- Oldest first. -/
  floatWrites : List (String × Float32) := []
  labelWrites : List (String × String) := []
  props : Props := {}
  /-- Attributes and parameters cannot be written. -/
  rejectsWrites : Bool := false
  receiver : Option Receiver := none

namespace ScriptedInstance

/-- The value last written under a name. -/
def lastOf {α : Type} (writes : List (String × α)) (name : String) : Option α :=
  (writes.reverse.find? fun w => w.1 = name).map (·.2)

def float? (x : ScriptedInstance) (name : String) : Option Float32 := lastOf x.floatWrites name

def label? (x : ScriptedInstance) (name : String) : Option String := lastOf x.labelWrites name

def isStopped (x : ScriptedInstance) : Bool := x.stopMode.isSome

/-- Whether the next update destroys the instance. -/
def isDone (x : ScriptedInstance) : Bool := x.released && (x.finished || x.isStopped)

end ScriptedInstance

structure ScriptedEngine where
  events : List String := []
  instances : Table InstanceId ScriptedInstance := .empty
  /-- The number of instances created so far; the next one is its successor. -/
  issued : Nat := 0
  listener : Option Attributes := none
  updates : Nat := 0

namespace ScriptedEngine

instance : Inhabited ScriptedEngine := ⟨{}⟩

def ofEvents (events : List String) : ScriptedEngine := { events }

def addEvent (e : ScriptedEngine) (name : String) : ScriptedEngine :=
  { e with events := name :: e.events }

def withInstances (e : ScriptedEngine) (instances : Table InstanceId ScriptedInstance) :
    ScriptedEngine :=
  { e with instances }

/-- Change an instance, which must be there. -/
def change (i : InstanceId) (f : ScriptedInstance → ScriptedInstance) (e : ScriptedEngine) :
    Except AudioError ScriptedEngine :=
  if e.instances.contains i then .ok (e.withInstances (e.instances.modify i f))
  else .error (.invalidInstance i)

/-- Change an instance that takes writes. -/
def write (i : InstanceId) (f : ScriptedInstance → ScriptedInstance) (e : ScriptedEngine) :
    Except AudioError ScriptedEngine :=
  match e.instances.get? i with
  | none => .error (.invalidInstance i)
  | some x =>
    if x.rejectsWrites then .error (.engine (i.text ++ " rejected the write"))
    else .ok (e.withInstances (e.instances.modify i f))

def create (event : String) (e : ScriptedEngine) : Except AudioError InstanceId × ScriptedEngine :=
  if event ∈ e.events then
    let i : InstanceId := ⟨e.issued + 1⟩
    (.ok i, { e with issued := e.issued + 1, instances := e.instances.insert i { event } })
  else (.error (.eventNotFound event), e)

/-! ### Driven by a host -/

/-- Make every write to an instance fail from now on. -/
def rejectWrites (e : ScriptedEngine) (i : InstanceId) : ScriptedEngine :=
  e.withInstances (e.instances.modify i fun x => { x with rejectsWrites := true })

/-- Let an instance reach its end. -/
def finish (e : ScriptedEngine) (i : InstanceId) : ScriptedEngine :=
  e.withInstances (e.instances.modify i fun x => { x with finished := true })

variable {L : Type} [Loader L]

/-- Deliver a callback. The answer is what the receiver made of the props, or nothing if the instance
is gone or has no receiver. -/
def fire (r : Rig ScriptedEngine L) (i : InstanceId) (kind : CallbackKind) :
    Option Props × Rig ScriptedEngine L :=
  match r.engine.instances.get? i with
  | none => (none, r)
  | some x =>
    match x.receiver with
    | none => (none, r)
    | some receiver =>
      let (props, b) := r.toBackstage.deliver receiver kind i x.props
      let r := r.withBackstage b
      (some props,
        { r with
          engine :=
            r.engine.withInstances (r.engine.instances.modify i fun x => { x with props }) })

/-- Take an instance away and tell its receiver. -/
def destroy (r : Rig ScriptedEngine L) (i : InstanceId) : Rig ScriptedEngine L :=
  match r.engine.instances.get? i with
  | none => r
  | some x =>
    let r := { r with engine := r.engine.withInstances (r.engine.instances.erase i) }
    match x.receiver with
    | none => r
    | some receiver => r.withBackstage (r.toBackstage.farewell receiver i x.props)

def destroyAll (r : Rig ScriptedEngine L) (ids : List InstanceId) : Rig ScriptedEngine L :=
  ids.foldl destroy r

/-- The instances that the next update destroys, in the order of their creation. -/
def done (e : ScriptedEngine) : List InstanceId :=
  (e.instances.entries.filter fun x => x.2.isDone).map (·.1)

def update (r : Rig ScriptedEngine L) : Rig ScriptedEngine L :=
  destroyAll { r with engine := { r.engine with updates := r.engine.updates + 1 } } r.engine.done

instance : Engine ScriptedEngine ScriptedLoader where
  create := create
  start i r := r.act (change i fun x => { x with started := true })
  stop i mode :=
    change i fun x => { x with stopMode := some mode, stopCount := x.stopCount + 1 }
  release i := change i fun x => { x with released := true }
  isValid e i := e.instances.contains i
  eventOf e i := (e.instances.get? i).map (·.event)
  setAttributes i attributes :=
    write i fun x =>
      { x with attributes := some attributes, attributeWrites := x.attributeWrites + 1 }
  setFloat i name value :=
    write i fun x => { x with floatWrites := x.floatWrites ++ [(name, value)] }
  setLabel i name label :=
    write i fun x => { x with labelWrites := x.labelWrites ++ [(name, label)] }
  setReceiver i receiver := change i fun x => { x with receiver := some receiver }
  setListener attributes e := .ok { e with listener := some attributes }
  update := update

end ScriptedEngine

end Soundstage
