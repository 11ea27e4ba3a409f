import Soundstage.Bridge
import Soundstage.Spatial

/-!
# Engines

An engine creates instances of events and plays them. Creating, stopping and writing to an instance
touch the engine alone; starting an instance and the update of every frame may call receivers, so
they act on the whole rig. A failure of the first kind leaves the engine as it was, but for `create`,
which may have prepared something on the way.
-/

namespace Soundstage

/-- How a stop treats the end of the sound. -/
inductive StopMode
  | immediate
  | allowFadeOut
  deriving DecidableEq, Repr

def StopMode.name : StopMode → String
  | immediate => "Immediate"
  | allowFadeOut => "AllowFadeOut"

/-- An engine and all that its callbacks can reach. -/
structure Rig (E L : Type) extends Backstage L where
  engine : E

class Engine (E : Type) (L : outParam Type) [Loader L] where
  create : String → E → Except AudioError InstanceId × E
  start : InstanceId → Rig E L → Except AudioError Unit × Rig E L
  stop : InstanceId → StopMode → E → Except AudioError E
  /-- Give up ownership: the instance goes away by itself once it has ended. -/
  release : InstanceId → E → Except AudioError E
  isValid : E → InstanceId → Bool
  eventOf : E → InstanceId → Option String
  setAttributes : InstanceId → Attributes → E → Except AudioError E
  setFloat : InstanceId → String → Float32 → E → Except AudioError E
  setLabel : InstanceId → String → String → E → Except AudioError E
  setReceiver : InstanceId → Receiver → E → Except AudioError E
  setListener : Attributes → E → Except AudioError E
  /-- Once per frame: what has ended and is not owned goes away. -/
  update : Rig E L → Rig E L

namespace Rig

variable {E F L : Type}

def withEngine (r : Rig E L) (engine : F) : Rig F L := { r.toBackstage with engine }

def withBackstage (r : Rig E L) (b : Backstage L) : Rig E L := { b with engine := r.engine }

def say (r : Rig E L) (level : Level) (text : String) : Rig E L :=
  r.withBackstage (r.toBackstage.say level text)

/-- Act on the engine and say what came of it. -/
def act (r : Rig E L) (op : E → Except AudioError E) : Except AudioError Unit × Rig E L :=
  match op r.engine with
  | .ok engine => (.ok (), { r with engine })
  | .error e => (.error e, r)

/-- Act on the engine; a refusal is only logged. -/
def attempt (r : Rig E L) (op : E → Except AudioError E) (complaint : AudioError → String) :
    Rig E L :=
  match op r.engine with
  | .ok engine => { r with engine }
  | .error e => r.say .debug (complaint e)

variable [Loader L] [Engine E L]

def isValid (r : Rig E L) (i : InstanceId) : Bool := Engine.isValid r.engine i

def create (r : Rig E L) (event : String) : Except AudioError InstanceId × Rig E L :=
  let (result, engine) := Engine.create event r.engine
  (result, { r with engine })

def start (r : Rig E L) (i : InstanceId) : Except AudioError Unit × Rig E L := Engine.start i r

def setListener (r : Rig E L) (attributes : Attributes) : Rig E L :=
  match Engine.setListener attributes r.engine with
  | .ok engine => { r with engine }
  | .error e => r.say .warn ("Audio: " ++ e.message)

def update (r : Rig E L) : Rig E L := Engine.update r

end Rig

end Soundstage
