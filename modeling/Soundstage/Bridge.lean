import Soundstage.Callback
import Soundstage.Loader
import Soundstage.Table

/-!
# The bridge

The bridge streams files into instances. Its table holds one binding per instance, made by `bind`
before playback and erased when the instance is gone; in between the engine asks for the sound and
gives it back by callbacks.

A call is a `Task` that runs in atomic steps: each looks at or changes the table, decodes one file,
or releases one sound. The table is free while a file is decoded, so other calls may come in between;
`Task.run` is a call that nothing interrupts.
-/

namespace Soundstage

structure Binding where
  path : Path
  mode : DecodeMode
  state : BindingState
  loaded : Option SoundId
  deriving DecidableEq, Repr

structure Bridge where
  table : Table InstanceId Binding := .empty
  /-- How many bindings were freed so far. -/
  freed : Nat := 0

/-- A callback that the bridge was given, and what came of it. -/
structure Answer where
  kind : CallbackKind
  instanceId : InstanceId
  result : Except AudioError BindingState

/-- All that engine callbacks can reach: the disk, the loader, the bridge, the journal, the callbacks
that the bridge has answered, and those that a host has seen, all oldest first. -/
structure Backstage (L : Type) where
  disk : Disk
  loader : L
  bridge : Bridge := {}
  journal : List Line := []
  answered : List Answer := []
  seen : List (CallbackKind × InstanceId) := []

namespace Backstage

variable {L : Type}

def say (s : Backstage L) (level : Level) (text : String) : Backstage L :=
  { s with journal := s.journal ++ [⟨level, text⟩] }

def withTable (s : Backstage L) (table : Table InstanceId Binding) : Backstage L :=
  { s with bridge := { s.bridge with table } }

def binding? (s : Backstage L) (i : InstanceId) : Option Binding := s.bridge.table.get? i

/-- Log a move of a binding. -/
def sayMove (s : Backstage L) (i : InstanceId) (source target : BindingState) : Backstage L :=
  s.say .trace (i.text ++ ": programmer sound " ++ source.name ++ " -> " ++ target.name)

def countFreed (s : Backstage L) : Backstage L :=
  { s with bridge := { s.bridge with freed := s.bridge.freed + 1 } }

variable [Loader L]

/-- Release a sound that the bridge held; a refusal is only logged. -/
def releaseLoaded (s : Backstage L) (i : InstanceId) : Option SoundId → Backstage L
  | none => s
  | some sound =>
    match Loader.release sound s.loader with
    | .ok loader => { s with loader }
    | .error e =>
      s.say .warn
        ("Audio: " ++ i.text ++ " failed to release " ++ sound.text ++ ": " ++ e.message)

/-- Ask the loader for a file. -/
def decodeFile (s : Backstage L) (path : Path) (mode : DecodeMode) :
    Except AudioError SoundId × Backstage L :=
  let (result, loader) := Loader.decode s.disk path mode s.loader
  (result, { s with loader, journal := s.journal ++ Loader.decodeLines L path mode })

end Backstage

/-- What a call of the bridge answers. -/
structure Reply where
  result : Except AudioError BindingState
  props : Props

instance : Inhabited Reply := ⟨⟨.ok .unbound, {}⟩⟩

/-- A call of the bridge, from its first step to its reply. -/
inductive Task
  | bind (i : InstanceId) (path : Path) (mode : DecodeMode)
  /-- Free what a new binding has replaced. -/
  | retire (i : InstanceId) (stale : Option SoundId)
  | lookup (i : InstanceId) (props : Props)
  | decode (i : InstanceId) (path : Path) (mode : DecodeMode) (props : Props)
  | store (i : InstanceId) (sound : SoundId) (props : Props)
  /-- Release a sound whose binding is gone. -/
  | discard (i : InstanceId) (sound : SoundId) (props : Props)
  | unload (i : InstanceId) (props : Props)
  | giveBack (i : InstanceId) (sound : Option SoundId) (props : Props)
  | remove (i : InstanceId) (props : Props)
  | free (i : InstanceId) (binding : Binding) (props : Props)
  | done (reply : Reply)

namespace Task

/-- The first step of the answer to a callback. -/
def ofCallback (kind : CallbackKind) (i : InstanceId) (props : Props) : Task :=
  match kind with
  | .createSound => .lookup i props
  | .destroySound => .unload i props
  | .destroyed => .remove i props

/-- How many steps are left at most. -/
def rank : Task → Nat
  | lookup .. => 4
  | decode .. => 3
  | store .. => 2
  | bind .. | unload .. | remove .. => 2
  | retire .. | discard .. | giveBack .. | free .. => 1
  | done _ => 0

def reply? : Task → Option Reply
  | done reply => some reply
  | _ => none

theorem rank_pos_of_reply?_eq_none {t : Task} (h : t.reply? = none) : 0 < t.rank := by
  cases t <;> simp_all [reply?, rank]

def fail (e : AudioError) (props : Props) : Task := .done ⟨.error e, props⟩

def succeed (state : BindingState) (props : Props) : Task := .done ⟨.ok state, props⟩

variable {L : Type}

/-- Put a waiting binding into the table. One that was never freed is replaced. -/
def stepBind (i : InstanceId) (path : Path) (mode : DecodeMode) (s : Backstage L) :
    Task × Backstage L :=
  let fresh : Binding := ⟨path, mode, .awaitingLoad, none⟩
  let next := (s.sayMove i .unbound .awaitingLoad).withTable (s.bridge.table.insert i fresh)
  match s.binding? i with
  | none => (succeed .awaitingLoad {}, next)
  | some stale =>
    (.retire i stale.loaded,
      next.say .error (i.text ++ ": replaced a programmer sound binding that was never freed"))

/-- See whether the binding waits for its sound. One that has given its sound back waits again. -/
def stepLookup (i : InstanceId) (props : Props) (s : Backstage L) : Task × Backstage L :=
  match s.binding? i with
  | none => (fail (.unknownBinding i) props, s)
  | some b =>
    match b.state with
    | .awaitingLoad => (.decode i b.path b.mode props, s)
    | .releasing =>
      (.decode i b.path b.mode props,
        (s.sayMove i .releasing .awaitingLoad).withTable
          (s.bridge.table.insert i { b with state := .awaitingLoad }))
    | state => (fail (.invalidTransition i state .loaded) props, s)

/-- Store a decoded sound in its binding. -/
def stepStore (i : InstanceId) (sound : SoundId) (props : Props) (s : Backstage L) :
    Task × Backstage L :=
  match s.binding? i with
  | none => (.discard i sound props, s)
  | some b =>
    if b.state.canBecome .loaded then
      (succeed .loaded { sound := some sound, subsound := -1 },
        (s.sayMove i b.state .loaded).withTable
          (s.bridge.table.insert i { b with state := .loaded, loaded := some sound }))
    else (fail (.invalidTransition i b.state .loaded) props, s)

/-- Take the sound out of its binding. A binding whose load failed has none to give back. -/
def stepUnload (i : InstanceId) (props : Props) (s : Backstage L) : Task × Backstage L :=
  match s.binding? i with
  | none => (fail (.unknownBinding i) props, s)
  | some b =>
    if b.state = .awaitingLoad then (succeed .awaitingLoad props, s)
    else if b.state.canBecome .releasing then
      (.giveBack i b.loaded { props with sound := none },
        (s.sayMove i b.state .releasing).withTable
          (s.bridge.table.insert i { b with state := .releasing, loaded := none }))
    else (fail (.invalidTransition i b.state .releasing) props, s)

/-- Erase the binding from the table. -/
def stepRemove (i : InstanceId) (props : Props) (s : Backstage L) : Task × Backstage L :=
  match s.binding? i with
  | none => (fail (.bindingAlreadyFreed i) props, s)
  | some b => (.free i b props, s.withTable (s.bridge.table.erase i))

variable [Loader L]

/-- Decode the file. If that fails, the reply leaves the sound empty and the instance plays
silence. -/
def stepDecode (i : InstanceId) (path : Path) (mode : DecodeMode) (props : Props)
    (s : Backstage L) : Task × Backstage L :=
  match s.decodeFile path mode with
  | (.ok sound, s) => (.store i sound props, s)
  | (.error e, s) =>
    (succeed .awaitingLoad { props with sound := none },
      s.say .warn ("Audio: " ++ i.text ++ " could not load '" ++ path.text ++ "': " ++ e.message))

/-- Free an erased binding, with its sound if one is still loaded. -/
def stepFree (i : InstanceId) (b : Binding) (props : Props) (s : Backstage L) :
    Task × Backstage L :=
  let (state, s) :=
    if b.state = .loaded then
      let s := s.say .debug (i.text ++ ": destroyed while its programmer sound was still loaded")
      (BindingState.releasing, (s.sayMove i .loaded .releasing).releaseLoaded i b.loaded)
    else (b.state, s)
  if state.canBecome .freed then
    (succeed .freed props,
      ((s.sayMove i state .freed).countFreed).say .debug
        (i.text ++ ": released programmer sound binding for '" ++ b.path.text ++ "'"))
  else (fail (.invalidTransition i state .freed) props, s)

/-- One atomic step. A finished call stays as it is. -/
def step (t : Task) (s : Backstage L) : Task × Backstage L :=
  match t with
  | .bind i path mode => stepBind i path mode s
  | .retire i stale => (succeed .awaitingLoad {}, (s.releaseLoaded i stale).countFreed)
  | .lookup i props => stepLookup i props s
  | .decode i path mode props => stepDecode i path mode props s
  | .store i sound props => stepStore i sound props s
  | .discard i sound props => (fail (.unknownBinding i) props, s.releaseLoaded i (some sound))
  | .unload i props => stepUnload i props s
  | .giveBack i sound props => (succeed .releasing props, s.releaseLoaded i sound)
  | .remove i props => stepRemove i props s
  | .free i b props => stepFree i b props s
  | .done reply => (.done reply, s)

theorem rank_step_lt (t : Task) (s : Backstage L) (h : 0 < t.rank) :
    (t.step s).1.rank < t.rank := by
  cases t with
  | bind i path mode =>
    simp only [step, stepBind]
    split <;> simp [rank, succeed]
  | retire i stale => simp [step, rank, succeed]
  | lookup i props =>
    simp only [step, stepLookup]
    split
    · simp [rank, fail]
    · split <;> simp [rank, fail]
  | decode i path mode props =>
    simp only [step, stepDecode]
    split <;> simp [rank, succeed]
  | store i sound props =>
    simp only [step, stepStore]
    split
    · simp [rank]
    · split <;> simp [rank, fail, succeed]
  | discard i sound props => simp [step, rank, fail]
  | unload i props =>
    simp only [step, stepUnload]
    split
    · simp [rank, fail]
    · split
      · simp [rank, succeed]
      · split <;> simp [rank, fail]
  | giveBack i sound props => simp [step, rank, succeed]
  | remove i props =>
    simp only [step, stepRemove]
    split <;> simp [rank, fail]
  | free i b props =>
    simp only [step, stepFree]
    split <;> split <;> simp [rank, fail, succeed]
  | done reply => simp [rank] at h

/-- A call that runs to its reply without interruption. -/
def run (t : Task) (s : Backstage L) : Reply × Backstage L :=
  match _h : t.reply? with
  | some reply => (reply, s)
  | none => run (t.step s).1 (t.step s).2
termination_by t.rank
decreasing_by exact rank_step_lt t s (rank_pos_of_reply?_eq_none _h)

theorem run_done (reply : Reply) (s : Backstage L) : (Task.done reply).run s = (reply, s) := by
  rw [run]
  rfl

theorem run_eq_run_step (t : Task) (s : Backstage L) : t.run s = (t.step s).1.run (t.step s).2 := by
  rw [run]
  split
  · rename_i reply h
    cases t with
    | done reply' =>
      cases h
      rw [step, run_done]
    | _ => cases h
  · rfl

end Task

namespace Backstage

variable {L : Type} [Loader L]

/-- Bind a file to an instance, to be called just before playback starts. -/
def bind (s : Backstage L) (i : InstanceId) (path : Path) (mode : DecodeMode) :
    Except AudioError BindingState × Backstage L :=
  let (reply, s) := (Task.bind i path mode).run s
  (reply.result, s)

/-- Answer one callback of the engine. -/
def dispatch (s : Backstage L) (kind : CallbackKind) (i : InstanceId) (props : Props) :
    Reply × Backstage L :=
  (Task.ofCallback kind i props).run s

/-- Log the error of a reply that nobody else sees. -/
def report (s : Backstage L) (kind : CallbackKind) (reply : Reply) : Backstage L :=
  match reply.result with
  | .ok _ => s
  | .error e =>
    s.say .error ("Audio: programmer sound callback " ++ kind.name ++ " failed: " ++ e.message)

/-- Deliver a callback to its receiver, which may change the props. -/
def deliver (s : Backstage L) (receiver : Receiver) (kind : CallbackKind) (i : InstanceId)
    (props : Props) : Props × Backstage L :=
  match receiver with
  | .lifecycle entity =>
    (props, s.say .trace ("Audio: " ++ entity.text ++ " " ++ i.text ++ " callback " ++ kind.name))
  | .bridge =>
    let (reply, s) := s.dispatch kind i props
    (reply.props,
      { s.report kind reply with answered := s.answered ++ [⟨kind, i, reply.result⟩] })
  | .host supplied =>
    (if kind = .createSound then { props with sound := supplied } else props,
      { s with seen := s.seen ++ [(kind, i)] })

/-- Tell a receiver that an instance is gone, after giving it back the sound it supplied. -/
def farewell (s : Backstage L) (receiver : Receiver) (i : InstanceId) (props : Props) :
    Backstage L :=
  let (props, s) :=
    if props.sound.isSome then s.deliver receiver .destroySound i props else (props, s)
  (s.deliver receiver .destroyed i props).2

def boundCount (s : Backstage L) : Nat := s.bridge.table.size

end Backstage

end Soundstage
