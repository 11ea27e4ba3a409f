import Soundstage.Engine.Scripted
import Soundstage.Proofs.Engine.Writes

/-!
# The scripted engine is lawful

An instance that rejects writes is left as it is by them; every other call of the engine does to an
instance just what it records.
-/

namespace Soundstage

namespace ScriptedInstance

def place (attributes : Attributes) (x : ScriptedInstance) : ScriptedInstance :=
  if x.rejectsWrites then x
  else { x with attributes := some attributes, attributeWrites := x.attributeWrites + 1 }

def setFloat (name : String) (value : Float32) (x : ScriptedInstance) : ScriptedInstance :=
  if x.rejectsWrites then x else { x with floatWrites := x.floatWrites ++ [(name, value)] }

def setLabel (name label : String) (x : ScriptedInstance) : ScriptedInstance :=
  if x.rejectsWrites then x else { x with labelWrites := x.labelWrites ++ [(name, label)] }

def status (x : ScriptedInstance) : Status := ⟨x.event, x.receiver, x.started, x.released, x.isStopped⟩

instance : Playable ScriptedInstance (List String) where
  status := status
  isDone := isDone
  fresh _ event := { event }
  receive receiver x := { x with receiver := some receiver }
  place := place
  setFloat := setFloat
  setLabel := setLabel
  stop _ mode x := { x with stopMode := some mode, stopCount := x.stopCount + 1 }
  release x := { x with released := true }
  Begun x x' := x' = { x with started := true }
  isDone_released h := (Bool.and_eq_true _ _ ▸ h).1
  status_fresh _ _ := ⟨false, rfl⟩
  status_receive _ _ := rfl
  status_place _ x := by unfold place; split <;> rfl
  status_setFloat _ _ x := by unfold setFloat; split <;> rfl
  status_setLabel _ _ x := by unfold setLabel; split <;> rfl
  status_stop _ _ _ := rfl
  status_release _ := rfl
  status_begun := by rintro x _ rfl; exact ⟨x.isStopped, rfl⟩

end ScriptedInstance

namespace ScriptedEngine

instance : Staged ScriptedEngine ScriptedInstance (List String) where
  instances := instances
  issued := issued
  setting := events

theorem change_rewrites (e : ScriptedEngine) (i : InstanceId) (f : ScriptedInstance → ScriptedInstance) :
    Rewrites (change i f) i f e :=
  .of_modify rfl rfl rfl rfl

/-- Where a write is rejected, nothing would have been written. -/
theorem write_rewrites (e : ScriptedEngine) (i : InstanceId) (f : ScriptedInstance → ScriptedInstance) :
    Rewrites (write i f) i (fun x => if x.rejectsWrites then x else f x) e := by
  unfold write
  constructor
  · intro e' h
    split at h
    · cases h
    · rename_i x hx
      split at h <;> cases h
      refine ⟨rfl, rfl, fun j => (Table.get?_modify_eq_map ..).trans (Option.map_congr fun y hy => ?_)⟩
      by_cases hji : j = i
      · subst hji
        rw [hx] at hy
        cases hy
        simp [*]
      · simp [hji]
  · intro err x h hx
    rw [show e.instances.get? i = some x from hx] at h
    dsimp only at h
    split at h
    · simp [*]
    · cases h

theorem change_isOk {e : ScriptedEngine} {i : InstanceId} (f : ScriptedInstance → ScriptedInstance)
    (h : e.instances.get? i ≠ none) : ∃ e', change i f e = .ok e' :=
  ⟨_, if_pos (Option.isSome_iff_ne_none.mpr h)⟩

/-- To start an instance is to note that it was. -/
theorem start_wrote (i : InstanceId) (r : Rig ScriptedEngine ScriptedLoader) :
    Wrote (onEach [i] fun x => { x with started := true }) r (Engine.start i r).2 :=
  .act r (change_rewrites r.engine i _)

theorem mem_done_iff (e : ScriptedEngine) (i : InstanceId) :
    i ∈ e.done ↔ ∃ x, e.instances.get? i = some x ∧ x.isDone = true :=
  Table.mem_keys_filter_iff

theorem destroy_cleared {L : Type} [Loader L] [LawfulLoader L] (r : Rig ScriptedEngine L) (i : InstanceId)
    (h : Ledger r.toBackstage []) : Cleared (· = i) r (destroy r i) := by
  unfold destroy
  cases hx : r.engine.instances.get? i with
  | none => exact .absent h hx
  | some x =>
    dsimp only
    cases hr : x.receiver with
    | none =>
      refine .of_farewell (p := x.props) hx rfl rfl (fun j => Table.get?_erase ..) h ?_
      rw [show (Playable.status x).receiver = none from hr]
      rfl
    | some receiver =>
      refine .of_farewell (p := x.props) hx rfl rfl (fun j => Table.get?_erase ..) h ?_
      rw [show (Playable.status x).receiver = some receiver from hr]
      rfl

instance : LawfulEngine ScriptedEngine ScriptedLoader ScriptedInstance (List String) where
  isValid_eq _ _ := rfl
  eventOf_eq _ _ := rfl
  create_ok {event e e' i} h := by
    change create event e = _ at h
    unfold create at h
    split at h <;> cases h
    exact ⟨rfl, rfl, rfl, fun j => Table.get?_insert ..⟩
  create_error {event e e' err} h := by
    change create event e = _ at h
    unfold create at h
    split at h <;> cases h
    exact ⟨rfl, rfl, fun _ => rfl⟩
  setReceiver e i _ := change_rewrites e i _
  setAttributes e i _ := write_rewrites e i _
  setFloat e i _ _ := write_rewrites e i _
  setLabel e i _ _ := write_rewrites e i _
  stop e i _ := change_rewrites e i _
  release e i := change_rewrites e i _
  stop_isOk _ h := change_isOk _ h
  release_isOk h := change_isOk _ h
  setListener h := by
    cases h
    exact ⟨rfl, rfl, fun _ => rfl⟩
  start_others r i j hj := (start_wrote i r).others (by simpa using hj)
  start_begun hx := ⟨_, (start_wrote _ _).own hx, rfl⟩
  start_issued r i := (start_wrote i r).issued
  start_setting r i := (start_wrote i r).setting
  start_called r i h := by
    rw [(start_wrote i r).backstage]
    exact .of_eq h rfl rfl rfl
  update_cleared r h := by
    have counted : Cleared (fun _ => False) r
        { r with engine := { r.engine with updates := r.engine.updates + 1 } } :=
      .still h rfl rfl (fun _ => rfl) rfl
    refine (counted.trans (Cleared.foldl destroy_cleared r.engine.done h)).congr fun j => ?_
    rw [false_or]
    exact r.engine.mem_done_iff j

end ScriptedEngine

end Soundstage
