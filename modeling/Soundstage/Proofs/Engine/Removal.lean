import Mathlib.Data.List.Basic
import Soundstage.Proofs.Engine.Mixing

/-!
# Instances that are taken away

When instances of the mixing engine go away, their receivers are told, and these may do much behind the stage. To the
engine itself it does not matter what they do, nor in what order the instances go: it comes out without them, and their
tracks are given up (`destroyAll_engine`, `removeAll_perm`).
-/

namespace Soundstage

theorem Places.leave_comm (p : Places) (a b : Bool) : (p.leave a).leave b = (p.leave b).leave a := by
  cases a <;> cases b <;> rfl

namespace MixingEngine

/-- The engine without an instance, whose track is given up. -/
def remove (e : MixingEngine) (i : InstanceId) : MixingEngine :=
  match e.instances.get? i with
  | none => e
  | some x => (e.withInstances (e.instances.erase i)).leaveTrack x.rendered

section

variable {e : MixingEngine} {i : InstanceId}

theorem remove_of_none (h : e.instances.get? i = none) : e.remove i = e := by
  unfold remove
  rw [h]

theorem remove_of_some {x : MixingInstance} (h : e.instances.get? i = some x) :
    e.remove i = (e.withInstances (e.instances.erase i)).leaveTrack x.rendered := by
  unfold remove
  rw [h]

theorem get?_remove (e : MixingEngine) (i j : InstanceId) :
    (e.remove i).instances.get? j = if j = i then none else e.instances.get? j := by
  cases h : e.instances.get? i with
  | none =>
    rw [remove_of_none h]
    split
    · rw [‹j = i›, h]
    · rfl
  | some x =>
    rw [remove_of_some h]
    exact Table.get?_erase ..

theorem issued_remove (e : MixingEngine) (i : InstanceId) : (e.remove i).issued = e.issued := by
  unfold remove
  split <;> rfl

theorem leaveTrack_comm (e : MixingEngine) (a b : Bool) :
    (e.leaveTrack a).leaveTrack b = (e.leaveTrack b).leaveTrack a := by
  unfold leaveTrack
  cases e.device with
  | none => rfl
  | some d => simp only [Option.map_some, d.tracks.leave_comm a b]

theorem remove_comm (e : MixingEngine) (i j : InstanceId) : (e.remove i).remove j = (e.remove j).remove i := by
  by_cases hij : i = j
  · rw [hij]
  have hj := (e.get?_remove i j).trans (if_neg (Ne.symm hij))
  have hi := (e.get?_remove j i).trans (if_neg hij)
  -- one that is not there makes no difference; else both are erased and two tracks given up
  cases hx : e.instances.get? i with
  | none => rw [remove_of_none hx, remove_of_none (hi.trans hx)]
  | some x =>
    cases hy : e.instances.get? j with
    | none => rw [remove_of_none hy, remove_of_none (hj.trans hy)]
    | some y =>
      rw [remove_of_some (hj.trans hy), remove_of_some (hi.trans hx), remove_of_some hx, remove_of_some hy]
      change (MixingEngine.leaveTrack _ (e.withInstances ((e.instances.erase i).erase j))).leaveTrack _ =
        (MixingEngine.leaveTrack _ (e.withInstances ((e.instances.erase j).erase i))).leaveTrack _
      rw [leaveTrack_comm, e.instances.erase_comm]

end

def removeAll (e : MixingEngine) (ids : List InstanceId) : MixingEngine := ids.foldl remove e

theorem get?_removeAll (e : MixingEngine) (ids : List InstanceId) (j : InstanceId) :
    (e.removeAll ids).instances.get? j = if j ∈ ids then none else e.instances.get? j := by
  induction ids generalizing e with
  | nil => simp [removeAll]
  | cons i rest ih =>
    refine (ih (e.remove i)).trans ?_
    rw [get?_remove]
    by_cases hj : j = i <;> simp [hj]

theorem issued_removeAll (e : MixingEngine) (ids : List InstanceId) : (e.removeAll ids).issued = e.issued :=
  List.foldlRecOn (motive := fun e' => e'.issued = e.issued) ids _ rfl fun e' h i _ => (issued_remove e' i).trans h

theorem removeAll_perm (e : MixingEngine) {ids ids' : List InstanceId} (h : ids.Perm ids') :
    e.removeAll ids = e.removeAll ids' :=
  h.foldl_eq' (fun i _ j _ e => remove_comm e i j) e

variable (r : Rig MixingEngine StreamingLoader)

theorem destroy_engine (i : InstanceId) : (destroy r i).engine = r.engine.remove i := by
  unfold destroy remove
  cases r.engine.instances.get? i with
  | none => rfl
  | some x =>
    dsimp only
    cases x.receiver <;> rfl

theorem destroyAll_engine (ids : List InstanceId) : (destroyAll r ids).engine = r.engine.removeAll ids := by
  induction ids generalizing r with
  | nil => rfl
  | cons i rest ih => exact (ih (destroy r i)).trans (congrArg (·.removeAll rest) (destroy_engine r i))

theorem destroyAll_instance? (ids : List InstanceId) (j : InstanceId) :
    (destroyAll r ids).instance? j = if j ∈ ids then none else r.instance? j := by
  change (destroyAll r ids).engine.instances.get? j = _
  rw [destroyAll_engine, get?_removeAll]
  rfl

end MixingEngine

end Soundstage
