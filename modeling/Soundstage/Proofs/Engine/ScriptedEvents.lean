import Soundstage.Proofs.Engine.ScriptedWrites
import Soundstage.Proofs.System.Runs

/-!
# What befalls a scripted engine

A host drives the scripted engine behind the back of the system: instances end, are destroyed or
called back whenever it likes, writes to them are rejected from some moment on, and files come and
go. `ScriptedEvent.befell` is the only place where the events are told apart; that they are drifts and
write nothing follows from it.
-/

namespace Soundstage

open Playable

inductive ScriptedEvent
  | finish (i : InstanceId)
  | destroy (i : InstanceId)
  | fire (i : InstanceId) (kind : CallbackKind)
  | update
  | rejectWrites (i : InstanceId)
  | addEvent (name : String)
  /-- Other files count as sounds. -/
  | files (known : List Path)
  /-- The disk has changed. -/
  | disk (disk : Disk)

namespace ScriptedEvent

def happen (v : ScriptedEvent) (r : Rig ScriptedEngine ScriptedLoader) : Rig ScriptedEngine ScriptedLoader :=
  match v with
  | .finish i => r.withEngine (r.engine.finish i)
  | .destroy i => ScriptedEngine.destroy r i
  | .fire i kind => (ScriptedEngine.fire r i kind).2
  | .update => ScriptedEngine.update r
  | .rejectWrites i => r.withEngine (r.engine.rejectWrites i)
  | .addEvent name => r.withEngine (r.engine.addEvent name)
  | .files known => { r with loader := { r.loader with files := known } }
  | .disk d => { r with disk := d }

/-- What an event comes to: instances left with a farewell, or each was changed where it stands, and no more
was written to any. -/
inductive Befell (r r' : Rig ScriptedEngine ScriptedLoader) : Prop
  | cleared {gone : InstanceId → Prop} : Cleared gone r r' → Befell r r'
  | changed {f : InstanceId → ScriptedInstance → ScriptedInstance} : r'.issued = r.issued →
    (∀ j, r'.instance? j = (r.instance? j).map (f j)) → Ledger r'.toBackstage [] →
    (∀ {j}, r'.binding? j ≠ none → r.binding? j ≠ none) →
    (∀ j x, (f j x).status = x.status ∧ x.Written [] [] (f j x)) → Befell r r'

namespace Befell

variable {r r' : Rig ScriptedEngine ScriptedLoader} {i : InstanceId}

/-- Files or events may have come and gone, but the instances are as they were. -/
theorem still (hissued : r'.engine.issued = r.engine.issued) (hinst : r'.engine.instances = r.engine.instances)
    (hbridge : r'.bridge = r.bridge) (h : Ledger r'.toBackstage []) : Befell r r' := by
  refine .changed (f := fun _ x => x) hissued (fun j => ?_) h (fun {j} => ?_) fun _ x => ⟨rfl, .refl x⟩
  · exact (congrArg (·.get? j) hinst).trans Option.map_id'.symm
  · unfold Backstage.binding?
    rw [hbridge]
    exact id

theorem one {f : ScriptedInstance → ScriptedInstance}
    (he : r'.engine = r.engine.withInstances (r.engine.instances.modify i f))
    (hc : Backstage.Called i r.toBackstage r'.toBackstage) (hs : ∀ x, (f x).status = x.status)
    (hw : ∀ x, ScriptedInstance.Written [] [] x (f x)) : Befell r r' := by
  have hissued : r'.issued = r.issued := (congrArg ScriptedEngine.issued he).trans rfl
  refine .changed (f := fun j x => if j = i then f x else x) hissued (fun j => ?_) hc.ledger hc.made fun j x => ?_
  · exact (congrArg (fun e : ScriptedEngine => e.instances.get? j) he).trans (Table.get?_modify_eq_map ..)
  · split
    · exact ⟨hs x, hw x⟩
    · exact ⟨rfl, .refl x⟩

theorem drift (h : Befell r r') : Drift r r' := by
  cases h with
  | cleared hc => exact .of_cleared hc
  | changed hissued hinst hl hunmade hf => exact .rewrite hissued hinst (fun j x => .of_eq (hf j x).1) hl hunmade

theorem written (h : Befell r r') {x' : ScriptedInstance} (hx : r'.instance? i = some x') :
    ∃ x, r.instance? i = some x ∧ x.Written [] [] x' := by
  cases h with
  | cleared hc => exact ⟨x', hc.present hx, .refl x'⟩
  | changed _ hinst _ _ hf =>
    rw [hinst, Option.map_eq_some_iff] at hx
    obtain ⟨x, hx, rfl⟩ := hx
    exact ⟨x, hx, (hf i x).2⟩

end Befell

theorem fire_befell (r : Rig ScriptedEngine ScriptedLoader) (h : Ledger r.toBackstage []) (i : InstanceId)
    (kind : CallbackKind) : Befell r (ScriptedEngine.fire r i kind).2 := by
  unfold ScriptedEngine.fire
  split
  · exact .still rfl rfl rfl h
  split
  · exact .still rfl rfl rfl h
  · rename_i receiver _
    exact .one rfl (Backstage.called_deliver h receiver kind) (fun _ => rfl) fun _ => .same rfl rfl rfl

theorem befell (v : ScriptedEvent) (r : Rig ScriptedEngine ScriptedLoader) (h : Ledger r.toBackstage []) :
    Befell r (v.happen r) := by
  cases v with
  | finish i => exact .one rfl (.refl h) (fun _ => rfl) fun _ => .same rfl rfl rfl
  | destroy i => exact .cleared (ScriptedEngine.destroy_cleared r i h)
  | fire i kind => exact fire_befell r h i kind
  | update => exact .cleared (LawfulEngine.update_cleared r h)
  | rejectWrites i =>
    -- of an instance that rejects writes nothing is claimed
    refine .one rfl (.refl h) (fun _ => rfl) fun x hr => ?_
    cases hr
  | addEvent name => exact .still rfl rfl rfl h
  | files known => exact .still rfl rfl rfl (h.relend rfl h.sane fun _ => Iff.rfl)
  | disk d => exact .still rfl rfl rfl (h.congr rfl rfl)

theorem drift (v : ScriptedEvent) (r : Rig ScriptedEngine ScriptedLoader) (h : Ledger r.toBackstage []) :
    Drift r (v.happen r) :=
  (v.befell r h).drift

end ScriptedEvent

end Soundstage
