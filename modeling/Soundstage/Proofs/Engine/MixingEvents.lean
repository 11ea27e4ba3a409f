import Mathlib.Logic.Function.Iterate
import Soundstage.Proofs.Engine.Mixing
import Soundstage.Proofs.System.Runs

/-!
# What befalls a mixing engine

Time passes block by block, sounds end when they like, the device loses and gains room, and files
come and go. Whatever it is, every instance plays on (`MixingEvent.befell`): none comes in or goes
away, and a sound that was told to stop is never taken back.
-/

namespace Soundstage

open Playable

namespace Playback

/-- A sound that was told to stop never forgets it. -/
theorem isStopping_block {p : Playback} (h : p.isStopping = true) : p.block.isStopping = true := by
  unfold block
  split
  · exact h
  · unfold isStopping at h ⊢
    dsimp only
    cases hr : p.request with
    | some length => simp [nextFade, hr]
    | none =>
      cases hf : p.fade with
      | some fade => simp [nextFade, hr, hf]
      | none => simp [hr, hf] at h

end Playback

inductive MixingEvent
  /-- The disk has changed. -/
  | disk (disk : Disk)
  /-- There is another device, or none; which tracks take no sound is up to it. -/
  | device (device : Option Device)
  | render (blocks : Nat)
  /-- The sound of an instance has ended. -/
  | ended (i : InstanceId)

namespace MixingInstance

/-- Let the sound end. -/
def fallSilent (x : MixingInstance) : MixingInstance :=
  { x with sound := x.sound.map fun s => { s with stopped := true } }

/-- One block has passed. -/
def pass (x : MixingInstance) : MixingInstance := { x with sound := x.sound.map Playback.block, rendered := true }

/-- What became of `x` is the same instance, and at most its sound has changed. -/
structure PlaysOn (x y : MixingInstance) : Prop where
  ages : x.status.Ages y.status
  rest : y = { x with sound := y.sound, rendered := y.rendered }

namespace PlaysOn

theorem props {x y : MixingInstance} (h : x.PlaysOn y) : y.props = x.props := by rw [h.rest]

theorem refl (x : MixingInstance) : x.PlaysOn x := ⟨.refl _, rfl⟩

theorem fallSilent (x : MixingInstance) : x.PlaysOn x.fallSilent := by
  refine ⟨⟨rfl, fun h => ?_⟩, rfl⟩
  change x.isStopped = true at h
  change x.fallSilent.isStopped = true
  unfold isStopped MixingInstance.fallSilent at *
  cases hs : x.sound with
  | none => rfl
  | some p =>
    rw [hs] at h
    exact h

theorem pass (x : MixingInstance) : x.PlaysOn x.pass := by
  refine ⟨⟨rfl, fun h => ?_⟩, rfl⟩
  change x.isStopped = true at h
  change x.pass.isStopped = true
  unfold isStopped MixingInstance.pass at *
  cases hs : x.sound with
  | none => rfl
  | some p =>
    rw [hs] at h
    exact Playback.isStopping_block h

theorem passes (n : Nat) (x : MixingInstance) : x.PlaysOn (MixingInstance.pass^[n] x) := by
  induction n generalizing x with
  | zero => exact refl x
  | succ n ih =>
    obtain ⟨hages, hrest⟩ := ih x.pass
    exact ⟨(pass x).ages.trans hages, hrest⟩

end PlaysOn

end MixingInstance

namespace MixingEvent

def happen (v : MixingEvent) (r : Rig MixingEngine StreamingLoader) : Rig MixingEngine StreamingLoader :=
  match v with
  | .disk d => { r with disk := d }
  | .device d => r.withEngine { r.engine with device := d }
  | .render n => r.withEngine (r.engine.render n)
  | .ended i => r.withEngine (r.engine.withInstances (r.engine.instances.modify i MixingInstance.fallSilent))

theorem render_instances (n : Nat) (e : MixingEngine) : (e.render n).issued = e.issued ∧
    ∀ j, (e.render n).instances.get? j = (e.instances.get? j).map MixingInstance.pass^[n] := by
  induction n generalizing e with
  | zero => exact ⟨rfl, fun j => by simp [MixingEngine.render]⟩
  | succ n ih =>
    obtain ⟨hi, ht⟩ := ih e.renderBlock
    refine ⟨hi, fun j => (ht j).trans ?_⟩
    have hblock : e.renderBlock.instances.get? j = (e.instances.get? j).map MixingInstance.pass :=
      Table.get?_mapValues ..
    rw [hblock, Option.map_map, Function.iterate_succ]

/-- What an event comes to: every instance plays on, and behind the stage only the disk may be another. -/
structure Befell (r r' : Rig MixingEngine StreamingLoader) : Prop where
  issued : r'.issued = r.issued
  instances : ∃ f : InstanceId → MixingInstance → MixingInstance,
    (∀ j, r'.instance? j = (r.instance? j).map (f j)) ∧ ∀ j (x : MixingInstance), x.PlaysOn (f j x)
  backstage : r'.toBackstage = { r.toBackstage with disk := r'.disk }

theorem befell (v : MixingEvent) (r : Rig MixingEngine StreamingLoader) : Befell r (v.happen r) := by
  have untouched : ∀ j, r.instance? j = (r.instance? j).map fun x => x := fun _ => Option.map_id'.symm
  cases v with
  | disk d => exact ⟨rfl, ⟨_, untouched, fun _ x => .refl x⟩, rfl⟩
  | device d => exact ⟨rfl, ⟨_, untouched, fun _ x => .refl x⟩, rfl⟩
  | render n =>
    obtain ⟨hissued, hinst⟩ := render_instances n r.engine
    exact ⟨hissued, ⟨fun _ => MixingInstance.pass^[n], hinst, fun _ x => .passes n x⟩, rfl⟩
  | ended i =>
    refine ⟨rfl, ⟨fun j x => if j = i then x.fallSilent else x, fun j => ?_, fun j x => ?_⟩, rfl⟩
    · exact Table.get?_modify_eq_map ..
    · dsimp only
      split
      · exact .fallSilent x
      · exact .refl x

theorem drift (v : MixingEvent) (r : Rig MixingEngine StreamingLoader) (h : Ledger r.toBackstage []) :
    Drift r (v.happen r) := by
  obtain ⟨hissued, ⟨f, hinst, hf⟩, hsame⟩ := v.befell r
  refine .rewrite hissued hinst (fun j x => (hf j x).ages) ?_ ?_ <;> rw [hsame]
  · exact h.congr rfl rfl
  · exact id

end MixingEvent

end Soundstage
