import Soundstage.Proofs.Engine.Departures
import Soundstage.Proofs.Engine.Mirror

/-!
# Partings

What the farewells of scripted instances come to where the props mirror the bridge: the bridge accepts
every callback, and frees the bindings and the sounds of the instances once each. `Parted ids r r'`
says this of any distinct instances that go away one after the other, there or not.
-/

namespace Soundstage

open Playable Backstage

/-- The instances in `ids` have left the rig, with their bindings and their sounds. -/
structure Parted (ids : List InstanceId) (r r' : Rig ScriptedEngine ScriptedLoader) : Prop where
  instances : ∀ j, r'.instance? j = if j ∈ ids then none else r.instance? j
  bindings : ∀ j, r'.binding? j = if j ∈ ids then none else r.binding? j
  answered : r'.answered = r.answered ++ ids.flatMap r.owed
  quiet : Quiet r.toBackstage r'.toBackstage
  freed : r'.bridge.freed = r.bridge.freed + ids.countP fun i => (r.binding? i).isSome
  live : ∀ y, r'.loader.live.get? y =
    if ∃ i ∈ ids, (r.binding? i).bind Binding.loaded = some y then none else r.loader.live.get? y
  releases : r'.loader.releases =
    r.loader.releases + ids.countP fun i => ((r.binding? i).bind Binding.loaded).isSome

namespace Parted

variable {r r' r'' : Rig ScriptedEngine ScriptedLoader} {i : InstanceId} {ids : List InstanceId}

theorem nil (r : Rig ScriptedEngine ScriptedLoader) : Parted [] r r := by
  refine ⟨fun _ => ?_, fun _ => ?_, ?_, .refl _, rfl, fun _ => ?_, rfl⟩ <;> simp

theorem departed (h : Parted ids r r') : Departed ids r r' := by
  refine ⟨h.instances, h.bindings, h.answered, h.quiet, h.freed, fun y => ?_⟩
  change r'.loader.live.get? y ≠ none ↔ r.loader.live.get? y ≠ none ∧ _
  rw [h.live]
  split <;> simp [*]

theorem cons (h : Parted [i] r r') (h' : Parted ids r' r'') (hi : i ∉ ids) : Parted (i :: ids) r r'' := by
  have hd := h.departed.cons h'.departed hi
  have same := h.departed.binding?_later hi
  refine ⟨hd.instances, hd.bindings, hd.answered, hd.quiet, hd.freed, fun y => ?_, ?_⟩
  · have hlater : (∃ j ∈ ids, (r'.binding? j).bind Binding.loaded = some y) ↔
        ∃ j ∈ ids, (r.binding? j).bind Binding.loaded = some y := by
      refine exists_congr fun j => and_congr_right fun hj => ?_
      rw [same j hj]
    rw [h'.live, h.live]
    simp only [hlater, List.mem_cons, List.not_mem_nil, or_false, exists_eq_or_imp, exists_eq_left]
    by_cases hfirst : (r.binding? i).bind Binding.loaded = some y <;> simp [hfirst]
  · have hcount : (ids.countP fun j => ((r'.binding? j).bind Binding.loaded).isSome) =
        ids.countP fun j => ((r.binding? j).bind Binding.loaded).isSome := by
      refine List.countP_congr fun j hj => ?_
      rw [same j hj]
    rw [h'.releases, h.releases, hcount]
    simp only [List.countP_cons, List.countP_nil]
    omega

end Parted

/-- A scripted loader never refuses to release the sound of a binding. -/
theorem ScriptedLoader.released {s : Backstage ScriptedLoader} (hl : Ledger s []) {i : InstanceId} {b : Binding}
    (hb : s.binding? i = some b) : let l := (s.releaseLoaded i b.loaded).loader
    (∀ y, l.live.get? y = if b.loaded = some y then none else s.loader.live.get? y) ∧
      l.releases = s.loader.releases + if b.loaded.isSome then 1 else 0 := by
  dsimp only
  rw [s.loader_releaseLoaded]
  cases hx : b.loaded with
  | none => exact ⟨fun _ => rfl, rfl⟩
  | some x =>
    have hlive : s.loader.live.get? x ≠ none := (hl.live x).mpr (.inr ⟨i, b, hb, hx⟩)
    have hc : s.loader.live.contains x = true := by
      rw [Table.contains_iff]
      exact Option.ne_none_iff_exists'.mp hlive
    have hr : Loader.release x s.loader = .ok { s.loader with
        live := s.loader.live.erase x, releases := s.loader.releases + 1 } := if_pos hc
    rw [Option.bind_some, hr]
    refine ⟨fun y => ?_, rfl⟩
    exact (Table.get?_erase ..).trans (if_congr (by rw [Option.some.injEq]; exact eq_comm) rfl rfl)

namespace Mirrored

variable {streams : InstanceId → Prop} {r : Rig ScriptedEngine ScriptedLoader}

/-- What is said to the bridge when `i` goes away, and what the bridge does then. -/
theorem heard_destroy (h : Mirrored streams r) (hl : Ledger r.toBackstage []) (i : InstanceId) :
    let r' := ScriptedEngine.destroy r i
    Heard i (r.owed i) r.toBackstage r'.toBackstage ∧
      r'.bridge.freed = r.bridge.freed + (if (r.binding? i).isSome then 1 else 0) ∧
      r'.loader = (r.releaseLoaded i ((r.binding? i).bind Binding.loaded)).loader := by
  unfold ScriptedEngine.destroy
  cases hx : r.engine.instances.get? i with
  | none =>
    have hb : r.binding? i = none := Classical.byContradiction fun hb => (h.bound.mp hb).2 hx
    rw [owed, hb]
    exact ⟨.refl i _, rfl, rfl⟩
  | some x =>
    have hserved : x.receiver = some .bridge ↔ r.binding? i ≠ none := by
      have hlive : r.instance? i ≠ none := Option.ne_none_iff_exists'.mpr ⟨x, hx⟩
      rw [h.served hx, h.bound]
      exact (and_iff_left hlive).symm
    have hparting := heard_parting hl hserved (h.sound hx)
    dsimp only
    cases hr : x.receiver <;> rw [hr] at hparting <;> exact hparting

theorem parted_destroy (h : Mirrored streams r) (hl : Ledger r.toBackstage []) (i : InstanceId) :
    Parted [i] r (ScriptedEngine.destroy r i) := by
  have hc := ScriptedEngine.destroy_cleared r i hl
  obtain ⟨hheard, hfreed, hloader⟩ := h.heard_destroy hl i
  have hgone : (ScriptedEngine.destroy r i).binding? i = none :=
    Classical.byContradiction fun hb => ((h.cleared hc).bound.mp hb).2 (hc.taken i rfl)
  have hd := Departed.single hl hc.instance?_eq hgone hheard hfreed hloader
  have hsound : (∀ y, (ScriptedEngine.destroy r i).loader.live.get? y =
      if (r.binding? i).bind Binding.loaded = some y then none else r.loader.live.get? y) ∧
      (ScriptedEngine.destroy r i).loader.releases =
        r.loader.releases + if ((r.binding? i).bind Binding.loaded).isSome then 1 else 0 := by
    rw [hloader]
    cases hb : r.binding? i with
    | none => exact ⟨fun _ => rfl, rfl⟩
    | some b => exact ScriptedLoader.released hl hb
  refine ⟨hd.instances, hd.bindings, hd.answered, hd.quiet, hd.freed, fun y => ?_, ?_⟩
  · rw [hsound.1]
    simp
  · rw [hsound.2, List.countP_singleton]

/-- Instances go away one after the other, each with its own farewell. -/
theorem parted_destroyAll (h : Mirrored streams r) (hl : Ledger r.toBackstage []) {ids : List InstanceId}
    (hids : ids.Nodup) : Parted ids r (ScriptedEngine.destroyAll r ids) := by
  induction ids generalizing r with
  | nil => exact .nil r
  | cons i ids ih =>
    obtain ⟨hi, hids⟩ := List.nodup_cons.mp hids
    have hc := ScriptedEngine.destroy_cleared r i hl
    exact (h.parted_destroy hl i).cons (ih (h.cleared hc) hc.ledger hids) hi

theorem parted_update (h : Mirrored streams r) (hl : Ledger r.toBackstage []) :
    Parted r.engine.done r (ScriptedEngine.update r) := by
  have hdone : r.engine.done.Nodup := Table.nodup_filter r.engine.instances.nodup _
  have counted : Mirrored streams { r with engine := { r.engine with updates := r.engine.updates + 1 } } :=
    h.rewrite (f := fun _ x => x) (fun j => Option.map_id'.symm) rfl (fun _ => rfl) fun _ _ => ⟨rfl, rfl⟩
  -- that an update is counted, nobody notices
  obtain ⟨hinst, hb, hanswered, hquiet, hfreed, hlive, hreleases⟩ := counted.parted_destroyAll hl hdone
  exact ⟨hinst, hb, hanswered, hquiet, hfreed, hlive, hreleases⟩

end Mirrored

end Soundstage
