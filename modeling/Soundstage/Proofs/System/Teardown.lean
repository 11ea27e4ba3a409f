import Mathlib.Logic.ExistsUnique
import Soundstage.Proofs.Engine.ScriptedEvents

/-!
# Teardown

An instance that is still there has just one emitter that tracks it, or it was stopped and given up
and only waits for the engine. So once a shutdown has stopped and given up all that the emitters
track, the update that follows takes everything away, and with the instances their bindings and the
sounds of those.
-/

namespace Soundstage

open Playable Staged

namespace System

variable {E L : Type} {s : System E L} {o : Owner} {i : InstanceId}

/-- The emitter of `o` has a handle of `i`. -/
def Tracks (s : System E L) (o : Owner) (i : InstanceId) : Prop :=
  ∃ em, s.emitterOf o = some em ∧ ∃ h ∈ em.handles, h.instanceId = i

theorem tracks_iff : s.Tracks o i ↔ i ∈ s.view.ids o := by
  have hv : s.view.ids o = (s.emitterOf o).elim [] fun em => em.handles.map Handle.instanceId := by
    unfold View.ids view handlesOf
    dsimp only
    cases s.emitterOf o <;> rfl
  rw [hv]
  unfold Tracks
  cases s.emitterOf o with
  | none => simp
  | some em => simp

end System

namespace Orderly

variable {E L X S : Type} [Loader L] [LawfulLoader L] [Staged E X S] [Playable X S]

theorem sole_owner {s : System E L} (h : Orderly s.view) {i : InstanceId} {x : X} (hx : s.rig.instance? i = some x) :
    (∃! o, s.Tracks o i) ∨ (status x).released = true ∧ (status x).stopped = true := by
  refine (h.owned hx).imp_left ?_
  rintro ⟨o, ho⟩
  exact ⟨o, System.tracks_iff.mpr ho, fun p hp => h.owner_unique (System.tracks_iff.mp hp) ho⟩

theorem vacant {v : View E L} (h : Orderly v) (hn : ∀ i, v.rig.instance? i = none) :
    (∀ i, v.rig.binding? i = none) ∧ ∀ x, ¬LawfulLoader.IsLive v.rig.loader x := by
  have hb : ∀ i, v.rig.binding? i = none := fun i => Classical.byContradiction fun hb => by
    obtain ⟨x, hx, -⟩ := h.bound hb
    rw [hn] at hx
    cases hx
  refine ⟨hb, fun x hl => ?_⟩
  rcases (h.ledger.live x).mp hl with hm | ⟨i, b, hi, -⟩
  · cases hm
  · rw [hb] at hi
    cases hi

end Orderly

/-- A run of a new system with the scripted engine. -/
def scriptedRun (events : List String) (config : Config) (files : List Path) (disk : Disk)
    (turns : List (Turn ScriptedEvent)) : System ScriptedEngine ScriptedLoader :=
  Turn.run ScriptedEvent.happen turns (.ofEngine (.ofEvents events) config (.ofFiles files) disk)

theorem scriptedRun_orderly (events : List String) (config : Config) (files : List Path) (disk : Disk)
    (turns : List (Turn ScriptedEvent)) : Orderly (scriptedRun events config files disk turns).view :=
  have hlive : ∀ x, ¬LawfulLoader.IsLive (ScriptedLoader.ofFiles files) x := fun _ h => h rfl
  (Orderly.start config disk (fun _ => rfl) (ScriptedLoader.Balanced.ofFiles files).sane hlive).run
    ScriptedEvent.drift turns

namespace ScriptedEngine

/-- A shutdown leaves a scripted engine empty. -/
theorem shutdownIn_vacant {s : System ScriptedEngine ScriptedLoader} (h : Orderly s.view) (visit : Visit) :
    ∀ i, (s.shutdownIn (visit.order s.emitters.keys)).rig.instance? i = none := by
  obtain ⟨hp, hs⟩ := System.hushed_plainly h (Request.mem_order visit)
  have hh := h.plainly hp
  have hc := LawfulEngine.update_cleared (s.hushed (visit.order s.emitters.keys)).rig hh.ledger
  intro i
  refine Classical.byContradiction fun hne => ?_
  change (Engine.update (s.hushed (visit.order s.emitters.keys)).rig).instance? i ≠ none at hne
  obtain ⟨y, hy⟩ := Option.ne_none_iff_exists'.mp hne
  obtain ⟨x, hx, -⟩ := (Drift.of_cleared hc).aged hy
  obtain ⟨hr, hst⟩ := hh.of_silent hs hx
  have hdone : x.isDone = true := by
    rw [ScriptedInstance.isDone, show x.released = true from hr, show x.isStopped = true from hst, Bool.or_true]
    rfl
  exact hne (hc.taken i ⟨x, hx, hdone⟩)

end ScriptedEngine

/-- Nothing outlives a shutdown. At every point of every run, an instance has just one owner or is
stopped and given up; and a shutdown, whatever the order it goes in, leaves no emitters, no
instances, no bindings and no live sounds. -/
theorem nothing_outlives_shutdown (events : List String) (config : Config) (files : List Path) (disk : Disk)
    (turns : List (Turn ScriptedEvent)) : let s := scriptedRun events config files disk turns
    (∀ i x, s.rig.engine.instances.get? i = some x →
      (∃! o, s.Tracks o i) ∨ x.isStopped = true ∧ x.released = true) ∧
    ∀ visit : Visit, let s' := s.shutdownIn (visit.order s.emitters.keys)
      s'.emitterCount = 0 ∧ s'.rig.engine.instances.size = 0 ∧ s'.rig.boundCount = 0 ∧
        s'.rig.loader.live.size = 0 := by
  intro s
  have h : Orderly s.view := scriptedRun_orderly events config files disk turns
  refine ⟨fun i x hx => (h.sole_owner hx).imp_right And.symm, fun visit => ?_⟩
  have hn := ScriptedEngine.shutdownIn_vacant h visit
  have h' : Orderly (s.shutdownIn (visit.order s.emitters.keys)).view := Request.orderly h (.shutdown visit)
  obtain ⟨hb, hl⟩ := h'.vacant hn
  exact ⟨rfl, Table.size_eq_zero_iff.mpr hn, Table.size_eq_zero_iff.mpr hb,
    Table.size_eq_zero_iff.mpr fun x => Classical.byContradiction fun hx => hl x hx⟩

end Soundstage
