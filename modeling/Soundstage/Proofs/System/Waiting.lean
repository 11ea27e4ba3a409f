import Soundstage.Audition
import Soundstage.Proofs.System.Frames

/-!
# How long a system waits for silence

Waiting goes on for as long as the entity tracks anything, and only the update of the engine takes instances away: those
that are over and were given up. Ticks neither end an instance nor give it up, so what the first update leaves there
lingers for ever. Without a limit a scripted system waits for one tick or without end (`waiting_ends_at_once_or_never`);
that it may well have nothing left to play, and still wait, is `kept_instance_lingers`.
-/

namespace Soundstage

theorem ScriptedInstance.isDone_iff {x : ScriptedInstance} :
    x.isDone = true ↔ x.released = true ∧ (x.finished = true ∨ x.isStopped = true) := by
  simp [isDone]

namespace System

variable {s : System ScriptedEngine ScriptedLoader} {entity : EntityId}

/-- An entity tracks an instance that the next update leaves there. -/
def Lingers (s : System ScriptedEngine ScriptedLoader) (entity : EntityId) : Prop :=
  ∃ h ∈ s.handlesOf (.entity entity), ∃ x, s.rig.instance? h.instanceId = some x ∧ x.isDone = false

theorem framed_tick (ho : Orderly s.view) (transform : EntityId → Option Vec3) :
    Framed transform s (s.tick transform).1 (s.tick transform).2 :=
  .of_orderly ho transform ⟨id, fun _ => .refl _⟩

theorem activeCount_eq (s : System ScriptedEngine ScriptedLoader) (entity : EntityId) :
    s.activeCount entity = (s.handlesOf (.entity entity)).length := by
  unfold activeCount handlesOf
  cases he : s.emitter? entity <;> simp [emitterOf, he, Emitter.activeCount]

theorem orderly_tick (ho : Orderly s.view) (transform : EntityId → Option Vec3) :
    Orderly (s.tick transform).2.view :=
  ho.plainly (tickIn_plainly ho s.emitters.keys transform)

/-- After a tick just the handles of the instances that are not over are left. -/
theorem handlesOf_tick (ho : Orderly s.view) (transform : EntityId → Option Vec3) (entity : EntityId) :
    (s.tick transform).2.handlesOf (.entity entity) =
      (s.handlesOf (.entity entity)).filter fun h => s.rig.update.isValid h.instanceId := by
  unfold handlesOf
  rw [(framed_tick ho transform).emitters]
  cases s.emitterOf (.entity entity) <;> rfl

theorem isValid_update_iff (ho : Orderly s.view) {i : InstanceId} :
    s.rig.update.isValid i = true ↔ ∃ x, s.rig.instance? i = some x ∧ x.isDone = false := by
  rw [Rig.isValid_eq, ScriptedEngine.update_instance? s.rig ho.ledger]
  cases s.rig.instance? i with
  | none => simp
  | some x => cases hx : x.isDone <;> simp [Option.filter, hx]

/-- A tick leaves an entity with nothing just if nothing of it lingers. -/
theorem activeCount_tick (ho : Orderly s.view) (transform : EntityId → Option Vec3) (entity : EntityId) :
    (s.tick transform).2.activeCount entity = 0 ↔ ¬s.Lingers entity := by
  rw [activeCount_eq, handlesOf_tick ho, List.length_eq_zero_iff, List.filter_eq_nil_iff]
  simp only [isValid_update_iff ho, Lingers, not_exists, not_and]

/-- What lingers is told where it is and is otherwise left alone, so it lingers on. -/
theorem Lingers.tick (ho : Orderly s.view) (hl : s.Lingers entity) (transform : EntityId → Option Vec3) :
    (s.tick transform).2.Lingers entity := by
  obtain ⟨h, hh, x, hx, hdone⟩ := hl
  have hv := (isValid_update_iff ho).mpr ⟨x, hx, hdone⟩
  have hf := framed_tick ho transform
  have hleft : h ∈ (s.tick transform).2.handlesOf (.entity entity) := by
    rw [handlesOf_tick ho]
    exact List.mem_filter.mpr ⟨hh, hv⟩
  have hupdated : s.rig.update.instance? h.instanceId = some x := by
    rw [hf.updated, hx]
    simp [Option.filter, hdone]
  refine ⟨h, hleft, ?_⟩
  cases hr : x.rejectsWrites with
  | true => exact ⟨x, hf.rejected hupdated hr, hdone⟩
  | false =>
    obtain ⟨em, hem, g, hg, hi⟩ := tracks_iff.mpr (List.mem_map_of_mem hleft)
    rw [← hi] at hupdated ⊢
    exact ⟨_, hf.written hem hg hupdated hr, hdone⟩

/-- Where something lingers, no patience is enough. -/
theorem Lingers.awaitSilence (ho : Orderly s.view) (hl : s.Lingers entity) (transform : EntityId → Option Vec3)
    (patience elapsed : Nat) : (awaitSilence entity transform none patience elapsed s).1 = .unfinished := by
  induction patience generalizing s elapsed with
  | zero => rfl
  | succ patience ih =>
    have hcount := fun h => (activeCount_tick ho transform entity).mp h hl
    unfold System.awaitSilence
    dsimp only [Option.any]
    rw [if_neg hcount, if_neg (by simp)]
    exact ih (orderly_tick ho transform) (hl.tick ho transform) _

/-- Where nothing lingers, the first look is enough. -/
theorem awaitSilence_of_not_lingers (ho : Orderly s.view) (hl : ¬s.Lingers entity)
    (transform : EntityId → Option Vec3) (limit : Option Nat) (patience elapsed : Nat) :
    awaitSilence entity transform limit (patience + 1) elapsed s = (.silent, (s.tick transform).2) := by
  have hcount := (activeCount_tick ho transform entity).mpr hl
  unfold awaitSilence
  dsimp only
  rw [if_pos hcount]

/-- Somebody who waits looks at least once. -/
theorem patienceFor_succ (limit : Option Nat) (patience : Nat) : ∃ n, patienceFor limit (patience + 1) = n + 1 := by
  cases limit <;> exact ⟨_, rfl⟩

end System

/-- Waiting for a scripted system ends at once or never. In every state that a run can reach, if what an entity tracks
is over and was given up, or is gone, waiting for it ends after the one tick that every wait begins with, fades and
shuts down. And if an instance that it tracks is not over, or was kept, no patience sees the end of a wait without a
limit. -/
theorem waiting_ends_at_once_or_never (events : List String) (config : Config) (files : List Path) (disk : Disk)
    (turns : List (Turn ScriptedEvent)) (entity : EntityId) (position : Vec3) :
    let s := scriptedRun events config files disk turns
    let transform := fun e => if e = entity then some position else none
    let s' := (s.tick transform).2
    ((∀ i x, s.Tracks (.entity entity) i → s.rig.instance? i = some x →
        x.released = true ∧ (x.finished = true ∨ x.isStopped = true)) →
      ∀ limit patience, s.runUntilSilent entity position limit (patience + 1) =
        (.silent, (System.tickFrames transform s'.fadeFrames s').shutdown)) ∧
    ∀ i x, s.Tracks (.entity entity) i → s.rig.instance? i = some x →
      x.released = false ∨ x.finished = false ∧ x.isStopped = false →
        ∀ patience, (s.runUntilSilent entity position none patience).1 = .unfinished := by
  intro s transform s'
  have ho : Orderly s.view := scriptedRun_orderly events config files disk turns
  refine ⟨fun hall limit patience => ?_, fun i x ht hx hnot patience => ?_⟩
  · have hl : ¬s.Lingers entity := by
      rintro ⟨h, hh, x, hx, hdone⟩
      have hover := hall _ x (System.tracks_iff.mpr (List.mem_map_of_mem hh)) hx
      rw [ScriptedInstance.isDone_iff.mpr hover] at hdone
      cases hdone
    obtain ⟨n, hn⟩ := System.patienceFor_succ limit patience
    unfold System.runUntilSilent
    dsimp only
    rw [hn, System.awaitSilence_of_not_lingers ho hl]
  · obtain ⟨h, hh, rfl⟩ := View.mem_ids.mp (System.tracks_iff.mp ht)
    have hdone : x.isDone = false := by
      rw [← Bool.not_eq_true, ScriptedInstance.isDone_iff]
      rcases hnot with hr | ⟨hf, hst⟩
      · simp [hr]
      · simp [hf, hst]
    exact System.Lingers.awaitSilence ho ⟨h, hh, x, hx, hdone⟩ transform patience 0

/-- A step that has ended, and was given up when it was posted. -/
theorem waiting_ends_after_step :
    let s := scriptedRun ["Step"] {} [] .empty [.request (.post ⟨1⟩ "Step" false), .event (.finish ⟨1⟩)]
    (∀ i x, s.Tracks (.entity ⟨1⟩) i → s.rig.instance? i = some x →
      x.released = true ∧ (x.finished = true ∨ x.isStopped = true)) ∧
    (s.runUntilSilent ⟨1⟩ .zero none 1).1 = .silent := by
  intro s
  have hover : ∀ i x, s.Tracks (.entity ⟨1⟩) i → s.rig.instance? i = some x →
      x.released = true ∧ (x.finished = true ∨ x.isStopped = true) := by
    intro i x ht hx
    have hids : s.view.ids (.entity ⟨1⟩) = [⟨1⟩] := by decide +kernel
    have hdone : ((s.rig.instance? ⟨1⟩).all ScriptedInstance.isDone) = true := by decide +kernel
    cases List.mem_singleton.mp (hids ▸ System.tracks_iff.mp ht)
    rw [hx] at hdone
    exact ScriptedInstance.isDone_iff.mp hdone
  refine ⟨hover, ?_⟩
  have hends := (waiting_ends_at_once_or_never ["Step"] {} [] .empty
    [.request (.post ⟨1⟩ "Step" false), .event (.finish ⟨1⟩)] ⟨1⟩ .zero).1 hover none 0
  exact congrArg Prod.fst hends

/-- A step that was kept plays no more once it was stopped by its name. It is tracked all the same, and waited for. -/
theorem kept_instance_lingers :
    let turns := [.request (.post ⟨1⟩ "Step" true), .request (.stop ⟨1⟩ "Step" .immediate)]
    let s := scriptedRun ["Step"] {} [] .empty turns
    (∀ i x, s.Tracks (.entity ⟨1⟩) i → s.rig.instance? i = some x → x.finished = true ∨ x.isStopped = true) ∧
    ∀ patience, (s.runUntilSilent ⟨1⟩ .zero none patience).1 = .unfinished := by
  intro turns s
  have hids : s.view.ids (.entity ⟨1⟩) = [⟨1⟩] := by decide +kernel
  have hstopped : ((s.rig.instance? ⟨1⟩).all fun x => x.isStopped && !x.isDone) = true := by decide +kernel
  have hthere : (s.rig.instance? ⟨1⟩).isSome = true := by decide +kernel
  obtain ⟨x, hx⟩ := Option.isSome_iff_exists.mp hthere
  rw [hx, Option.all_some, Bool.and_eq_true, Bool.not_eq_true'] at hstopped
  refine ⟨fun i y ht hy => ?_, fun patience => ?_⟩
  · cases List.mem_singleton.mp (hids ▸ System.tracks_iff.mp ht)
    cases hx.symm.trans hy
    exact .inr hstopped.1
  · obtain ⟨h, hh, hi⟩ := View.mem_ids.mp (hids ▸ List.mem_singleton_self (⟨1⟩ : InstanceId))
    have hl : s.Lingers ⟨1⟩ := ⟨h, hh, x, hi ▸ hx, hstopped.2⟩
    exact hl.awaitSilence (scriptedRun_orderly _ _ _ _ _) _ patience 0

end Soundstage
