import Mathlib.Data.List.Perm.Subperm
import Soundstage.Proofs.Engine.Departures
import Soundstage.Proofs.System.Tables

/-!
# The aftermath of a teardown

The mixing engine keeps an instance until its sound has stopped, so after a teardown instances are left
that nobody tracks. Each of them was given up and told to stop (`Rig.Abandoned`), and no later turn
takes that back. A sound that was told to stop does stop, and the first update after that takes the
instance away, with its binding and its sound (`Conducted.departed_update`). Main statement:
`teardown_complete`.
-/

namespace Soundstage

open Playable Staged Function Backstage

/-- If `i` is there, it was given up, and all that it plays was told to stop. -/
def Rig.Abandoned {E L X S : Type} [Staged E X S] [Playable X S] (r : Rig E L) (i : InstanceId) : Prop :=
  ∀ x, r.instance? i = some x → (status x).released = true ∧ (status x).stopped = true

namespace Rig.Abandoned

theorem fades {E L X S : Type} [Staged E X S] [Playable X S] {r r' : Rig E L} {i : InstanceId}
    (h : r.Abandoned i) (hf : Fades r r') : r'.Abandoned i := by
  intro y hy
  obtain ⟨x, hx, hr, hs⟩ := hf i y hy
  exact ⟨hr (h x hx).1, hs (h x hx).2⟩

variable {E L X S V : Type} [Loader L] [LawfulLoader L] [Engine E L] [Staged E X S] [Playable X S]
  [LawfulEngine E L X S] {i : InstanceId}

theorem move {v w : View E L} {d : Deed} (h : v.rig.Abandoned i) (ho : Orderly v) (hi : i.val ≤ v.rig.issued)
    (hm : Move v d w) : w.rig.Abandoned i := by
  cases hc : d.changesHands with
  | false => exact h.fades (.of_drift (.of_move ho.ledger hm hc))
  | true =>
    cases hm with
    | release hids hw => exact h.fades (Plainly.fades_move ho (.release hids hw) rfl)
    | post _ hp =>
      -- what is posted is another instance
      have he := ho.entered hp
      intro x hx
      have hold : v.rig.instance? i = some x := (he.others i (he.ne_of_le hi)).symm.trans hx
      exact h x hold
    | _ => cases hc

theorem run {happen : V → Rig E L → Rig E L} {s : System E L}
    (hd : ∀ v (r : Rig E L), Ledger r.toBackstage [] → Drift r (happen v r)) (ho : Orderly s.view)
    (hi : i.val ≤ s.rig.issued) (h : s.rig.Abandoned i) (turns : List (Turn V)) :
    (Turn.run happen turns s).rig.Abandoned i := by
  have hrun := ho.run_keeps (P := fun w => i.val ≤ w.rig.issued ∧ w.rig.Abandoned i) hd
    (fun ho hm ⟨hi, h⟩ => ⟨Nat.le_trans hi (Succeeds.move ho hm).issued, h.move ho hi hm⟩)
    (fun e ho ⟨hi, h⟩ => by
      have hdrift := hd e _ ho.ledger
      exact ⟨Nat.le_trans hi (Nat.le_of_eq hdrift.issued.symm), h.fades (.of_drift hdrift)⟩)
    ⟨hi, h⟩ turns
  exact hrun.2

theorem events {happen : V → Rig E L → Rig E L} {s : System E L}
    (hd : ∀ v (r : Rig E L), Ledger r.toBackstage [] → Drift r (happen v r)) (ho : Orderly s.view)
    (h : ∀ i, s.rig.Abandoned i) (events : List V) : ∀ i, (Turn.run happen (events.map .event) s).rig.Abandoned i := by
  induction events generalizing s with
  | nil => exact h
  | cons e rest ih => exact ih (ho.take hd (.event e)) fun i => (h i).fades (.of_drift (hd e _ ho.ledger))

end Rig.Abandoned

namespace System

variable {E L X S : Type} [Loader L] [LawfulLoader L] [Engine E L] [Staged E X S] [Playable X S]
  [LawfulEngine E L X S] {s : System E L} {i : InstanceId}

theorem destroyEntity_abandons (ho : Orderly s.view) {entity : EntityId} (hi : i ∈ s.view.ids (.entity entity)) :
    (s.destroyEntity entity).rig.Abandoned i := by
  have ho' : Orderly (s.destroyEntity entity).view := Request.orderly ho (.destroyEntity entity)
  intro x hx
  rcases ho'.owned hx with ⟨o, hin⟩ | hdone
  · -- whoever tracks it now has tracked it before, and then it was not the entity's
    exfalso
    obtain ⟨g, hg, hgi⟩ := View.mem_ids.mp hin
    have horigin : g.origin ∈ (s.destroyEntity entity).view.origins o := List.mem_map_of_mem hg
    rw [s.origins_destroyEntity] at horigin
    split at horigin
    · cases horigin
    · rename_i hne
      obtain ⟨k, hk, hkg⟩ := List.mem_map.mp horigin
      have hki : k.instanceId = i := (congrArg Handle.instanceId hkg).trans hgi
      exact hne (ho.owner_unique (View.mem_ids.mpr ⟨k, hk, hki⟩) hi)
  · exact hdone

/-- All that a shutdown leaves behind is abandoned, the music included. -/
theorem shutdownIn_abandons (ho : Orderly s.view) (visit : Visit) (i : InstanceId) :
    (s.shutdownIn (visit.order s.emitters.keys)).rig.Abandoned i := by
  obtain ⟨hp, hs⟩ := hushed_plainly ho (Request.mem_order visit)
  have hh := ho.plainly hp
  have hushed : (s.hushed (visit.order s.emitters.keys)).rig.Abandoned i := fun x hx => hh.of_silent hs hx
  have hup := Drift.of_cleared (LawfulEngine.update_cleared (s.hushed (visit.order s.emitters.keys)).rig hh.ledger)
  have hupdated := hushed.fades (.of_drift hup)
  intro x hx
  exact hupdated x hx

end System

/-! ### Sounds that were told to stop -/

namespace Playback

variable {p : Playback}

theorem block_of_isStopping (h : p.isStopping = true) (hs : p.stopped = false) : ∃ f, p.nextFade = some f ∧
    p.block.request = none ∧ p.block.fade = some f ∧ (f.length ≤ f.elapsed → p.block.stopped = true) := by
  have hfade : ∃ f, p.nextFade = some f := by
    unfold isStopping at h
    unfold nextFade
    cases hr : p.request with
    | some length => exact ⟨_, rfl⟩
    | none =>
      rw [hr] at h
      obtain ⟨f, hf⟩ := Option.isSome_iff_exists.mp (show p.fade.isSome = true from h)
      rw [hf]
      exact ⟨_, rfl⟩
  obtain ⟨f, hf⟩ := hfade
  refine ⟨f, hf, ?_, ?_, fun hend => ?_⟩ <;> simp only [block, hs, hf]
  · rfl
  · rfl
  · simp [hend]

theorem stops_of_fade {f : Fade} (hr : p.request = none) (hf : p.fade = some f) :
    ∃ n, (block^[n] p).stopped = true := by
  -- every block takes the fade on, until it has lasted its length
  induction hleft : f.length - f.elapsed using Nat.strongRecOn generalizing p f with
  | ind left ih =>
    cases hs : p.stopped with
    | true => exact ⟨0, hs⟩
    | false =>
      have htold : p.isStopping = true := by simp [isStopping, hf]
      obtain ⟨g, hg, hr', hf', hend⟩ := block_of_isStopping htold hs
      have hnext : g = { f with elapsed := f.elapsed + blockLength } := by
        unfold nextFade at hg
        rw [hr, hf] at hg
        exact (Option.some.inj hg).symm
      by_cases hlasted : g.length ≤ g.elapsed
      · exact ⟨1, hend hlasted⟩
      · have hshorter : g.length - g.elapsed < left := by
          rw [hnext] at hlasted ⊢
          simp only [blockLength] at hlasted ⊢
          omega
        obtain ⟨n, hn⟩ := ih _ hshorter hr' hf' rfl
        exact ⟨n + 1, hn⟩

theorem stops_of_isStopping (h : p.isStopping = true) : ∃ n, (block^[n] p).stopped = true := by
  cases hs : p.stopped with
  | true => exact ⟨0, hs⟩
  | false =>
    obtain ⟨f, -, hr, hf, -⟩ := block_of_isStopping h hs
    obtain ⟨n, hn⟩ := stops_of_fade hr hf
    exact ⟨n + 1, hn⟩

theorem stays_stopped {n m : Nat} (h : (block^[n] p).stopped = true) (hle : n ≤ m) :
    (block^[m] p).stopped = true := by
  obtain ⟨k, rfl⟩ := Nat.exists_eq_add_of_le' hle
  rw [iterate_add_apply, iterate_fixed (block_of_stopped h)]
  exact h

end Playback

namespace MixingInstance

variable {x : MixingInstance}

/-- It was given up, and its sound was told to stop if it has one. -/
structure Leaving (x : MixingInstance) : Prop where
  released : x.released = true
  told : ∀ sound, x.sound = some sound → sound.isStopping = true

theorem leaving_iff : x.Leaving ↔ (status x).released = true ∧ (status x).stopped = true := by
  have hstopped : (status x).stopped = true ↔ ∀ sound, x.sound = some sound → sound.isStopping = true := by
    change x.sound.all (·.isStopping) = true ↔ _
    cases x.sound <;> simp
  rw [hstopped]
  exact ⟨fun h => ⟨h.released, h.told⟩, fun h => ⟨h.1, h.2⟩⟩

theorem isDone_iff : x.isDone = true ↔ x.released = true ∧ x.isFinished = true := Bool.and_eq_true_iff

theorem sound_pass (n : Nat) (x : MixingInstance) : (pass^[n] x).sound = x.sound.map Playback.block^[n] := by
  induction n generalizing x with
  | zero => simp
  | succ n ih =>
    rw [iterate_succ_apply, ih, iterate_succ]
    change (x.sound.map Playback.block).map _ = _
    rw [Option.map_map]

theorem Leaving.finishes (h : x.Leaving) : ∃ n, ∀ m, n ≤ m → (pass^[m] x).isFinished = true := by
  cases hs : x.sound with
  | none =>
    refine ⟨0, fun m _ => ?_⟩
    rw [isFinished, sound_pass, hs]
    rfl
  | some sound =>
    obtain ⟨n, hn⟩ := Playback.stops_of_isStopping (h.told sound hs)
    refine ⟨n, fun m hm => ?_⟩
    rw [isFinished, sound_pass, hs]
    exact Playback.stays_stopped hn hm

theorem finish_together {l : List MixingInstance} (h : ∀ x ∈ l, x.Leaving) :
    ∃ n, ∀ m, n ≤ m → ∀ x ∈ l, (pass^[m] x).isFinished = true := by
  induction l with
  | nil => exact ⟨0, fun _ _ x hx => absurd hx List.not_mem_nil⟩
  | cons x rest ih =>
    obtain ⟨n, hn⟩ := (h x (List.mem_cons_self ..)).finishes
    obtain ⟨k, hk⟩ := ih fun y hy => h y (List.mem_cons_of_mem _ hy)
    refine ⟨max n k, fun m hm y hy => ?_⟩
    rcases List.mem_cons.mp hy with rfl | hy
    · exact hn m (by omega)
    · exact hk m (by omega) y hy

end MixingInstance

theorem MixingEngine.render_finishes {e : MixingEngine} (h : ∀ i x, e.instances.get? i = some x → x.Leaving) :
    ∃ n, ∀ i x, (e.render n).instances.get? i = some x → x.isFinished = true := by
  have hall : ∀ x ∈ e.instances.values, x.Leaving := by
    intro x hx
    obtain ⟨⟨i, _⟩, hm, rfl⟩ := List.mem_map.mp hx
    exact h i _ (Table.mem_entries_iff.mp hm)
  obtain ⟨n, hn⟩ := MixingInstance.finish_together hall
  refine ⟨n, fun i y hy => ?_⟩
  rw [(MixingEvent.render_instances n e).2, Option.map_eq_some_iff] at hy
  obtain ⟨x, hx, rfl⟩ := hy
  exact hn n (Nat.le_refl n) x (List.mem_map_of_mem (Table.mem_entries_iff.mpr hx))

/-! ### The update that takes them away -/

theorem MixingEngine.nodup_done (e : MixingEngine) : e.done.Nodup := Table.nodup_filter e.instances.nodup _

namespace Conducted

variable {streams : InstanceId → Prop} {v : View MixingEngine StreamingLoader}

/-- The bridge serves just those that have a binding. -/
theorem receiver_iff (ho : Orderly v) (hc : Conducted streams v.rig) {i : InstanceId} {x : MixingInstance}
    (hx : v.rig.engine.instances.get? i = some x) : x.receiver = some .bridge ↔ v.rig.binding? i ≠ none := by
  constructor
  · intro hr
    obtain ⟨b, hb, -⟩ := hc.opened hx ((hc.served hx).mp hr)
    simp [hb]
  · intro hb
    obtain ⟨x', hx', hr⟩ := ho.bound hb
    cases hx.symm.trans hx'
    exact hr

theorem departed_destroy (ho : Orderly v) (hc : Conducted streams v.rig) (i : InstanceId) :
    Departed [i] v.rig (MixingEngine.destroy v.rig i) := by
  have hcleared := MixingEngine.destroy_cleared v.rig i ho.ledger
  have ho' : Orderly (v.withRig (MixingEngine.destroy v.rig i)) := ho.drift (.of_cleared hcleared)
  have hgone : (MixingEngine.destroy v.rig i).binding? i = none := by
    refine Classical.byContradiction fun hb => ?_
    obtain ⟨x, hx, -⟩ := ho'.bound hb
    cases (hcleared.taken i rfl).symm.trans hx
  cases hx : v.rig.engine.instances.get? i with
  | none =>
    have hb : v.rig.binding? i = none := by rwa [MixingEngine.destroy_absent hx] at hgone
    refine .single ho.ledger hcleared.instance?_eq hgone ?_ ?_ ?_ <;> rw [MixingEngine.destroy_absent hx]
    · rw [owed, hb]
      exact .refl i _
    · rw [hb]
      rfl
    · rw [hb]
      rfl
  | some x =>
    obtain ⟨hheard, hfreed, hloader⟩ := heard_parting ho.ledger (receiver_iff ho hc hx) (hc.sound hx)
    have hbackstage := MixingEngine.backstage_destroy hx
    refine .single ho.ledger hcleared.instance?_eq hgone ?_ ?_ ?_
    · rw [hbackstage]
      exact hheard.say .trace _ (by decide)
    · rw [hbackstage]
      exact hfreed
    · rw [hbackstage]
      exact hloader

theorem departed_destroyAll (ho : Orderly v) (hc : Conducted streams v.rig) {ids : List InstanceId}
    (hids : ids.Nodup) : Departed ids v.rig (MixingEngine.destroyAll v.rig ids) := by
  refine .foldl (P := fun r => Orderly (v.withRig r) ∧ Conducted streams r) ?_ hids ⟨ho, hc⟩
  intro r i ⟨ho, hc⟩
  have hcleared := MixingEngine.destroy_cleared r i ho.ledger
  exact ⟨departed_destroy ho hc i, ho.drift (.of_cleared hcleared), (hc.destroy ho.ledger i).1⟩

theorem departed_update (ho : Orderly v) (hc : Conducted streams v.rig) :
    Departed v.rig.engine.done v.rig (MixingEngine.update v.rig) :=
  departed_destroyAll ho hc v.rig.engine.nodup_done

end Conducted

theorem Backstage.countP_bound {L : Type} {s : Backstage L} {ids : List InstanceId} (hids : ids.Nodup)
    (hall : ∀ i, s.binding? i ≠ none → i ∈ ids) : (ids.countP fun i => (s.binding? i).isSome) = s.boundCount := by
  have hperm : (ids.filter fun i => (s.binding? i).isSome).Perm s.bridge.table.keys := by
    refine (List.perm_ext_iff_of_nodup (hids.filter _) s.bridge.table.nodup).mpr fun i => ?_
    have hkey : i ∈ s.bridge.table.keys ↔ s.binding? i ≠ none := by
      rw [← not_iff_not, not_not]
      exact Table.get?_eq_none_iff.symm
    change _ ↔ i ∈ s.bridge.table.keys
    rw [List.mem_filter, hkey, Option.isSome_iff_ne_none]
    exact and_iff_right_of_imp (hall i)
  rw [List.countP_eq_length_filter, hperm.length_eq]
  exact List.length_map ..

/-- An update that finds every instance done leaves nothing. -/
theorem Conducted.update_vacates {streams : InstanceId → Prop} {v : View MixingEngine StreamingLoader}
    (ho : Orderly v) (hc : Conducted streams v.rig)
    (hall : ∀ i x, v.rig.engine.instances.get? i = some x → x.isDone = true) :
    let r' := MixingEngine.update v.rig
    r'.engine.instances.size = 0 ∧ r'.boundCount = 0 ∧ r'.loader.sounds.size = 0 ∧
      r'.bridge.freed = v.rig.bridge.freed + v.rig.boundCount := by
  intro r'
  have hd := Conducted.departed_update ho hc
  have hdone : ∀ i x, v.rig.engine.instances.get? i = some x → i ∈ v.rig.engine.done := fun i x hx =>
    (v.rig.engine.mem_done_iff i).mpr ⟨x, hx, hall i x hx⟩
  have ho' : Orderly (v.withRig r') := ho.drift (.of_cleared (LawfulEngine.update_cleared v.rig ho.ledger))
  have hn : ∀ i, r'.instance? i = none := by
    intro i
    rw [hd.instances]
    split
    · rfl
    · rename_i hout
      refine Option.eq_none_iff_forall_not_mem.mpr fun x hx => hout (hdone i x hx)
  obtain ⟨hb, hl⟩ := ho'.vacant hn
  refine ⟨Table.size_eq_zero_iff.mpr hn, Table.size_eq_zero_iff.mpr hb,
    Table.size_eq_zero_iff.mpr fun x => Classical.byContradiction fun hx => hl x hx, ?_⟩
  rw [hd.freed, Backstage.countP_bound v.rig.engine.nodup_done]
  intro i hb
  obtain ⟨x, hx, -⟩ := ho.bound hb
  exact hdone i x hx

/-! ### Runs -/

/-- What holds of instances that were given up after each turn of a run of the mixing engine. -/
structure Aftermath (run : List (Turn MixingEvent) → System MixingEngine StreamingLoader)
    (turns : List (Turn MixingEvent)) : Prop where
  owned : ∀ {i x}, (run turns).rig.engine.instances.get? i = some x → (∃! o, (run turns).Tracks o i) ∨ x.Leaving
  destroyed : ∀ {entity i x}, (run turns).Tracks (.entity entity) i →
    (run (turns ++ [.request (.destroyEntity entity)])).rig.engine.instances.get? i = some x → x.Leaving
  shut : ∀ {visit i x}, (run (turns ++ [.request (.shutdown visit)])).rig.engine.instances.get? i = some x → x.Leaving
  /-- Nothing takes it back that an instance was given up and told to stop. -/
  lasting : ∀ {i x}, (run turns).rig.engine.instances.get? i = some x → x.Leaving → ∀ after {y},
    (run (turns ++ after)).rig.engine.instances.get? i = some y → y.Leaving
  /-- An update takes away each instance that was given up and has finished, and nothing else. -/
  done : ∀ i, i ∈ (run turns).rig.engine.done ↔ ∃ x, (run turns).rig.engine.instances.get? i = some x ∧
    x.released = true ∧ x.isFinished = true
  once : (run turns).rig.engine.done.Nodup
  departed : Departed (run turns).rig.engine.done (run turns).rig (MixingEngine.update (run turns).rig)
  /-- After a shutdown time takes all sounds to their end, and then one update empties the engine. -/
  ending : ∀ visit (events : List MixingEvent),
    let r := (run (turns ++ .request (.shutdown visit) :: events.map .event)).rig
    ∃ n, ∀ i x, (r.engine.render n).instances.get? i = some x → x.isFinished = true
  emptied : ∀ visit (events : List MixingEvent),
    let r := (run (turns ++ .request (.shutdown visit) :: events.map .event)).rig
    (∀ i x, r.engine.instances.get? i = some x → x.isFinished = true) → let r' := MixingEngine.update r
    r'.engine.instances.size = 0 ∧ r'.boundCount = 0 ∧ r'.loader.sounds.size = 0 ∧
      r'.bridge.freed = r.bridge.freed + r.boundCount

/-- No teardown of a system with the mixing engine leaves anything behind for good. -/
theorem teardown_complete (own : Config) (device : Option Device) (config : Config) (disk : Disk)
    (turns : List (Turn MixingEvent)) : Aftermath (mixingRun own device config disk) turns := by
  have ho : ∀ turns, Orderly (mixingRun own device config disk turns).view := mixingRun_orderly own device config disk
  have hrun : ∀ before after, mixingRun own device config disk (before ++ after) =
      Turn.run MixingEvent.happen after (mixingRun own device config disk before) := fun before after =>
    Turn.run_append MixingEvent.happen before after _
  generalize hr : mixingRun own device config disk = run at ho hrun
  have hc : ∀ turns, Conducted (Streamed run turns) (run turns).rig := hr ▸ mixingRun_conducted own device config disk
  have leaving : ∀ {r : Rig MixingEngine StreamingLoader} {i x}, r.Abandoned i →
      r.engine.instances.get? i = some x → x.Leaving := fun h hx => MixingInstance.leaving_iff.mpr (h _ hx)
  -- after a shutdown all that is left is leaving, whatever happens to the engine
  have shut : ∀ visit (events : List MixingEvent) {i x},
      (run (turns ++ .request (.shutdown visit) :: events.map .event)).rig.engine.instances.get? i = some x →
        x.Leaving := by
    intro visit events i x hx
    have hs := System.shutdownIn_abandons (ho turns) visit
    have ho' := Request.orderly (ho turns) (.shutdown visit)
    have hevents := Rig.Abandoned.events MixingEvent.drift ho' hs events i
    rw [hrun] at hx
    exact leaving hevents hx
  refine ⟨fun hx => ?_, fun {entity i x} ht hx => ?_, fun {visit i x} hx => shut visit [] hx,
    fun {i x} hx hl after y hy => ?_, fun i => ?_, (run turns).rig.engine.nodup_done,
    Conducted.departed_update (ho turns) (hc turns), fun visit events => ?_, fun visit events => ?_⟩
  · exact ((ho turns).sole_owner hx).imp_right MixingInstance.leaving_iff.mpr
  · rw [hrun] at hx
    exact leaving (System.destroyEntity_abandons (ho turns) (System.tracks_iff.mp ht)) hx
  · have hissued : i.val ≤ (run turns).rig.issued := (ho turns).issued (Option.ne_none_iff_exists'.mpr ⟨x, hx⟩)
    have habandoned : (run turns).rig.Abandoned i := fun x' hx' => by
      cases hx.symm.trans hx'
      exact MixingInstance.leaving_iff.mp hl
    rw [hrun] at hy
    exact leaving (habandoned.run MixingEvent.drift (ho turns) hissued after) hy
  · rw [MixingEngine.mem_done_iff]
    simp only [MixingInstance.isDone_iff]
  · exact MixingEngine.render_finishes fun i x hx => shut visit events hx
  · intro r hfinished
    refine Conducted.update_vacates (ho _) (hc _) fun i x hx => ?_
    exact MixingInstance.isDone_iff.mpr ⟨(shut visit events hx).released, hfinished i x hx⟩

end Soundstage
