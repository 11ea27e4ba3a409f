import Soundstage.Proofs.System.Origins
import Soundstage.Proofs.System.Teardown

/-!
# Isolation

All entities share one engine and one bridge, and handles are matched by the number of an instance.
`Confined ids` says that a rig was touched nowhere but at the instances in `ids` and at new ones, and
every operation of an emitter is confined to what the emitter tracks. As no two owners track one
instance, what a request does for its addressee (`Request.addressee?`) is private to that owner:
`owners_isolated`.
-/

namespace Soundstage

open Playable Staged Function

/-- Of the instances that there were, none outside `ids` was touched, nor was its binding. -/
structure Confined {E L X S : Type} [Staged E X S] (ids : List InstanceId) (r r' : Rig E L) : Prop where
  issued : r.issued ≤ r'.issued
  instances : ∀ j, j ∉ ids → j.val ≤ r.issued → r'.instance? j = r.instance? j
  bindings : ∀ j, j ∉ ids → j.val ≤ r.issued → r'.binding? j = r.binding? j

namespace Confined

section

variable {E L X S : Type} [Staged E X S] {ids few : List InstanceId} {r r' r'' : Rig E L}

theorem refl (ids : List InstanceId) (r : Rig E L) : Confined ids r r :=
  ⟨Nat.le_refl _, fun _ _ _ => rfl, fun _ _ _ => rfl⟩

theorem trans (h : Confined ids r r') (h' : Confined ids r' r'') : Confined ids r r'' := by
  refine ⟨Nat.le_trans h.issued h'.issued, fun j hj hle => ?_, fun j hj hle => ?_⟩
  · rw [h'.instances j hj (Nat.le_trans hle h.issued), h.instances j hj hle]
  · rw [h'.bindings j hj (Nat.le_trans hle h.issued), h.bindings j hj hle]

theorem of_wrote {g : X → X} (hw : Wrote (onEach few g) r r') (hsub : few ⊆ ids) : Confined ids r r' :=
  ⟨Nat.le_of_eq hw.issued.symm, fun _ hj _ => hw.others fun hm => hj (hsub hm), fun j _ _ => hw.binding? j⟩

theorem calm (hw : Wrote (fun _ x => x) r r') : Confined ids r r' := by
  refine ⟨Nat.le_of_eq hw.issued.symm, fun j _ _ => ?_, fun j _ _ => hw.binding? j⟩
  rw [hw.instances]
  exact Option.map_id'

end

/-! ### What an emitter does -/

variable {E L X S : Type} [Loader L] [LawfulLoader L] [Engine E L] [Staged E X S] [Playable X S]
  [LawfulEngine E L X S] {v : View E L} {o : Owner} {em : Emitter}

theorem play (h : Orderly v) (em : Emitter) (c : Cue) (ids : List InstanceId) :
    Confined ids v.rig (em.play c v.rig).2.2 := by
  rcases em.play_cases c v.rig with ⟨r', hp, hw⟩ | ⟨i, r₀, made, begun, r', hw, hp, hposted⟩ <;> rw [hp]
  · exact .calm hw
  have h₀ : Orderly (v.withRig r₀) := h.move (.calm hw)
  have he := h₀.entered hposted
  -- what is posted is none of the instances that there were
  refine (Confined.calm hw).trans
    ⟨?_, fun j _ hle => he.others j (he.ne_of_le hle), fun j _ hle => he.kept j (he.ne_of_le hle)⟩
  rw [he.issued]
  exact Nat.le_succ _

theorem setFloat (h : Orderly v) (hv : v.Reads o em) (name : String) (value : Float32) :
    Confined (v.ids o) v.rig (em.setFloat name value v.rig).2 :=
  .of_wrote (em.setFloat_wrote name value (hv.ids ▸ h.nodup o) v.rig) (hv.ids ▸ List.Subset.refl _)

theorem setLabel (h : Orderly v) (hv : v.Reads o em) (name label : String) :
    Confined (v.ids o) v.rig (em.setLabel name label v.rig).2 :=
  .of_wrote (em.setLabel_wrote name label (hv.ids ▸ h.nodup o) v.rig) (hv.ids ▸ List.Subset.refl _)

theorem stop (hv : v.Reads o em) (event : String) (mode : StopMode) :
    Confined (v.ids o) v.rig (em.stop event mode v.rig).2 := by
  obtain ⟨hs, hsub, -, hw⟩ := em.stop_wrote event mode v.rig
  refine .of_wrote hw ?_
  rw [hv.ids]
  exact List.map_subset _ hsub

theorem stopAll (h : Orderly v) (hv : v.Reads o em) (mode : StopMode) :
    Confined (v.ids o) v.rig (em.stopAll mode v.rig).2 :=
  .of_wrote (em.stopAll_wrote mode (hv.ids ▸ h.nodup o) v.rig) (hv.ids ▸ List.Subset.refl _)

theorem releaseKept (h : Orderly v) (hv : v.Reads o em) :
    Confined (v.ids o) v.rig (em.releaseKept v.rig).2.2 := by
  obtain ⟨hw, -⟩ := em.releaseKept_spec (hv.ids ▸ h.nodup o) v.rig
  refine .of_wrote hw ?_
  rw [hv.ids]
  exact (Emitter.kept_sublist em.handles v.rig).subset

theorem quiet (h : Orderly v) (hv : v.Reads o em) : Confined (v.ids o) v.rig (System.quiet em v.rig).2 := by
  have hstop := stopAll h hv .immediate
  have hv' : (v.put o em (em.stopAll .immediate v.rig).2).Reads o em := View.reads_put
  have hgive := releaseKept (h.plainly (Plainly.stopAll h hv .immediate)) hv'
  rw [hv'.ids, ← hv.ids] at hgive
  exact hstop.trans hgive

theorem stopHandle (h : Orderly v) (hv : v.Reads o em) (handle : Handle) (mode : StopMode) :
    Confined (v.ids o) v.rig (em.stopHandle handle mode v.rig).2.2 := by
  -- only a handle of the emitter's own is stopped, whosever `handle` is
  have hown : ∀ {g : Handle}, g ∈ em.handles → g.instanceId = handle.instanceId →
      [handle.instanceId] ⊆ v.ids o := by
    intro g hg hi
    rw [hv.ids, ← hi]
    exact List.cons_subset.mpr ⟨List.mem_map_of_mem hg, List.nil_subset _⟩
  have hs := Emitter.stopHandle_stopped (hv.ids ▸ h.nodup o) handle mode v.rig
  generalize em.stopHandle handle mode v.rig = c at hs ⊢
  cases hs with
  | nothing => exact .refl _ _
  | stopped hg hi _ _ hw => exact .of_wrote hw (hown hg hi)
  | released hg hi _ _ hw hw' => exact (Confined.of_wrote hw (hown hg hi)).trans (.of_wrote hw' (hown hg hi))

theorem stopMusicEach (mode : StopMode) (hs : List Handle) (h : Orderly v) (hv : v.Reads .music em) :
    Confined (v.ids .music) v.rig (System.stopMusicEach mode hs em v.rig).2.2 := by
  induction hs generalizing v em with
  | nil => exact .refl _ _
  | cons g rest ih =>
    have hfirst := stopHandle h hv g mode
    have hrest := ih (h.plainly (Plainly.stopHandle h hv g mode)) View.reads_put
    rw [View.ids_of_origins (View.origins_put_same hv (em.origins_stopHandle g mode v.rig))] at hrest
    exact hfirst.trans hrest

end Confined

/-! ### What a request does -/

/-- What became of the system is the business of `o` alone. -/
structure System.Private {E L X S : Type} [Staged E X S] (o : Owner) (s s' : System E L) : Prop where
  others : ∀ p, p ≠ o → s'.emitterOf p = s.emitterOf p
  rig : Confined (s.view.ids o) s.rig s'.rig

namespace System.Private

section

variable {E L X S : Type} [Staged E X S] {o : Owner} {s s' s'' : System E L}

theorem refl (o : Owner) (s : System E L) : Private o s s := ⟨fun _ _ => rfl, .refl _ _⟩

theorem trans (h : Private o s s') (h' : Private o s' s'') (hids : s'.view.ids = s.view.ids) : Private o s s'' := by
  refine ⟨fun p hp => (h'.others p hp).trans (h.others p hp), h.rig.trans ?_⟩
  rw [← hids]
  exact h'.rig

theorem of_rig {r : Rig E L} (h : Confined (s.view.ids o) s.rig r) : Private o s { s with rig := r } := by
  refine ⟨fun p _ => ?_, h⟩
  cases p <;> rfl

theorem of_withEmitter {entity : EntityId} {em : Emitter} {r : Rig E L}
    (h : Confined (s.view.ids (.entity entity)) s.rig r) :
    Private (.entity entity) s ({ s with rig := r }.withEmitter em entity) := by
  refine ⟨fun p hp => ?_, h⟩
  rw [emitterOf_withEmitter, if_neg hp]
  cases p <;> rfl

theorem of_music {em : Emitter} {r : Rig E L} (h : Confined (s.view.ids .music) s.rig r) :
    Private .music s { s with rig := r, music := em } := by
  refine ⟨fun p hp => ?_, h⟩
  cases p with
  | entity e => rfl
  | music => exact absurd rfl hp

theorem resolve (s : System E L) (entity : EntityId) : Private (.entity entity) s (s.resolve entity).2 := by
  unfold System.resolve
  split
  · exact .refl _ s
  · exact of_withEmitter (.calm (.say s.rig .debug _ (by decide)))

end

variable {E L X S : Type} [Loader L] [LawfulLoader L] [Engine E L] [Staged E X S] [Playable X S]
  [LawfulEngine E L X S] {s : System E L} {entity : EntityId}

theorem address {α : Type} (h : Orderly s.view) (act : Emitter → Rig E L → α × Emitter × Rig E L)
    (hact : ∀ {v : View E L} {em}, Orderly v → v.Reads (.entity entity) em →
      Confined (v.ids (.entity entity)) v.rig (act em v.rig).2.2) :
    Private (.entity entity) s (s.address entity act).2 := by
  have ho := h.plainly (s.resolve_plainly entity)
  have hacted : Private (.entity entity) (s.resolve entity).2 (s.address entity act).2 :=
    of_withEmitter (hact ho (s.reads_resolve entity))
  exact (resolve s entity).trans hacted (View.ids_of_origins (s.origins_resolve entity))

theorem stop (s : System E L) (entity : EntityId) (event : String) (mode : StopMode) :
    Private (.entity entity) s (s.stop entity event mode).2 := by
  unfold System.stop
  cases he : s.emitter? entity with
  | none => exact .refl _ s
  | some em => exact of_rig (.stop (reads_emitter he) event mode)

theorem stopHandle (h : Orderly s.view) (entity : EntityId) (handle : Handle) (mode : StopMode) :
    Private (.entity entity) s (s.stopHandle entity handle mode).2 := by
  unfold System.stopHandle
  cases he : s.emitter? entity with
  | none => exact .refl _ s
  | some em => exact of_withEmitter (.stopHandle h (reads_emitter he) handle mode)

theorem stopAll (h : Orderly s.view) (entity : EntityId) (mode : StopMode) :
    Private (.entity entity) s (s.stopAll entity mode).2 := by
  unfold System.stopAll
  cases he : s.emitter? entity with
  | none => exact .refl _ s
  | some em => exact of_rig (.stopAll h (reads_emitter he) mode)

theorem destroyEntity (h : Orderly s.view) (entity : EntityId) :
    Private (.entity entity) s (s.destroyEntity entity) := by
  unfold System.destroyEntity
  cases he : s.emitter? entity with
  | none => exact .refl _ s
  | some em =>
    have hquiet := Confined.quiet h (reads_emitter he)
    refine ⟨fun p hp => ?_, hquiet.trans (.calm (.say _ .debug _ (by decide)))⟩
    cases p with
    | entity e => exact Table.get?_erase_of_ne _ fun he => hp (congrArg _ he)
    | music => rfl

theorem stopMusic (h : Orderly s.view) (mode : StopMode) : Private .music s (s.stopMusic mode).2 :=
  of_music (.stopMusicEach mode s.music.handles h (reads_music s))

theorem playMusic (h : Orderly s.view) (file : Path) : Private .music s (s.playMusic file).2 := by
  have hstop := stopMusic h .allowFadeOut
  have ho := h.plainly (stopMusic_plainly h .allowFadeOut)
  have hids := View.ids_of_origins (s.origins_stopMusic .allowFadeOut)
  unfold System.playMusic
  generalize s.stopMusic .allowFadeOut = c at hstop ho hids ⊢
  obtain ⟨n, s'⟩ := c
  exact hstop.trans (of_music (.play ho _ ⟨s'.config.template true, some file, true⟩ _)) hids

end System.Private

namespace Request

/-- Whose business a request is. The listener and the frames are everybody's. -/
def addressee? : Request → Option Owner
  | resolve entity | post entity .. | postFile entity .. | postCustom entity .. | postVoice entity _
  | setVoice entity _ | setPosition entity _ | setFloat entity .. | setLabel entity .. | stop entity ..
  | stopHandle entity .. | stopAll entity _ | destroyEntity entity => some (.entity entity)
  | playMusic _ | stopMusic _ => some .music
  | setListener _ | setListenerPosition _ | tick .. | shutdown _ => none

theorem is_private {E L X S : Type} [Loader L] [LawfulLoader L] [Engine E L] [Staged E X S] [Playable X S]
    [LawfulEngine E L X S] {s : System E L} (h : Orderly s.view) {q : Request} {o : Owner}
    (hq : q.addressee? = some o) : s.Private o (q.perform s).2 := by
  cases q <;> cases hq
  case resolve entity => exact .resolve s entity
  case post entity event keep => exact .address h _ fun ho _ => .play ho _ ⟨event, none, keep⟩ _
  case postFile entity template file keep => exact .address h _ fun ho _ => .play ho _ ⟨template, some file, keep⟩ _
  case postCustom entity file looping keep =>
    exact .address h _ fun ho _ => .play ho _ ⟨s.config.template looping, some file, keep⟩ _
  case postVoice entity key =>
    exact .address h _ fun {_ em} ho _ => .play ho _ ⟨em.voice.event s.config.voiceBank key, none, false⟩ _
  case setVoice entity voice => exact .address h (fun em r => ((), em.setVoice voice, r)) fun _ _ => .refl _ _
  case setPosition entity position =>
    exact .address h (fun em r => ((), em.setPosition position, r)) fun _ _ => .refl _ _
  case setFloat entity name value =>
    exact .address h (fun em r => ((), em.setFloat name value r)) fun ho hv => .setFloat ho hv name value
  case setLabel entity name label =>
    exact .address h (fun em r => ((), em.setLabel name label r)) fun ho hv => .setLabel ho hv name label
  case stop entity event mode => exact .stop s entity event mode
  case stopHandle entity handle mode => exact .stopHandle h entity handle mode
  case stopAll entity mode => exact .stopAll h entity mode
  case destroyEntity entity => exact .destroyEntity h entity
  case playMusic file => exact .playMusic h file
  case stopMusic mode => exact .stopMusic h mode

end Request

theorem System.Private.spared {E L X S : Type} [Loader L] [LawfulLoader L] [Staged E X S] [Playable X S]
    {s s' : System E L} {o p : Owner} (h : s.Private o s') (ho : Orderly s.view) (hp : p ≠ o) {i : InstanceId}
    (hi : s.Tracks p i) : s'.rig.instance? i = s.rig.instance? i ∧ s'.rig.binding? i = s.rig.binding? i := by
  rw [System.tracks_iff] at hi
  have hout : i ∉ s.view.ids o := fun hm => hp (ho.owner_unique hi hm)
  exact ⟨h.rig.instances i hout (ho.le_issued hi), h.rig.bindings i hout (ho.le_issued hi)⟩

/-- Owners are isolated. In every state that a run can reach, a request to one owner, be it an entity or
the music, leaves all others as they are: their emitters, the instances that they track and the bindings
of those. That the request names a handle of another's makes no difference, nor does the id of the entity. -/
theorem owners_isolated (events : List String) (config : Config) (files : List Path) (disk : Disk)
    (turns : List (Turn ScriptedEvent)) (q : Request) (o p : Owner) (hq : q.addressee? = some o) (hp : p ≠ o) :
    let s := scriptedRun events config files disk turns
    let s' := (q.perform s).2
    s'.emitterOf p = s.emitterOf p ∧ ∀ i, s.Tracks p i →
      s'.rig.engine.instances.get? i = s.rig.engine.instances.get? i ∧ s'.rig.binding? i = s.rig.binding? i := by
  intro s s'
  have ho : Orderly s.view := scriptedRun_orderly events config files disk turns
  have hprivate : s.Private o s' := Request.is_private ho hq
  exact ⟨hprivate.others p hp, fun i hi => hprivate.spared ho hp hi⟩

/-- The entity 0 cannot stop the music by its handle. -/
theorem owners_isolated_foreign_handle :
    let turns := [.request (.playMusic ⟨"a.wav"⟩), .request (.post ⟨0⟩ "Step" true)]
    let s := scriptedRun ["Step", ({} : Config).template true] {} [⟨"a.wav"⟩] .empty turns
    let q : Request := .stopHandle ⟨0⟩ ⟨⟨1⟩, ({} : Config).template true, true, false⟩ .immediate
    q.addressee? = some (.entity ⟨0⟩) ∧ Owner.music ≠ .entity ⟨0⟩ ∧ s.Tracks .music ⟨1⟩ ∧
      (s.rig.binding? ⟨1⟩).isSome ∧ (s.rig.engine.instances.get? ⟨1⟩).isSome ∧
      (q.perform s).2.rig.engine.instances.get? ⟨1⟩ = s.rig.engine.instances.get? ⟨1⟩ := by
  intro turns s q
  have htracks : s.Tracks .music ⟨1⟩ := by
    rw [System.tracks_iff]
    decide +kernel
  have h := owners_isolated ["Step", ({} : Config).template true] {} [⟨"a.wav"⟩] .empty turns q (.entity ⟨0⟩) .music
    rfl nofun
  exact ⟨rfl, nofun, htracks, by decide +kernel, by decide +kernel, (h.2 ⟨1⟩ htracks).1⟩

end Soundstage
