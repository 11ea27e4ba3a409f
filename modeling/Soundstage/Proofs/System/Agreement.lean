import Soundstage.Proofs.Engine.Tuning
import Soundstage.Proofs.System.Conduct

/-!
# Instances of one emitter agree

Whenever they were posted, the instances that an emitter of the mixing engine tracks are tuned to what
it remembers, so that any two of them have the same extra parameters, and the same volume and pitch
as long as no two spellings of those are in use. With two spellings they may differ: the
instances that were there heard the one that was set last, a later one hears the one that comes
last in the order of bytes (`spellings_disagree`).
-/

namespace Soundstage

open Playable Staged Function

open MixingInstance (folded)

/-- At most one name that the engine reads as `key` has a value. -/
def Params.SpelledOnce (p : Params) (key : String) : Prop :=
  ∀ a b, folded a = key → folded b = key → p.float? a ≠ none → p.float? b ≠ none → a = b

theorem Params.float?_setFloat (p : Params) (name : String) (value : Float32) :
    (p.setFloat name value).float? = fun n => if n = name then some value else p.float? n := by
  funext n
  unfold float? setFloat
  by_cases hn : n = name
  · rw [hn, NameMap.get?_insert_self, if_pos rfl]
  · rw [NameMap.get?_insert_of_ne _ _ hn, if_neg hn]

/-- What owners track is tuned to what they remember. -/
def Attuned (v : View MixingEngine StreamingLoader) : Prop :=
  ∀ o i x, i ∈ v.ids o → v.rig.instance? i = some x → Tuned (v.params o).float? x

namespace Attuned

variable {v w : View MixingEngine StreamingLoader} {r : Rig MixingEngine StreamingLoader} {d : Deed}

/-- Instances were rewritten without a change to how they are tuned. -/
theorem wrote {f : InstanceId → MixingInstance → MixingInstance} (h : Attuned v) (hw : Wrote f v.rig r)
    (hf : ∀ i x look, Tuned look x → Tuned look (f i x)) : Attuned (v.withRig r) := by
  intro o i y hi hy
  obtain ⟨x, hx, rfl⟩ := hw.source hy
  exact hf i x _ (h o i x hi hx)

theorem wrote_onEach {ids : List InstanceId} {g : MixingInstance → MixingInstance} (h : Attuned v)
    (hw : Wrote (onEach ids g) v.rig r) (hg : ∀ x look, Tuned look x → Tuned look (g x)) : Attuned (v.withRig r) := by
  refine h.wrote hw fun i x look hx => ?_
  unfold onEach
  split
  · exact hg x look hx
  · exact hx

/-- Handles that were there before may be marked or dropped. -/
theorem withHandles {o : Owner} {hs : List Handle} (h : Attuned v) (hsub : ∀ g ∈ hs, g.instanceId ∈ v.ids o) :
    Attuned (v.withHandles o hs) :=
  fun p i x hi hx => h p i x (View.mem_ids_of_withHandles hsub hi) hx

theorem setFloat {o : Owner} {name : String} {value : Float32} (ho : Orderly v) (h : Attuned v)
    (hw : Wrote (onEach (v.ids o) (Playable.setFloat name value)) v.rig r) :
    Attuned ((v.withRig r).withParams o ((v.params o).setFloat name value)) := by
  intro p i y hi hy
  replace hi : i ∈ v.ids p := hi
  obtain ⟨x, hx, rfl⟩ := hw.source hy
  have htuned := h p i x hi hx
  by_cases hp : p = o
  · subst hp
    rw [onEach_of_mem hi, show View.params _ p = (v.params p).setFloat name value from update_self ..,
      Params.float?_setFloat]
    exact htuned.setFloat name value
  · rw [onEach_of_not_mem fun hm => hp (ho.owner_unique hi hm), show View.params _ p = v.params p from update_of_ne hp ..]
    exact htuned

theorem setLabel {o : Owner} {name label : String} (h : Attuned v)
    (hw : Wrote (onEach (v.ids o) (Playable.setLabel name label)) v.rig r) :
    Attuned ((v.withRig r).withParams o ((v.params o).setLabel name label)) := by
  have hr := h.wrote_onEach hw fun x look hx => hx.congr rfl rfl rfl
  intro p i y hi hy
  have htuned := hr p i y hi hy
  by_cases hp : p = o
  · subst hp
    rw [show View.params _ p = (v.params p).setLabel name label from update_self ..]
    exact htuned
  · rw [show View.params _ p = v.params p from update_of_ne hp ..]
    exact htuned

/-- An instance that is posted is told all that its emitter remembers. -/
theorem post {o : Owner} {em : Emitter} {c : Cue} {k : InstanceId} (ho : Orderly v) (h : Attuned v)
    (hp : em.params = v.params o) (he : em.Entered c k v.rig r) :
    Attuned ((v.withRig r).withHandles o (v.handles o ++ [c.handle k])) := by
  intro p i y hi hy
  rcases View.mem_ids_concat.mp hi with hi | ⟨rfl, rfl⟩
  · have hik : i ≠ k := by
      intro e
      have hle : i.val ≤ v.rig.issued := ho.le_issued hi
      rw [e, he.id] at hle
      dsimp only at hle
      omega
    exact h p i y hi ((he.others i hik).symm.trans hy)
  · obtain ⟨x, hbegun, hown⟩ := he.own
    cases hown.symm.trans hy
    have hdressed : Tuned (v.params p).float? (em.dressed v.rig.setting c) := by
      rw [← hp]
      have hbare : Tuned (fun _ => none) (Playable.place em.attributes
          (receive (c.receiver em.entity) (fresh v.rig.setting c.event))) :=
        (Tuned.fresh v.rig.setting c.event).congr rfl rfl rfl
      exact hbare.dress em.params
    have hx := hdressed.begun hbegun
    split
    · exact hx
    · exact hx.congr rfl rfl rfl

theorem move (ho : Orderly v) (hm : Move v d w) (h : Attuned v) : Attuned w := by
  cases hm with
  | calm hw => exact h.wrote hw fun _ _ _ hx => hx
  | stop _ hw => exact h.wrote_onEach hw fun _ _ hx => hx.congr rfl rfl rfl
  | place hw => exact h.wrote_onEach hw fun _ _ hx => hx.congr rfl rfl rfl
  | setFloat hw => exact h.setFloat ho hw
  | setLabel hw => exact h.setLabel hw
  | @release r o ids _ hw =>
    refine (h.wrote_onEach hw fun _ _ hx => hx.congr rfl rfl rfl).withHandles fun g hg => ?_
    obtain ⟨k, hk, rfl⟩ := List.mem_map.mp hg
    exact View.mem_ids.mpr ⟨k, hk, (Handle.instanceId_mark ids k).symm⟩
  | reap => exact h.withHandles fun g hg => View.mem_ids.mpr ⟨g, List.mem_of_mem_filter hg, rfl⟩
  | forget _ =>
    intro o i x hi hx
    obtain ⟨hi', hp⟩ := View.mem_ids_of_without hi
    rw [hp]
    exact h o i x hi' hx
  | post hp hw => exact post ho h hp (ho.entered hw)
  | update => exact fun o i x hi hx => h o i x hi ((LawfulEngine.update_cleared v.rig ho.ledger).present hx)

theorem event (h : Attuned v) (e : MixingEvent) : Attuned (v.withRig (e.happen v.rig)) := by
  intro o i y hi hy
  obtain ⟨-, ⟨f, hinst, hf⟩, -⟩ := e.befell v.rig
  obtain ⟨x, hx, rfl⟩ := Option.map_eq_some_iff.mp ((hinst i).symm.trans hy)
  exact (h o i x hi hx).playsOn (hf i x)

theorem run (own : Config) (device : Option Device) (config : Config) (disk : Disk)
    (turns : List (Turn MixingEvent)) : Attuned (mixingRun own device config disk turns).view := by
  exact (mixingRun_orderly own device config disk []).run_keeps MixingEvent.drift move (fun e _ h => h.event e)
    (fun o i x hi hx => by cases hx) turns

end Attuned

/-- Whenever they were posted, the instances of one emitter that are there have the same extra
parameters. They have the same volume, if the emitter remembers at most one spelling of it, and
likewise the same pitch. -/
theorem parameters_shared (own : Config) (device : Option Device) (config : Config) (disk : Disk)
    (turns : List (Turn MixingEvent)) : let s := mixingRun own device config disk turns
    ∀ o em g h x y, s.emitterOf o = some em → g ∈ em.handles → h ∈ em.handles →
      s.rig.engine.instances.get? g.instanceId = some x → s.rig.engine.instances.get? h.instanceId = some y →
      (∀ name, x.extra.get? name = y.extra.get? name) ∧
      (em.params.SpelledOnce "volume" → x.volume = y.volume) ∧
      (em.params.SpelledOnce "pitch" → x.pitch = y.pitch) := by
  intro s o em g h x y hem hg hh hx hy
  have hv := System.reads_emitterOf hem
  have htuned : ∀ k ∈ em.handles, ∀ z, s.rig.engine.instances.get? k.instanceId = some z →
      Tuned em.params.float? z := by
    intro k hk z hz
    have hi : k.instanceId ∈ s.view.ids o := by
      rw [hv.ids]
      exact List.mem_map_of_mem hk
    rw [hv.params]
    exact Attuned.run own device config disk turns o k.instanceId z hi hz
  have hx' := htuned g hg x hx
  have hy' := htuned h hh y hy
  refine ⟨fun name => ?_, fun once => hx'.volume.unique hy'.volume once, fun once => hx'.pitch.unique hy'.pitch once⟩
  rw [hx'.extra, hy'.extra]

theorem parameters_shared_pair :
    let s := mixingRun { events := .ofList [("Engine", {})] } (some {}) {} .empty
      [.request (.post ⟨1⟩ "Engine" true), .request (.setFloat ⟨1⟩ "Pitch" 2),
        .request (.post ⟨1⟩ "Engine" true)]
    ∃ x y, s.rig.engine.instances.get? ⟨1⟩ = some x ∧ s.rig.engine.instances.get? ⟨2⟩ = some y ∧
      x.volume = y.volume ∧ x.pitch = y.pitch := by
  intro s
  obtain ⟨em, hem, hg, hh, hp⟩ : ∃ em, s.emitterOf (.entity ⟨1⟩) = some em ∧
      ⟨⟨1⟩, "Engine", false, false⟩ ∈ em.handles ∧ ⟨⟨2⟩, "Engine", false, false⟩ ∈ em.handles ∧
        em.params.floats.entries = [("Pitch", 2)] := ⟨_, rfl, .head _, .tail _ (.head _), rfl⟩
  obtain ⟨x, hx⟩ : ∃ x, s.rig.engine.instances.get? ⟨1⟩ = some x := ⟨_, rfl⟩
  obtain ⟨y, hy⟩ : ∃ y, s.rig.engine.instances.get? ⟨2⟩ = some y := ⟨_, rfl⟩
  have once : ∀ key, em.params.SpelledOnce key := by
    intro key a b _ _ ha hb
    unfold Params.float? NameMap.get? at ha hb
    rw [hp] at ha hb
    simp only [NameMap.find, ne_eq, ite_eq_right_iff, reduceCtorEq, imp_false, not_not] at ha hb
    rw [ha, hb]
  obtain ⟨-, hvolume, hpitch⟩ := parameters_shared _ _ _ _ _ _ em _ _ x y hem hg hh hx hy
  exact ⟨x, y, hx, hy, hvolume (once "volume"), hpitch (once "pitch")⟩

/-- Two spellings of one parameter: the instance that was there plays at the pitch that was set last,
one that is posted afterwards at the pitch under the name that comes last. -/
theorem spellings_disagree :
    let s := mixingRun { events := .ofList [("Engine", {})] } (some {}) {} .empty
      [.request (.post ⟨1⟩ "Engine" true), .request (.setFloat ⟨1⟩ "pitch" 0),
        .request (.setFloat ⟨1⟩ "Pitch" 1), .request (.post ⟨1⟩ "Engine" true)]
    ∃ em x y, s.emitterOf (.entity ⟨1⟩) = some em ∧ em.handles.map Handle.instanceId = [⟨1⟩, ⟨2⟩] ∧
      s.rig.engine.instances.get? ⟨1⟩ = some x ∧ s.rig.engine.instances.get? ⟨2⟩ = some y ∧
      x.pitch ≠ y.pitch := by
  intro s
  refine ⟨_, _, _, rfl, rfl, rfl, rfl, ?_⟩
  decide +kernel

end Soundstage
