import Mathlib.Data.List.Induction
import Soundstage.Proofs.Engine.ScriptedWrites
import Soundstage.Proofs.System.Teardown
import Soundstage.Proofs.Text.Bytes

/-!
# Parameters stay coherent

An instance of the scripted engine that takes writes has been told all that its emitter remembers:
what was remembered when it was posted, name by name, and then every number and label set since, in
the order they were set. `Follows` is this for one step of a run: what was written to an instance
that stays tracked, and what became of the parameters of its owner. Replaying the writes gives the
parameters back, as a later value replaces an earlier one in both.
-/

namespace Soundstage

open Playable Staged Function

/-! ### One step -/

namespace Deed

/-- The numbers set for `o`. -/
def floats (o : Owner) : Deed → List (String × Float32)
  | setFloat p name value => if o = p then [(name, value)] else []
  | _ => []

/-- The labels set for `o`. -/
def labels (o : Owner) : Deed → List (String × String)
  | setLabel p name label => if o = p then [(name, label)] else []
  | _ => []

end Deed

/-- `o` tracked `i` before, and has since set just these values on it. -/
structure Follows (o : Owner) (fs : List (String × Float32)) (ls : List (String × String)) (i : InstanceId)
    (v w : View ScriptedEngine ScriptedLoader) : Prop where
  tracked : i ∈ v.ids o
  params : w.params o = (v.params o).after fs ls
  written : ∀ x', w.rig.instance? i = some x' → ∃ x, v.rig.instance? i = some x ∧ x.Written fs ls x'

/-- `i` was told what `o` remembered once, which is `p`, and then these values as they were set on `o`. -/
structure Knows (o : Owner) (p : Params) (fs : List (String × Float32)) (ls : List (String × String))
    (i : InstanceId) (v : View ScriptedEngine ScriptedLoader) : Prop where
  params : v.params o = p.after fs ls
  written : ∀ x, v.rig.instance? i = some x → x.rejectsWrites = false →
    x.floatWrites = p.floats.entries ++ fs ∧ x.labelWrites = p.labels.entries ++ ls

section

variable {o : Owner} {fs gs : List (String × Float32)} {ls ks : List (String × String)} {i : InstanceId}
  {v w u : View ScriptedEngine ScriptedLoader} {d : Deed}

namespace Follows

theorem refl (hi : i ∈ v.ids o) : Follows o [] [] i v v := ⟨hi, rfl, fun x hx => ⟨x, hx, .refl x⟩⟩

theorem trans (h : Follows o fs ls i v w) (h' : Follows o gs ks i w u) :
    Follows o (fs ++ gs) (ls ++ ks) i v u := by
  refine ⟨h.tracked, by rw [h'.params, h.params, Params.after_after], fun x'' hx'' => ?_⟩
  obtain ⟨x', hx', hw'⟩ := h'.written x'' hx''
  obtain ⟨x, hx, hw⟩ := h.written x' hx'
  exact ⟨x, hx, hw.trans hw'⟩

theorem of_wrote {f : InstanceId → ScriptedInstance → ScriptedInstance} (hi : i ∈ v.ids o)
    (hp : w.params o = (v.params o).after fs ls) (hw : Wrote f v.rig w.rig)
    (hf : ∀ x, ScriptedInstance.Written fs ls x (f i x)) : Follows o fs ls i v w := by
  refine ⟨hi, hp, fun x' hx' => ?_⟩
  obtain ⟨x, hx, rfl⟩ := hw.source hx'
  exact ⟨x, hx, hf x⟩

/-- The rig drifted, and nothing was written on the way. -/
theorem still (hi : i ∈ v.ids o) (hp : w.params o = v.params o)
    (hr : ∀ x', w.rig.instance? i = some x' → ∃ x, v.rig.instance? i = some x ∧ x.Written [] [] x') :
    Follows o [] [] i v w :=
  ⟨hi, hp, hr⟩

end Follows

theorem Knows.follows {p : Params} (h : Knows o p fs ls i v) (hf : Follows o gs ks i v w) :
    Knows o p (fs ++ gs) (ls ++ ks) i w := by
  refine ⟨by rw [hf.params, h.params, Params.after_after], fun x' hx' hr => ?_⟩
  obtain ⟨x, hx, hw⟩ := hf.written x' hx'
  obtain ⟨hr', hf', hl'⟩ := hw hr
  obtain ⟨hf, hl⟩ := h.written x hx hr'
  exact ⟨by rw [hf', hf, List.append_assoc], by rw [hl', hl, List.append_assoc]⟩

/-- The instance that was just posted knows all the parameters. -/
theorem knows_post {em : Emitter} {c : Cue} {r : Rig ScriptedEngine ScriptedLoader} (he : em.Entered c i v.rig r)
    (hp : em.params = v.params o) :
    Knows o (v.params o) [] [] i ((v.withRig r).withHandles o (v.handles o ++ [c.handle i])) := by
  obtain ⟨x₁, hbegun, hown⟩ := he.own
  cases hbegun
  let bare : ScriptedInstance :=
    Playable.place em.attributes (receive (c.receiver em.entity) (fresh v.rig.setting c.event))
  have hclean : (em.dressed v.rig.setting c : ScriptedInstance).rejectsWrites = false :=
    ScriptedInstance.rejectsWrites_dress em.params bare
  obtain ⟨-, hf, hl⟩ := ScriptedInstance.Written.dress em.params bare hclean
  refine ⟨rfl, fun x hx _ => ?_⟩
  rw [← hp, List.append_nil, List.append_nil]
  cases hown.symm.trans hx
  split <;> exact ⟨hf, hl⟩

/-- The parameters of one owner are written to its instances alone. -/
theorem follows_write (h : Orderly v) {p : Owner} {q : Params} {g : ScriptedInstance → ScriptedInstance}
    {r : Rig ScriptedEngine ScriptedLoader} (hw : Wrote (onEach (v.ids p) g) v.rig r)
    (hq : q = (v.params p).after fs ls) (hg : ∀ x, ScriptedInstance.Written fs ls x (g x)) (hi : i ∈ v.ids o) :
    Follows o (if o = p then fs else []) (if o = p then ls else []) i v ((v.withRig r).withParams p q) := by
  by_cases hp : o = p
  · subst hp
    rw [if_pos rfl, if_pos rfl]
    refine .of_wrote hi ((update_self ..).trans hq) hw fun x => ?_
    rw [onEach_of_mem hi]
    exact hg x
  · rw [if_neg hp, if_neg hp]
    refine .of_wrote hi (update_of_ne hp ..) hw fun x => ?_
    rw [onEach_of_not_mem fun hm => hp (h.owner_unique hi hm)]
    exact .refl x

theorem follows_post {p : Owner} {em : Emitter} {c : Cue} {k : InstanceId}
    {r : Rig ScriptedEngine ScriptedLoader} (h : Orderly v) (he : em.Entered c k v.rig r) (hi : i ∈ v.ids o) :
    Follows o [] [] i v ((v.withRig r).withHandles p (v.handles p ++ [c.handle k])) := by
  have hne : i ≠ k := he.ne_of_le (h.le_issued hi)
  exact .still hi rfl fun x hx => ⟨x, (he.others i hne).symm.trans hx, .refl x⟩

theorem follows_move (h : Orderly v) (hm : Move v d w) (hi : i ∈ w.ids o) :
    Follows o (d.floats o) (d.labels o) i v w ∨
      (∃ g, d = .post o g ∧ g.instanceId = i) ∧ Knows o (v.params o) [] [] i w := by
  have stopped : ∀ (s : List String) (mode : StopMode) (x : ScriptedInstance),
      ScriptedInstance.Written [] [] x (Playable.stop s mode x) := fun _ _ x => .same rfl rfl rfl
  have released : ∀ x : ScriptedInstance, ScriptedInstance.Written [] [] x (Playable.release x) :=
    fun x => .same rfl rfl rfl
  cases hm with
  | calm hw => exact .inl (.of_wrote hi rfl hw fun x => .refl x)
  | stop _ hw => exact .inl (.of_wrote hi rfl hw fun x => .onEach (stopped _ _) x)
  | @place r p attributes hw => exact .inl (.of_wrote hi rfl hw fun x => .onEach (.place attributes) x)
  | setFloat hw =>
    have hf := follows_write h hw rfl (.setFloat _ _) hi
    rw [ite_self] at hf
    exact .inl hf
  | setLabel hw =>
    have hf := follows_write h hw rfl (.setLabel _ _) hi
    rw [ite_self] at hf
    exact .inl hf
  | @release r p ids _ hw =>
    refine .inl (.of_wrote (View.mem_ids_of_withHandles (fun g hg => ?_) hi) rfl hw fun x => .onEach released x)
    obtain ⟨k, hk, rfl⟩ := List.mem_map.mp hg
    exact View.mem_ids.mpr ⟨k, hk, (Handle.instanceId_mark ids k).symm⟩
  | reap =>
    refine .inl (.still (View.mem_ids_of_withHandles (fun g hg => ?_) hi) rfl fun x hx => ⟨x, hx, .refl x⟩)
    exact View.mem_ids.mpr ⟨g, List.mem_of_mem_filter hg, rfl⟩
  | forget _ =>
    obtain ⟨hi', hp⟩ := View.mem_ids_of_without hi
    exact .inl (.still hi' hp fun x hx => ⟨x, hx, .refl x⟩)
  | @post made begun r p em c k hp hw =>
    have he := h.entered hw
    obtain ⟨g, hg, rfl⟩ := View.mem_ids.mp hi
    rw [View.handles_withHandles] at hg
    split at hg
    · subst o
      rcases List.mem_append.mp hg with hg | hg
      · exact .inl (follows_post h he (List.mem_map_of_mem hg))
      · cases List.mem_singleton.mp hg
        exact .inr ⟨⟨_, rfl, rfl⟩, knows_post he hp⟩
    · exact .inl (follows_post h he (List.mem_map_of_mem hg))
  | update =>
    have hc := LawfulEngine.update_cleared v.rig h.ledger
    exact .inl (.still hi rfl fun x hx => ⟨x, hc.present hx, .refl x⟩)

theorem params_plainly (h : Plainly v w) : w.params = v.params := by
  obtain ⟨ds, hp, hm⟩ := h
  induction hm with
  | nil => rfl
  | cons hm _ ih =>
    have hplain := hp _ (List.mem_cons_self ..)
    refine (ih fun d hd => hp d (List.mem_cons_of_mem _ hd)).trans ?_
    cases hm <;> first | rfl | cases hplain

theorem follows_plainly (h : Orderly v) (hp : Plainly v w) (hi : i ∈ w.ids o) : Follows o [] [] i v w := by
  obtain ⟨ds, hp, hm⟩ := hp
  induction hm with
  | nil => exact .refl hi
  | @cons v u w d ds hm _ ih =>
    have hplain := hp _ (List.mem_cons_self ..)
    have hrest := ih (h.move hm) hi fun d hd => hp d (List.mem_cons_of_mem _ hd)
    have hnone : d.floats o = [] ∧ d.labels o = [] := by cases d <;> first | exact ⟨rfl, rfl⟩ | cases hplain
    rcases follows_move h hm hrest.tracked with hf | ⟨⟨g, rfl, -⟩, -⟩
    · rw [hnone.1, hnone.2] at hf
      exact hf.trans hrest
    · cases hplain

end

/-! ### Requests and events -/

namespace Request

theorem floats_outcome (q : Request) (answer : Option Handle) (o : Owner) :
    (q.outcome answer).flatMap (Deed.floats o) = (q.float? o).toList := by
  cases q <;> cases answer <;> simp [outcome, poster?, float?, Deed.floats] <;> split <;> rfl

theorem labels_outcome (q : Request) (answer : Option Handle) (o : Owner) :
    (q.outcome answer).flatMap (Deed.labels o) = (q.label? o).toList := by
  cases q <;> cases answer <;> simp [outcome, poster?, label?, Deed.labels] <;> split <;> rfl

end Request

section

variable {o : Owner} {i : InstanceId} {s : System ScriptedEngine ScriptedLoader}

theorem follows_request (h : Orderly s.view) (q : Request) (hi : i ∈ (q.perform s).2.view.ids o) :
    Follows o (q.float? o).toList (q.label? o).toList i s.view (q.perform s).2.view ∨
      (∃ g, q.poster? = some o ∧ (q.perform s).1 = some g ∧ g.instanceId = i) ∧
        Knows o (s.paramsOf o) [] [] i (q.perform s).2.view := by
  obtain ⟨w, hp, hm⟩ := q.moves h
  rw [← q.floats_outcome (q.perform s).1, ← q.labels_outcome (q.perform s).1]
  rcases q.outcome_cases (q.perform s).1 with he | ⟨d, he⟩
  · rw [he] at hm ⊢
    cases hm
    exact .inl (follows_plainly h hp hi)
  · have hd := he
    rw [he] at hm ⊢
    rw [List.flatMap_singleton, List.flatMap_singleton]
    obtain - | ⟨hm, ⟨⟩⟩ := hm
    rcases follows_move (h.plainly hp) hm hi with hf | ⟨⟨g, rfl, hg⟩, hk⟩
    · exact .inl ((follows_plainly h hp hf.tracked).trans hf)
    · obtain ⟨hposter, hanswer⟩ := Request.post_mem_outcome (hd ▸ List.mem_singleton.mpr rfl)
      rw [params_plainly hp] at hk
      exact .inr ⟨⟨g, hposter, hanswer, hg⟩, hk⟩

theorem follows_event (h : Orderly s.view) (v : ScriptedEvent) (hi : i ∈ s.view.ids o) :
    Follows o [] [] i s.view (Turn.take ScriptedEvent.happen (.event v) s).view :=
  .still hi rfl fun _ hx => (v.befell s.rig h.ledger).written hx

end

/-! ### Runs -/

namespace Turn

variable {V : Type} {o : Owner}

/-- The numbers that are set on the entity of an owner, in the order of the turns. -/
def floats (o : Owner) (turns : List (Turn V)) : List (String × Float32) :=
  turns.filterMap fun
    | request q => q.float? o
    | event _ => none

/-- The labels that are set on the entity of an owner, in the order of the turns. -/
def labels (o : Owner) (turns : List (Turn V)) : List (String × String) :=
  turns.filterMap fun
    | request q => q.label? o
    | event _ => none

theorem toList_float? (q : Request) : (q.float? o).toList = floats o [request (V := V) q] := by
  unfold floats
  cases h : q.float? o <;> simp [h]

theorem toList_label? (q : Request) : (q.label? o).toList = labels o [request (V := V) q] := by
  unfold labels
  cases h : q.label? o <;> simp [h]

end Turn

/-- One of the turns posted `i` for `o`, and `i` knows what was remembered then and set since. -/
def Chronicled (run : List (Turn ScriptedEvent) → System ScriptedEngine ScriptedLoader) (o : Owner) (i : InstanceId)
    (turns : List (Turn ScriptedEvent)) : Prop :=
  ∃ before q after g, turns = before ++ .request q :: after ∧
    (q.poster? = some o ∧ (q.perform (run before)).1 = some g ∧ g.instanceId = i) ∧
      Knows o ((run before).paramsOf o) (Turn.floats o after) (Turn.labels o after) i (run turns).view

theorem chronicled (events : List String) (config : Config) (files : List Path) (disk : Disk) {o : Owner}
    {i : InstanceId} (turns : List (Turn ScriptedEvent))
    (hi : i ∈ (scriptedRun events config files disk turns).view.ids o) :
    Chronicled (scriptedRun events config files disk) o i turns := by
  induction turns using List.reverseRecOn with
  | nil => rcases o with e | _ <;> cases hi
  | append_singleton turns t ih =>
    have h := scriptedRun_orderly events config files disk turns
    have hstep : scriptedRun events config files disk (turns ++ [t]) =
        t.take ScriptedEvent.happen (scriptedRun events config files disk turns) := Turn.run_append ..
    -- what a turn writes to an instance that was tracked before follows all that was written to it so far
    have old : Follows o (Turn.floats o [t]) (Turn.labels o [t]) i (scriptedRun events config files disk turns).view
        (scriptedRun events config files disk (turns ++ [t])).view →
        Chronicled (scriptedRun events config files disk) o i (turns ++ [t]) := fun hf => by
      obtain ⟨before, q, after, g, rfl, hq, hk⟩ := ih hf.tracked
      refine ⟨before, q, after ++ [t], g, by simp, hq, ?_⟩
      unfold Turn.floats Turn.labels
      rw [List.filterMap_append, List.filterMap_append]
      exact hk.follows hf
    rw [hstep] at hi old
    cases t with
    | request q =>
      rcases follows_request h q hi with hf | ⟨⟨g, hq⟩, hk⟩
      · rw [Turn.toList_float?, Turn.toList_label?] at hf
        exact old hf
      · exact ⟨turns, q, [], g, rfl, hq, hstep ▸ hk⟩
    | event v => exact old (follows_event h v hi)

/-- The names of a map are listed once each, in the order of their bytes. -/
theorem NameMap.names_ascending {α : Type} (m : NameMap α) :
    m.names.Pairwise fun a b => Text.bytes a < Text.bytes b :=
  m.ascending.imp Text.before_iff_bytes.mp

theorem Knows.reads {o : Owner} {p : Params} {fs : List (String × Float32)} {ls : List (String × String)}
    {i : InstanceId} {v : View ScriptedEngine ScriptedLoader} (h : Knows o p fs ls i v) {x : ScriptedInstance}
    (hx : v.rig.instance? i = some x) (hr : x.rejectsWrites = false) (name : String) :
    x.float? name = (v.params o).float? name ∧ x.label? name = (v.params o).label? name := by
  obtain ⟨hf, hl⟩ := h.written x hx hr
  unfold ScriptedInstance.float? ScriptedInstance.label?
  rw [hf, hl, h.params]
  exact ⟨ScriptedInstance.lastOf_append .., ScriptedInstance.lastOf_append ..⟩

/-- Parameters stay coherent. At every point of every run, an instance that an emitter tracks and that
takes writes reads, under every name, what the emitter remembers. It was posted in one of the
turns: written to it were the numbers that were remembered before that turn, each name once and in the
order of its bytes, and then those that were set on the entity since, in turn; and likewise the labels. -/
theorem parameters_coherent (events : List String) (config : Config) (files : List Path) (disk : Disk)
    (turns : List (Turn ScriptedEvent)) : let s := scriptedRun events config files disk turns
    ∀ o em h x, s.emitterOf o = some em → h ∈ em.handles → s.rig.engine.instances.get? h.instanceId = some x →
      x.rejectsWrites = false →
      (∀ name, x.float? name = em.params.float? name ∧ x.label? name = em.params.label? name) ∧
      ∃ before q after g, turns = before ++ .request q :: after ∧
        let s' := scriptedRun events config files disk before
        (q.poster? = some o ∧ (q.perform s').1 = some g ∧ g.instanceId = h.instanceId) ∧
        (x.floatWrites = (s'.paramsOf o).floats.entries ++ Turn.floats o after ∧
          (s'.paramsOf o).floats.names.Pairwise fun a b => Text.bytes a < Text.bytes b) ∧
        (x.labelWrites = (s'.paramsOf o).labels.entries ++ Turn.labels o after ∧
          (s'.paramsOf o).labels.names.Pairwise fun a b => Text.bytes a < Text.bytes b) := by
  intro s o em h x hem hh hx hr
  have hi : h.instanceId ∈ s.view.ids o := System.tracks_iff.mp ⟨em, hem, h, hh, rfl⟩
  have hp : s.view.params o = em.params := by
    change s.paramsOf o = _
    unfold System.paramsOf
    rw [hem]
    rfl
  obtain ⟨before, q, after, g, hturns, hq, hk⟩ := chronicled events config files disk turns hi
  refine ⟨fun name => hp ▸ hk.reads hx hr name, before, q, after, g, hturns, hq, ?_⟩
  obtain ⟨hf, hl⟩ := hk.written x hx hr
  exact ⟨⟨hf, NameMap.names_ascending _⟩, hl, NameMap.names_ascending _⟩

theorem parameters_coherent_engine :
    let s := scriptedRun ["Engine"] {} [] .empty
      [.request (.setFloat ⟨1⟩ "rpm" 900), .request (.post ⟨1⟩ "Engine" true), .event .update,
        .request (.setFloat ⟨1⟩ "rpm" 1200)]
    ∃ em x, s.emitterOf (.entity ⟨1⟩) = some em ∧ s.rig.engine.instances.get? ⟨1⟩ = some x ∧
      ∀ name, x.float? name = em.params.float? name ∧ x.label? name = em.params.label? name := by
  intro s
  obtain ⟨em, hem, hh⟩ : ∃ em, s.emitterOf (.entity ⟨1⟩) = some em ∧ ⟨⟨1⟩, "Engine", false, false⟩ ∈ em.handles :=
    ⟨_, rfl, .head _⟩
  obtain ⟨x, hx, hr⟩ : ∃ x, s.rig.engine.instances.get? ⟨1⟩ = some x ∧ x.rejectsWrites = false := ⟨_, rfl, rfl⟩
  exact ⟨em, x, hem, hx, (parameters_coherent _ _ _ _ _ _ em _ x hem hh hx hr).1⟩

end Soundstage
