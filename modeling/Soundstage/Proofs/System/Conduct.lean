import Mathlib.Data.List.Induction
import Soundstage.Proofs.Emitter.Premiere
import Soundstage.Proofs.Engine.MixingEvents

/-!
# The mixing engine drives the bridge lawfully

In every run of a system with the mixing engine the bridge hears of an instance just what it should:
nothing, if no file was posted for it; at most one request for a sound while it is there; and when it
goes away, that the sound is given back, if one was loaded, and that the instance is gone. Of the
moves only posts and updates reach the bridge, so the conduct is shown for each kind of move and
carried through requests and runs.
-/

namespace Soundstage

open Playable Staged Function Backstage

variable {streams : InstanceId → Prop}

section

variable {v w : View MixingEngine StreamingLoader} {d : Deed} {ds : List Deed}

/-- Of the moves, only posts and updates reach the bridge, and updates let nothing in. -/
theorem conducted_move (hl : Ledger v.rig.toBackstage []) (hc : Conducted streams v.rig) (hm : Move v d w)
    (hd : ∀ o g, d ≠ .post o g) : Conducted streams w.rig ∧ Quiet v.rig.toBackstage w.rig.toBackstage := by
  cases hm with
  | calm hw => exact ⟨hc.wrote hw fun _ _ => ⟨rfl, rfl⟩, hw.quiet⟩
  | stop _ hw => exact ⟨hc.wrote_onEach hw fun _ => ⟨rfl, rfl⟩, hw.quiet⟩
  | place hw => exact ⟨hc.wrote_onEach hw fun _ => ⟨rfl, rfl⟩, hw.quiet⟩
  | setFloat hw => exact ⟨hc.wrote_onEach hw (MixingInstance.setFloat_same _ _), hw.quiet⟩
  | setLabel hw => exact ⟨hc.wrote_onEach hw fun _ => ⟨rfl, rfl⟩, hw.quiet⟩
  | release _ hw => exact ⟨hc.wrote_onEach hw fun _ => ⟨rfl, rfl⟩, hw.quiet⟩
  | reap => exact ⟨hc, .refl _⟩
  | forget _ => exact ⟨hc, .refl _⟩
  | update => exact hc.update hl
  | post _ _ => exact absurd rfl (hd _ _)

theorem conducted_moves (ho : Orderly v) (hc : Conducted streams v.rig) (hm : Moves v ds w)
    (hd : ∀ d ∈ ds, ∀ o g, d ≠ .post o g) :
    Orderly w ∧ Conducted streams w.rig ∧ Quiet v.rig.toBackstage w.rig.toBackstage := by
  refine hm.keeps_among (P := fun w => Orderly w ∧ Conducted streams w.rig ∧
    Quiet v.rig.toBackstage w.rig.toBackstage) (fun hd hm ⟨ho, hc, hq⟩ => ?_) hd ⟨ho, hc, .refl _⟩
  obtain ⟨hc', hq'⟩ := conducted_move ho.ledger hc hm hd
  exact ⟨ho.move hm, hc', hq.trans hq'⟩

theorem conducted_post {o : Owner} {g : Handle} (ho : Orderly v) (hc : Conducted streams v.rig)
    (hm : Move v (.post o g) w) : Conducted (fun i => streams i ∨ g.fileBacked = true ∧ i = g.instanceId) w.rig ∧
      (g.fileBacked = true → Premiered g v.rig w.rig) := by
  cases hm with
  | post _ hp =>
    obtain ⟨hc', -, hpremiere⟩ := hp.conducted ho.ledger (hp.making.id ▸ ho.binding?_next) hc
    exact ⟨hc', hpremiere⟩

end

theorem conducted_request {s : System MixingEngine StreamingLoader} (ho : Orderly s.view)
    (hc : Conducted streams s.rig) (q : Request) :
    Conducted (fun i => streams i ∨ ∃ g, (q.perform s).1 = some g ∧ g.fileBacked = true ∧ i = g.instanceId)
        (q.perform s).2.rig ∧
      ∀ g, (q.perform s).1 = some g → g.fileBacked = true → Premiered g s.rig (q.perform s).2.rig := by
  obtain ⟨w, ds, hds, hnopost, hend⟩ := q.posting ho
  obtain ⟨how, hw, hq⟩ := conducted_moves ho hc hds hnopost
  rcases hend with ⟨ha, rfl⟩ | ⟨o, g, ha, hm⟩
  · -- nothing was posted, so the bridge hears of no other instance
    refine ⟨hw.congr fun i => by simp [ha], fun g hg => ?_⟩
    rw [ha] at hg
    cases hg
  · obtain ⟨hc', hpremiere⟩ := conducted_post how hw hm
    refine ⟨hc'.congr fun i => by simp [ha], fun g' hg hf => ?_⟩
    cases ha.symm.trans hg
    exact (hpremiere hf).after hq

/-- Nothing that befalls the engine reaches the bridge. -/
theorem conducted_event {r : Rig MixingEngine StreamingLoader} (hc : Conducted streams r) (v : MixingEvent) :
    Conducted streams (v.happen r) := by
  obtain ⟨hissued, ⟨f, hinst, hf⟩, hsame⟩ := v.befell r
  refine hc.rewrite hinst hissued ?_ ?_ ?_ (.of_eq ?_) fun j x => ⟨(hf j x).ages.receiver, (hf j x).props⟩ <;>
    rw [hsame]

/-! ### Runs -/

/-- A file was posted for `i` in one of the turns. -/
def Streamed {E L V : Type} [Loader L] [Engine E L] (run : List (Turn V) → System E L) (turns : List (Turn V))
    (i : InstanceId) : Prop :=
  ∃ before q after g, turns = before ++ .request q :: after ∧ (q.perform (run before)).1 = some g ∧
    g.fileBacked = true ∧ i = g.instanceId

theorem streamed_concat {E L V : Type} [Loader L] [Engine E L] {run : List (Turn V) → System E L}
    {turns : List (Turn V)} {t : Turn V} {i : InstanceId} : Streamed run (turns ++ [t]) i ↔ Streamed run turns i ∨
      ∃ q g, t = .request q ∧ (q.perform (run turns)).1 = some g ∧ g.fileBacked = true ∧ i = g.instanceId := by
  constructor
  · rintro ⟨before, q, after, g, h, hg⟩
    rcases List.eq_nil_or_concat after with rfl | ⟨after, t', rfl⟩
    · obtain ⟨rfl, ht⟩ := List.append_inj' h rfl
      cases ht
      exact .inr ⟨q, g, rfl, hg⟩
    · rw [List.concat_eq_append, ← List.cons_append, ← List.append_assoc] at h
      obtain ⟨rfl, -⟩ := List.append_inj' h rfl
      exact .inl ⟨before, q, after, g, rfl, hg⟩
  · rintro (⟨before, q, after, g, rfl, hg⟩ | ⟨q, g, rfl, hg⟩)
    · exact ⟨before, q, after ++ [t], g, by simp, hg⟩
    · exact ⟨turns, q, [], g, rfl, hg⟩

/-- What holds at first and is kept by requests and by the events that are allowed holds of every run. -/
theorem streamed_keeps {E L V : Type} [Loader L] [Engine E L] (happen : V → Rig E L → Rig E L) (allowed : V → Prop)
    {s : System E L} {P : (InstanceId → Prop) → System E L → Prop} (hstart : P (fun _ => False) s)
    (hrequest : ∀ {streams s} (q : Request), P streams s →
      P (fun i => streams i ∨ ∃ g, (q.perform s).1 = some g ∧ g.fileBacked = true ∧ i = g.instanceId) (q.perform s).2)
    (hevent : ∀ {streams} {s : System E L} v, allowed v → P streams s → P streams { s with rig := happen v s.rig })
    (turns : List (Turn V)) (hturns : ∀ v, .event v ∈ turns → allowed v) :
    P (Streamed (fun turns => Turn.run happen turns s) turns) (Turn.run happen turns s) := by
  have congr : ∀ {streams streams' : InstanceId → Prop} {s}, P streams s → (∀ i, streams i ↔ streams' i) →
      P streams' s := fun h he => funext (fun i => propext (he i)) ▸ h
  induction turns using List.reverseRecOn with
  | nil =>
    refine congr hstart fun i => ⟨False.elim, ?_⟩
    rintro ⟨before, q, after, g, h, -⟩
    exact absurd h (by simp)
  | append_singleton turns t ih =>
    have hbefore := ih fun v hv => hturns v (List.mem_append_left _ hv)
    rw [Turn.run_append]
    cases t with
    | request q =>
      refine congr (hrequest q hbefore) fun i => Iff.trans ?_ streamed_concat.symm
      simp
    | event v =>
      refine congr (hevent v (hturns v (by simp)) hbefore) fun i => Iff.trans ?_ streamed_concat.symm
      simp

/-- A run of a new system with the mixing engine; `own` is the config of the engine. -/
def mixingRun (own : Config) (device : Option Device) (config : Config) (disk : Disk)
    (turns : List (Turn MixingEvent)) : System MixingEngine StreamingLoader :=
  Turn.run MixingEvent.happen turns (.ofEngine (.ofConfig own device) config {} disk)

section

variable (own : Config) (device : Option Device) (config : Config) (disk : Disk) (turns : List (Turn MixingEvent))

theorem mixingRun_orderly : Orderly (mixingRun own device config disk turns).view :=
  have hlive : ∀ x, ¬LawfulLoader.IsLive ({} : StreamingLoader) x := fun _ h => h rfl
  (Orderly.start config disk (fun _ => rfl) (fun x hx => absurd hx (hlive x)) hlive).run MixingEvent.drift turns

theorem mixingRun_conducted :
    Conducted (Streamed (mixingRun own device config disk) turns) (mixingRun own device config disk turns).rig := by
  have hrun := streamed_keeps MixingEvent.happen (fun _ => True)
    (P := fun streams (s : System MixingEngine StreamingLoader) => Orderly s.view ∧ Conducted streams s.rig)
    ⟨mixingRun_orderly own device config disk [], .start (fun _ => id) (fun _ => rfl) rfl rfl fun _ _ => nofun⟩
    (fun q ⟨ho, hc⟩ => ⟨q.orderly ho, (conducted_request ho hc q).1⟩)
    (fun v _ ⟨ho, hc⟩ => ⟨ho.drift (v.drift _ ho.ledger), conducted_event hc v⟩) turns fun _ _ => trivial
  exact hrun.2

end

/-- The mixing engine drives the bridge lawfully. At every point of every run, the bridge has refused
nothing and no error was logged. It was asked at most once for the sound of an instance that a file was
posted for, has answered nothing else as long as that is there, and when it went away was given back
what it had loaded, if anything, and told that it is gone, and heard no more; of other instances it never
hears. What an instance holds in its props is what its binding has loaded, the live sounds are those of the
loaded bindings, and all of them were taken: what a post loads is played, or reported missed. -/
theorem bridge_driven_lawfully (own : Config) (device : Option Device) (config : Config) (disk : Disk)
    (turns : List (Turn MixingEvent)) : let run := mixingRun own device config disk
    let r := (run turns).rig
    ((∀ a ∈ r.answered, ∃ state, a.result = .ok state) ∧ ∀ line ∈ r.journal, line.level ≠ .error) ∧
    (∀ i, ¬Streamed run turns i → r.trace i = []) ∧
    (∀ i x, Streamed run turns i → r.engine.instances.get? i = some x →
      ∃ b, r.binding? i = some b ∧ Opening i b.loaded (r.trace i)) ∧
    (∀ i, Streamed run turns i → r.engine.instances.get? i = none →
      ∃ sound answers, Opening i sound answers ∧ r.trace i = answers ++ closing i sound) ∧
    (∀ i x, r.engine.instances.get? i = some x → x.props.sound = (r.binding? i).bind Binding.loaded) ∧
    (∀ y, r.loader.sounds.get? y ≠ none ↔ ∃ i b, r.binding? i = some b ∧ b.state = .loaded ∧ b.loaded = some y) ∧
    (∀ y sound, r.loader.sounds.get? y = some sound → sound = .stream none) ∧
    ∀ (q : Request) (g : Handle), (q.perform (run turns)).1 = some g → g.fileBacked = true →
      Premiered g r (q.perform (run turns)).2.rig := by
  intro run r
  have ho : Orderly (run turns).view := mixingRun_orderly own device config disk turns
  have hc : Conducted (Streamed run turns) r := mixingRun_conducted own device config disk turns
  refine ⟨⟨fun a => hc.granted, hc.quiet⟩, fun i => hc.unheard, fun i x hs hx => hc.opened hx hs, fun i => hc.closed,
    fun i x => hc.sound, fun y => ?_, hc.spent, fun q => (conducted_request ho hc q).2⟩
  refine (ho.ledger.live y).trans ⟨?_, ?_⟩
  · rintro (hm | ⟨i, b, hb, hy⟩)
    · cases hm
    · exact ⟨i, b, hb, (ho.ledger.settled hb).sound.mp (by rw [hy]; rfl), hy⟩
  · rintro ⟨i, b, hb, -, hy⟩
    exact .inr ⟨i, b, hb, hy⟩

end Soundstage
