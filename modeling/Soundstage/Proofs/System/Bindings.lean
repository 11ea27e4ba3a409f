import Soundstage.Proofs.Engine.Partings
import Soundstage.Proofs.System.Conduct
import Soundstage.Proofs.System.Teardown

/-!
# Bindings of a scripted engine

A host may ask for the sound of any instance of the scripted engine and give it back as often and in
whatever order it likes. As long as it tells nobody that an instance is gone which is still there, the
bridge has bindings of just the instances that a file was posted for and that are there, and what they
have loaded is what the props of the instances say. So whenever instances go away, the bridge accepts
all that it hears of it (`bindings_mirror_instances`).
-/

namespace Soundstage

open Playable Backstage

namespace Request

/-- The request asks for a file to be played. -/
def postsFile : Request → Bool
  | postFile .. | postCustom .. | playMusic _ => true
  | _ => false

variable {E L : Type} [Loader L] [Engine E L]

theorem fileBacked_address {s : System E L} {entity : EntityId} {file : Bool}
    {act : Emitter → Rig E L → Option Handle × Emitter × Rig E L}
    (hact : ∀ em r, ∃ c : Cue, act em r = em.play c r ∧ c.file.isSome = file) {g : Handle}
    (hg : (s.address entity act).1 = some g) : g.fileBacked = file := by
  obtain ⟨c, hc, hfile⟩ := hact (s.resolve entity).1 (s.resolve entity).2.rig
  have hplay : ((s.resolve entity).1.play c (s.resolve entity).2.rig).1 = some g := hc ▸ hg
  rw [Emitter.fileBacked_play hplay, hfile]

/-- A handle says whether a file was asked for. -/
theorem fileBacked_eq {q : Request} {s : System E L} {g : Handle} (hg : (q.perform s).1 = some g) :
    g.fileBacked = q.postsFile := by
  cases q with
  | post entity event keep => exact fileBacked_address (fun em r => ⟨⟨event, none, keep⟩, rfl, rfl⟩) hg
  | postVoice entity key =>
    exact fileBacked_address (fun em r => ⟨⟨em.voice.event s.config.voiceBank key, none, false⟩, rfl, rfl⟩) hg
  | postFile entity template file keep =>
    exact fileBacked_address (fun em r => ⟨⟨template, some file, keep⟩, rfl, rfl⟩) hg
  | postCustom entity file looping keep =>
    exact fileBacked_address (fun em r => ⟨⟨s.config.template looping, some file, keep⟩, rfl, rfl⟩) hg
  | playMusic file =>
    let s' := (s.stopMusic .allowFadeOut).2
    have hplay : ((s'.music.setPosition s'.listener.position).play
        ⟨s'.config.template true, some file, true⟩ s'.rig).1 = some g := hg
    exact Emitter.fileBacked_play hplay
  | _ => cases hg

end Request

/-- In one of the turns a file was asked for, and `i` was made to play it. -/
def FilePosted {E L V : Type} [Loader L] [Engine E L] (run : List (Turn V) → System E L) (turns : List (Turn V))
    (i : InstanceId) : Prop :=
  ∃ before q after g, turns = before ++ .request q :: after ∧ q.postsFile = true ∧
    (q.perform (run before)).1 = some g ∧ i = g.instanceId

theorem streamed_iff {E L V : Type} [Loader L] [Engine E L] {run : List (Turn V) → System E L}
    {turns : List (Turn V)} {i : InstanceId} : Streamed run turns i ↔ FilePosted run turns i := by
  constructor
  · rintro ⟨before, q, after, g, ht, hg, hfile, hi⟩
    exact ⟨before, q, after, g, ht, (Request.fileBacked_eq hg).symm.trans hfile, hg, hi⟩
  · rintro ⟨before, q, after, g, ht, hfile, hg, hi⟩
    exact ⟨before, q, after, g, ht, hg, (Request.fileBacked_eq hg).trans hfile, hi⟩

namespace Mirrored

section

variable {streams : InstanceId → Prop} {v w : View ScriptedEngine ScriptedLoader} {d : Deed} {ds : List Deed}

theorem move (h : Mirrored streams v.rig) (hl : Ledger v.rig.toBackstage []) (hm : Move v d w)
    (hd : ∀ o g, d ≠ .post o g) : Mirrored streams w.rig := by
  cases hm with
  | calm hw => exact h.wrote hw fun _ _ => ⟨rfl, rfl⟩
  | stop _ hw => exact h.wrote_onEach hw fun _ => ⟨rfl, rfl⟩
  | place hw => exact h.wrote_onEach hw (ScriptedInstance.place_same _)
  | setFloat hw => exact h.wrote_onEach hw (ScriptedInstance.setFloat_same _ _)
  | setLabel hw => exact h.wrote_onEach hw (ScriptedInstance.setLabel_same _ _)
  | release _ hw => exact h.wrote_onEach hw fun _ => ⟨rfl, rfl⟩
  | reap => exact h
  | forget _ => exact h
  | update => exact h.cleared (LawfulEngine.update_cleared v.rig hl)
  | post _ _ => exact absurd rfl (hd _ _)

theorem post {o : Owner} {g : Handle} (ho : Orderly v) (h : Mirrored streams v.rig) (hm : Move v (.post o g) w) :
    Mirrored (fun i => streams i ∨ g.fileBacked = true ∧ i = g.instanceId) w.rig := by
  cases hm with
  | post _ hp => exact h.enter hp ho.ledger (hp.making.id ▸ ho.binding?_next)

theorem request {s : System ScriptedEngine ScriptedLoader} (ho : Orderly s.view) (h : Mirrored streams s.rig)
    (q : Request) : Mirrored (fun i => streams i ∨
      ∃ g, (q.perform s).1 = some g ∧ g.fileBacked = true ∧ i = g.instanceId) (q.perform s).2.rig := by
  obtain ⟨w, ds, hds, hnopost, hend⟩ := q.posting ho
  obtain ⟨how, hw⟩ := hds.keeps_among (P := fun v => Orderly v ∧ Mirrored streams v.rig)
    (fun hd hm ⟨ho, h⟩ => ⟨ho.move hm, h.move ho.ledger hm hd⟩) hnopost ⟨ho, h⟩
  rcases hend with ⟨ha, rfl⟩ | ⟨o, g, ha, hm⟩
  · exact hw.congr fun i => by simp [ha]
  · exact (hw.post how hm).congr fun i => by simp [ha]

end

/-- The bridge mirrors the engine at every point of a run in which nobody is told that an instance is gone
while it is still there. -/
theorem run (events : List String) (config : Config) (files : List Path) (disk : Disk)
    (turns : List (Turn ScriptedEvent)) (hturns : ∀ i, Turn.event (.fire i .destroyed) ∉ turns) :
    Mirrored (Streamed (scriptedRun events config files disk) turns) (scriptedRun events config files disk turns).rig := by
  have hrun := streamed_keeps ScriptedEvent.happen (fun v => ∀ i, v ≠ .fire i .destroyed)
    (P := fun streams (s : System ScriptedEngine ScriptedLoader) => Orderly s.view ∧ Mirrored streams s.rig)
    ⟨scriptedRun_orderly events config files disk [], .start (fun _ => id) (fun _ => rfl) fun _ => rfl⟩
    (fun q ⟨ho, h⟩ => ⟨q.orderly ho, request ho h q⟩)
    (fun v hv ⟨ho, h⟩ => ⟨ho.drift (v.drift _ ho.ledger), h.event ho.ledger v hv⟩) turns
    fun v hv i e => hturns i (e ▸ hv)
  exact hrun.2

end Mirrored

/-- At every point of a run in which nobody is told that an instance is gone while it is still there, the
bridge has bindings of just the instances that a file was posted for and that are there. The props of these
say what their bindings have loaded, those of the others say nothing. When an instance is destroyed, or
an update destroys some, the bridge refuses nothing and frees the binding and the sound of each once. -/
theorem bindings_mirror_instances (events : List String) (config : Config) (files : List Path) (disk : Disk)
    (turns : List (Turn ScriptedEvent)) (hturns : ∀ i, Turn.event (.fire i .destroyed) ∉ turns) :
    let run := scriptedRun events config files disk
    let r := (run turns).rig
    (∀ i, r.binding? i ≠ none ↔ FilePosted run turns i ∧ r.engine.instances.get? i ≠ none) ∧
    (∀ i x, r.engine.instances.get? i = some x → x.props.sound = (r.binding? i).bind Binding.loaded) ∧
    (∀ i x, r.engine.instances.get? i = some x → ¬FilePosted run turns i → x.props.sound = none) ∧
    (∀ i, Parted [i] r (ScriptedEngine.destroy r i)) ∧
    Parted r.engine.done r (ScriptedEngine.update r) := by
  intro run r
  have ho : Orderly (run turns).view := scriptedRun_orderly events config files disk turns
  have h : Mirrored (Streamed run turns) r := Mirrored.run events config files disk turns hturns
  have hbound : ∀ i, r.binding? i ≠ none ↔ FilePosted run turns i ∧ r.engine.instances.get? i ≠ none := fun i => by
    rw [h.bound, streamed_iff]
    rfl
  refine ⟨hbound, fun i x => h.sound, fun i x hx hout => ?_, fun i => h.parted_destroy ho.ledger i,
    h.parted_update ho.ledger⟩
  have hunbound : r.binding? i = none := Classical.byContradiction fun hb => hout ((hbound i).mp hb).1
  rw [h.sound hx, hunbound]
  rfl

theorem bindings_mirror_instances_take :
    let turns := [.request (.postFile ⟨1⟩ "Line" ⟨"a.wav"⟩ false), .event (.fire ⟨1⟩ .createSound),
      .event (.fire ⟨1⟩ .createSound)]
    let r := (scriptedRun ["Line"] {} [⟨"a.wav"⟩] .empty turns).rig
    (∀ i, Turn.event (.fire i .destroyed) ∉ turns) ∧ (∃ x, r.engine.instances.get? ⟨1⟩ = some x ∧
      x.props.sound = some ⟨1⟩) ∧ r.loader.live.get? ⟨1⟩ ≠ none ∧
    (ScriptedEngine.destroy r ⟨1⟩).loader.live.get? ⟨1⟩ = none ∧
    (ScriptedEngine.destroy r ⟨1⟩).loader.releases = 1 ∧ (ScriptedEngine.destroy r ⟨1⟩).bridge.freed = 1 := by
  intro turns r
  have hturns : ∀ i, Turn.event (.fire i .destroyed) ∉ turns := by
    intro i
    simp [turns]
  obtain ⟨-, hsound, -, hparted, -⟩ := bindings_mirror_instances ["Line"] {} [⟨"a.wav"⟩] .empty turns hturns
  have hb : (r.binding? ⟨1⟩).bind Binding.loaded = some ⟨1⟩ := by decide +kernel
  obtain ⟨x, hx⟩ := Option.isSome_iff_exists.mp (show (r.engine.instances.get? ⟨1⟩).isSome by decide +kernel)
  refine ⟨hturns, ⟨x, hx, (hsound ⟨1⟩ x hx).trans hb⟩, by decide +kernel, ?_, ?_, ?_⟩
  · exact ((hparted ⟨1⟩).live ⟨1⟩).trans (if_pos ⟨⟨1⟩, List.mem_singleton_self _, hb⟩)
  · exact (hparted ⟨1⟩).releases.trans (by decide +kernel)
  · exact (hparted ⟨1⟩).freed.trans (by decide +kernel)

end Soundstage
