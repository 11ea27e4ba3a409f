import Soundstage.Proofs.Emitter.Posting
import Soundstage.Proofs.Engine.Conduct

/-!
# A file is posted

A post lets the mixing engine make an instance and start it, and its conduct stays lawful
(`Posted.conducted`). If a file was posted and the bridge has loaded it, then what it opened was handed to
the instance, which plays it unless its track takes no sound; and then the journal says so (`Premiered`).
-/

namespace Soundstage

open Playable Backstage

/-- The journal of `s'` goes on from that of `s`, and `line` was written on the way. -/
def Backstage.Reported {L : Type} (line : Line) (s s' : Backstage L) : Prop :=
  ∃ before after, s'.journal = s.journal ++ before ++ line :: after

/-- How an instance comes out that a file was posted for: if the file was loaded, what the bridge opened
is what the instance plays, or the start has failed and was reported. -/
def Premiered (g : Handle) (r r' : Rig MixingEngine StreamingLoader) : Prop :=
  ∃ x b, r'.instance? g.instanceId = some x ∧ r'.binding? g.instanceId = some b ∧
    ∀ y, b.loaded = some y → ∃ recording, r'.disk.openSound b.path = .ok recording ∧
      (x.sound = some (Playback.ofData (.stream recording) x.definition.looping x.level x.pitch) ∨
        x.sound = none ∧ ∃ entity : EntityId, Reported ⟨.warn, "Audio: failed to start '" ++ g.event ++ "' on "
          ++ entity.text ++ ": " ++ (AudioError.engine ("Failed to play '" ++ g.event ++ "': "
          ++ Device.noSound)).message⟩ r.toBackstage r'.toBackstage)

namespace Backstage

variable {L : Type} {s s' s'' : Backstage L} {line : Line}

theorem Reported.after (h : Reported line s' s'') (hq : Quiet s s') : Reported line s s'' := by
  obtain ⟨before, after, h⟩ := h
  obtain ⟨lines, hl, -⟩ := hq
  exact ⟨lines ++ before, after, by simp [h, hl]⟩

theorem Reported.before (h : Reported line s s') (hq : Quiet s' s'') : Reported line s s'' := by
  obtain ⟨before, after, h⟩ := h
  obtain ⟨lines, hl, -⟩ := hq
  exact ⟨before, after ++ lines, by simp [h, hl]⟩

theorem reported_say (s : Backstage L) (level : Level) (text : String) :
    Reported ⟨level, text⟩ s (s.say level text) :=
  ⟨[], [], by rw [List.append_nil]; rfl⟩

/-- What was written to instances on the way is nothing to the bridge. -/
theorem Heard.wrote {E X S : Type} [Staged E X S] {f : InstanceId → X → X} {i : InstanceId} {answers : List Answer}
    {r r' : Rig E L} (h : Heard i answers s r.toBackstage) (hw : Wrote f r r') : Heard i answers s r'.toBackstage :=
  ⟨hw.disk.trans h.disk, hw.answered.trans h.answered, h.own, fun j hj => (hw.binding? j).trans (h.others j hj),
    h.quiet.trans hw.quiet⟩

end Backstage

theorem Premiered.after {g : Handle} {r r' r'' : Rig MixingEngine StreamingLoader} (h : Premiered g r' r'')
    (hq : Quiet r.toBackstage r'.toBackstage) : Premiered g r r'' := by
  obtain ⟨x, b, hx, hb, hload⟩ := h
  refine ⟨x, b, hx, hb, fun y hy => ?_⟩
  obtain ⟨recording, hopen, hplay⟩ := hload y hy
  refine ⟨recording, hopen, hplay.imp_right ?_⟩
  rintro ⟨hnone, entity, hreported⟩
  exact ⟨hnone, entity, hreported.after hq⟩

namespace Emitter

variable {em : Emitter} {c : Cue} {i : InstanceId} {r made begun r' : Rig MixingEngine StreamingLoader}

/-- An instance that is about to start has neither props nor a sound. -/
theorem dressed_bare (em : Emitter) (c : Cue) (config : Config) :
    (em.dressed config c : MixingInstance).props = {} ∧ (em.dressed config c : MixingInstance).sound = none := by
  have hsound : ∀ name value (x : MixingInstance), (x.setFloat name value).sound.isNone = x.sound.isNone := by
    intro name value x
    unfold MixingInstance.setFloat
    dsimp only
    split
    · exact Option.isNone_map
    split
    · exact Option.isNone_map
    · rfl
  constructor
  · have hprops : ∀ name value (x : MixingInstance), (x.setFloat name value).props = x.props :=
      fun name value x => (x.setFloat_same name value).2
    exact Params.dress_same MixingInstance.props hprops (fun _ _ _ => rfl) em.params _
  · exact Option.isNone_iff_eq_none.mp
      (Params.dress_same (fun x : MixingInstance => x.sound.isNone) hsound (fun _ _ _ => rfl) em.params _)

theorem dressed_fields (em : Emitter) (c : Cue) (config : Config) :
    (em.dressed config c : MixingInstance).event = c.event ∧
      (em.dressed config c : MixingInstance).receiver = some (c.receiver em.entity) ∧
      (em.dressed config c : MixingInstance).started = false := by
  obtain ⟨stopped, hst⟩ := em.status_dressed (X := MixingInstance) config c
  exact ⟨congrArg Status.event hst, congrArg Status.receiver hst, congrArg Status.started hst⟩

namespace Posted

variable {streams : InstanceId → Prop}

theorem cued (h : em.Posted c i r made begun r') (hl : Ledger r.toBackstage []) (hn : r.binding? i = none) :
    Heard i [] r.toBackstage (bindCue i c made).toBackstage := by
  have hmade : Heard i [] r.toBackstage made.toBackstage := by
    refine .silent ?_ ?_ (fun j _ => h.binding?_made j) h.making.quiet <;> rw [h.making.backstage]
  have hn' : made.binding? i = none := (h.binding?_made i).trans hn
  have hbound : Heard i [] made.toBackstage (bindCue i c made).toBackstage := by
    obtain ⟨-, hd, hk, -⟩ := bindCue_frame c (h.ledger_made hl) hn'
    refine .silent hd ?_ hk ?_ <;> rw [bindCue_fresh hn'] <;> cases c.file
    · rfl
    · rfl
    · exact .refl _
    · exact .say _ _ (by decide)
  exact hmade.trans hbound

theorem spent_cued (h : em.Posted c i r made begun r') (hn : r.binding? i = none) (hs : r.loader.Spent) :
    (bindCue i c made).loader.Spent := by
  have hmade : made.loader = r.loader := by rw [h.making.backstage]
  rw [bindCue_fresh ((h.binding?_made i).trans hn)]
  cases c.file <;> exact hmade ▸ hs

theorem reported (h : em.Posted c i r made begun r') {err : AudioError}
    (herr : ((bindCue i c made).start i).1 = .error err) :
    Reported ⟨.warn, "Audio: failed to start '" ++ c.event ++ "' on " ++ em.entity.text ++ ": " ++ err.message⟩
      ((bindCue i c made).start i).2.toBackstage r'.toBackstage := by
  refine Reported.before ?_ h.ending.quiet
  rw [h.beginning]
  rcases em.startOrSay_cases i c.event (bindCue i c made) with ⟨hok, -⟩ | ⟨err', herr', hsay⟩
  · cases hok.symm.trans herr
  · cases herr'.symm.trans herr
    rw [hsay]
    exact reported_say _ _ _

theorem settle (h : em.Posted c i r made begun r') (hl : Ledger r.toBackstage []) (hn : r.binding? i = none)
    (hc : Conducted streams r) {answers : List Answer} {x : MixingInstance}
    (hheard : Heard i answers (bindCue i c made).toBackstage ((bindCue i c made).start i).2.toBackstage)
    (hx : ((bindCue i c made).start i).2.instance? i = some x)
    (hspent : ((bindCue i c made).start i).2.loader.Spent)
    (hserved : Served i x answers ((bindCue i c made).start i).2) :
    Conducted (fun j => streams j ∨ x.receiver = some .bridge ∧ j = i) r' ∧
      Quiet r.toBackstage r'.toBackstage := by
  have hall := ((h.cued hl hn).trans hheard).wrote h.rest
  have he := h.entered hl hn
  have hx' := h.rest.own hx
  have hreceiver : (if c.keep then x else Playable.release x).receiver = x.receiver := by cases c.keep <;> rfl
  have hprops : (if c.keep then x else Playable.release x).props = x.props := by cases c.keep <;> rfl
  have hserved' := hserved.congr hreceiver hprops (h.rest.binding? i)
  refine ⟨?_, hall.quiet⟩
  rw [← hreceiver]
  exact hc.enter hall he.id he.others hx' he.issued (h.rest.loader ▸ hspent) hserved'

/-- The bridge serves what came in, and has loaded what it knows. -/
theorem settle_file (h : em.Posted c i r made begun r') (hl : Ledger r.toBackstage []) (hn : r.binding? i = none)
    (hc : Conducted streams r) {answers : List Answer} {x : MixingInstance} {b : Binding}
    (hheard : Heard i answers (bindCue i c made).toBackstage ((bindCue i c made).start i).2.toBackstage)
    (hx : ((bindCue i c made).start i).2.instance? i = some x)
    (hspent : ((bindCue i c made).start i).2.loader.Spent)
    (hb : ((bindCue i c made).start i).2.binding? i = some b) (ho : Opening i b.loaded answers)
    (hp : x.props.sound = b.loaded) (hr : x.receiver = some .bridge) :
    Conducted (fun j => streams j ∨ j = i) r' ∧ Quiet r.toBackstage r'.toBackstage ∧
      r'.instance? i = some (if c.keep then x else Playable.release x) ∧ r'.binding? i = some b := by
  have hserved : Served i x answers ((bindCue i c made).start i).2 :=
    ⟨by rw [hb]; exact hp, fun _ => ⟨b, hb, ho⟩, fun hne => absurd hr hne⟩
  obtain ⟨hcond, hquiet⟩ := h.settle hl hn hc hheard hx hspent hserved
  exact ⟨hcond.congr fun j => or_congr_right (and_iff_right hr), hquiet, h.rest.own hx,
    (h.rest.binding? i).trans hb⟩

theorem conducted_event (h : em.Posted c i r made begun r') (hl : Ledger r.toBackstage []) (hn : r.binding? i = none)
    (hc : Conducted streams r) (hf : c.file = none) :
    Conducted streams r' ∧ Quiet r.toBackstage r'.toBackstage := by
  obtain ⟨-, hreceiver, hstarted⟩ := em.dressed_fields c r.setting
  obtain ⟨hprops, -⟩ := em.dressed_bare c r.setting
  have hlifecycle : c.receiver em.entity = .lifecycle em.entity := by unfold Cue.receiver; rw [hf]
  rw [hlifecycle] at hreceiver
  obtain ⟨hheard, hloader, sound, hx⟩ := MixingEngine.start_lifecycle (h.poised hl hn) hstarted hreceiver hprops
  have hne : (em.dressed r.setting c : MixingInstance).receiver ≠ some .bridge := by rw [hreceiver]; simp
  have hnone : ((bindCue i c made).start i).2.binding? i = none := by
    refine (LawfulEngine.start_called (bindCue i c made) i (h.ledger_bound hl hn)).unmade ?_
    rw [bindCue_fresh ((h.binding?_made i).trans hn), hf]
    exact (h.binding?_made i).trans hn
  have hspent : ((bindCue i c made).start i).2.loader.Spent := hloader ▸ h.spent_cued hn hc.spent
  obtain ⟨hcond, hquiet⟩ := h.settle hl hn hc hheard hx hspent
    ⟨by rw [hnone, hprops]; rfl, fun hr => absurd hr hne, fun _ => rfl⟩
  exact ⟨hcond.congr fun j => or_iff_left fun hr => hne hr.1, hquiet⟩

/-- Before it starts, its file waits. -/
theorem binding?_bound (h : em.Posted c i r made begun r') (hn : r.binding? i = none) {file : Path}
    (hf : c.file = some file) :
    (bindCue i c made).binding? i = some ⟨file, .programmerSound, .awaitingLoad, none⟩ := by
  rw [bindCue_fresh ((h.binding?_made i).trans hn), hf]
  exact Table.get?_insert_self ..

/-- The debut of an instance that a file was posted for: the bridge serves it, and its file waits. -/
theorem debut (h : em.Posted c i r made begun r') (hl : Ledger r.toBackstage []) (hn : r.binding? i = none)
    {file : Path} (hf : c.file = some file) :
    (em.dressed r.setting c : MixingInstance).receiver = some .bridge ∧
      MixingEngine.Debut i (em.dressed r.setting c) ⟨file, .programmerSound, .awaitingLoad, none⟩ (bindCue i c made)
        ((bindCue i c made).start i).2 ((bindCue i c made).start i).1 := by
  obtain ⟨-, hreceiver, hstarted⟩ := em.dressed_fields c r.setting
  obtain ⟨hprops, -⟩ := em.dressed_bare c r.setting
  have hbridge : c.receiver em.entity = .bridge := by unfold Cue.receiver; rw [hf]
  rw [hbridge] at hreceiver
  have hb := h.binding?_bound hn hf
  have hmode : DecodeMode.programmerSound.contains .nonblocking = true := by decide
  exact ⟨hreceiver,
    MixingEngine.start_bridge (h.ledger_bound hl hn) (h.poised hl hn) hstarted hreceiver hprops hb rfl hmode⟩

/-- Whatever the start comes to, the binding is of the file that was posted. -/
theorem binding?_file (h : em.Posted c i r made begun r') (hl : Ledger r.toBackstage []) (hn : r.binding? i = none)
    {file : Path} (hf : c.file = some file) : (r'.binding? i).map Binding.path = some file := by
  rw [h.rest.binding?]
  obtain ⟨-, hdebut⟩ := h.debut hl hn hf
  cases hdebut with
  | ownFile _ hsame _ =>
    have hb : ((bindCue i c made).start i).2.binding? i = (bindCue i c made).binding? i :=
      congrArg (·.binding? i) hsame
    rw [hb, h.binding?_bound hn hf]
    rfl
  | silence _ _ _ _ hb _ _ => exact congrArg (Option.map Binding.path) hb
  | stream _ _ _ _ hb _ _ => exact congrArg (Option.map Binding.path) hb

/-- A file is posted: the bridge hears of it at most once, and if it loads the file, what it opens is
played or missed. -/
theorem conducted_file (h : em.Posted c i r made begun r') (hl : Ledger r.toBackstage []) (hn : r.binding? i = none)
    (hc : Conducted streams r) {file : Path} (hf : c.file = some file) :
    Conducted (fun j => streams j ∨ j = i) r' ∧ Quiet r.toBackstage r'.toBackstage ∧ Premiered (c.handle i) r r' := by
  obtain ⟨hevent, -, -⟩ := em.dressed_fields c r.setting
  obtain ⟨hprops, hsilent⟩ := em.dressed_bare c r.setting
  have hb := h.binding?_bound hn hf
  have hspent := h.spent_cued hn hc.spent
  obtain ⟨hreceiver, hdebut⟩ := h.debut hl hn hf
  cases hdebut with
  | ownFile hown hsame hx =>
    have hheard : Heard i [] (bindCue i c made).toBackstage ((bindCue i c made).start i).2.toBackstage := by
      rw [hsame]
      exact .refl i _
    have hspent' := (congrArg (·.loader.Spent) hsame).mpr hspent
    obtain ⟨hcond, hquiet, hx', hb'⟩ := h.settle_file hl hn hc hheard hx hspent'
      ((congrArg (·.binding? i) hsame).trans hb) .unasked (congrArg Props.sound hprops) hreceiver
    exact ⟨hcond, hquiet, _, _, hx', hb', fun y hy => by cases hy⟩
  | silence hown hopen hres hheard hb' hloader hx =>
    obtain ⟨hcond, hquiet, hx', hb'⟩ := h.settle_file hl hn hc hheard hx (hloader ▸ hspent) hb' .failed
      (congrArg Props.sound hprops) hreceiver
    exact ⟨hcond, hquiet, _, _, hx', hb', fun y hy => by cases hy⟩
  | @stream recording y sound hown hopen hhanded hheard hb' hsounds hx =>
    obtain ⟨hcond, hquiet, hx', hb'⟩ := h.settle_file hl hn hc hheard hx (hspent.of_take hsounds) hb' (.loaded y) rfl
      hreceiver
    refine ⟨hcond, hquiet, _, _, hx', hb', fun _ _ => ⟨recording, ?_, ?_⟩⟩
    · rw [(h.entered hl hn).disk, ← (h.cued hl hn).disk]
      exact hopen
    · rcases hhanded with ⟨-, rfl⟩ | ⟨herr, rfl⟩
      · left
        cases c.keep <;> rfl
      · right
        have hreported := (h.reported herr).after ((h.cued hl hn).trans hheard).quiet
        rw [hevent] at hreported
        exact ⟨by cases c.keep <;> exact hsilent, em.entity, hreported⟩

theorem conducted (h : em.Posted c i r made begun r') (hl : Ledger r.toBackstage []) (hn : r.binding? i = none)
    (hc : Conducted streams r) :
    Conducted (fun j => streams j ∨ c.file.isSome = true ∧ j = i) r' ∧ Quiet r.toBackstage r'.toBackstage ∧
      (c.file.isSome = true → Premiered (c.handle i) r r') := by
  cases hf : c.file with
  | none =>
    obtain ⟨hcond, hquiet⟩ := h.conducted_event hl hn hc hf
    exact ⟨hcond.congr fun j => by simp, hquiet, fun hfalse => by cases hfalse⟩
  | some file =>
    obtain ⟨hcond, hquiet, hp⟩ := h.conducted_file hl hn hc hf
    exact ⟨hcond.congr fun j => by simp, hquiet, fun _ => hp⟩

end Posted

end Emitter

end Soundstage
