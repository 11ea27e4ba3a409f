import Soundstage.Proofs.CommandLine.Outcomes
import Soundstage.Proofs.Engine.Mirror
import Soundstage.Proofs.System.Tables

/-!
# Posts go through or not

There are four ways to post for an entity, and all of them let its emitter play a cue (`Posting.perform_eq`). Of the
calls that this makes of the engine only the first one decides: if the engine refuses to create the instance, nothing
has happened, but that the entity may have been given an emitter (`Declined`). If not, the instance is tracked and
started whatever else is refused, and it has the file that was posted (`Admitted`). Main statement:
`posts_go_through_or_not`, for both engines and at every point of every run.
-/

namespace Soundstage

open Playable Staged

/-! ### Ways to post -/

inductive Posting
  | event (name : String) (keep : Bool)
  | file (template : String) (path : Path) (keep : Bool)
  | custom (path : Path) (looping keep : Bool)
  | voice (key : String)

namespace Posting

def request (p : Posting) (entity : EntityId) : Request :=
  match p with
  | .event name keep => .post entity name keep
  | .file template path keep => .postFile entity template path keep
  | .custom path looping keep => .postCustom entity path looping keep
  | .voice key => .postVoice entity key

/-- What an emitter is asked to play. -/
def cue (p : Posting) (config : Config) (em : Emitter) : Cue :=
  match p with
  | .event name keep => ⟨name, none, keep⟩
  | .file template path keep => ⟨template, some path, keep⟩
  | .custom path looping keep => ⟨config.template looping, some path, keep⟩
  | .voice key => ⟨em.voice.event config.voiceBank key, none, false⟩

variable {E L : Type} [Loader L] [Engine E L]

theorem perform_eq (p : Posting) (entity : EntityId) (s : System E L) :
    (p.request entity).perform s = s.address entity fun em => em.play (p.cue s.config em) := by
  cases p <;> rfl

end Posting

/-! ### Addressing an entity -/

namespace System

section

variable {E L : Type} {s : System E L} {entity : EntityId}

/-- The emitter of an entity, a new one if it has none. -/
def poster (s : System E L) (entity : EntityId) : Emitter := (s.emitter? entity).getD (.ofEntity entity)

theorem resolve_fst (s : System E L) (entity : EntityId) : (s.resolve entity).1 = s.poster entity := by
  unfold resolve poster
  cases s.emitter? entity <;> rfl

/-- An emitter may have been made, and that is all. -/
structure Resolved (s : System E L) (entity : EntityId) (s' : System E L) : Prop where
  emitterOf : ∀ o, o ≠ .entity entity → s'.emitterOf o = s.emitterOf o
  config : s'.config = s.config
  listener : s'.listener = s.listener

theorem resolve_resolved (s : System E L) (entity : EntityId) : s.Resolved entity (s.resolve entity).2 := by
  unfold resolve
  cases s.emitter? entity with
  | some em => exact ⟨fun _ _ => rfl, rfl, rfl⟩
  | none => exact ⟨fun o ho => (emitterOf_withEmitter _ _ _ o).trans (if_neg ho), rfl, rfl⟩

theorem resolve_wrote {X S : Type} [Staged E X S] (s : System E L) (entity : EntityId) :
    Wrote (fun _ x => x) s.rig (s.resolve entity).2.rig := by
  unfold resolve
  cases s.emitter? entity with
  | some em => exact .refl s.rig
  | none => exact .say s.rig .debug _ (by decide)

/-- What an emitter makes of the rig when it is addressed; it is put back, and no other is touched. -/
structure Addressed {α : Type} (s : System E L) (entity : EntityId) (act : α × Emitter × Rig E L)
    (c : α × System E L) : Prop where
  answer : c.1 = act.1
  rig : c.2.rig = act.2.2
  emitterOf : ∀ o, c.2.emitterOf o = if o = .entity entity then some act.2.1 else s.emitterOf o
  config : c.2.config = s.config
  listener : c.2.listener = s.listener

theorem address_addressed {α : Type} (s : System E L) (entity : EntityId)
    (act : Emitter → Rig E L → α × Emitter × Rig E L) :
    s.Addressed entity (act (s.poster entity) (s.resolve entity).2.rig) (s.address entity act) := by
  have hr := s.resolve_resolved entity
  unfold address
  dsimp only
  rw [resolve_fst]
  generalize act (s.poster entity) (s.resolve entity).2.rig = c
  refine ⟨rfl, rfl, fun o => ?_, hr.config, hr.listener⟩
  rw [emitterOf_withEmitter]
  split
  · rfl
  · exact hr.emitterOf o ‹_›

end

end System

/-! ### What a post comes to -/

theorem Emitter.play_isSome_iff {E L : Type} [Loader L] [Engine E L] (em : Emitter) (c : Cue) (r : Rig E L) :
    (em.play c r).1.isSome = true ↔ ∃ i, (Engine.create c.event r.engine).1 = .ok i := by
  obtain ⟨event, file, keep⟩ := c
  cases file with
  | none => exact em.post_isSome_iff event keep r
  | some file => exact em.postFile_isSome_iff event file keep r

section

variable {E L X S : Type} [Staged E X S]

/-- Nothing was posted for `entity`. All that may be new are a listener of the engine, lines in the journal, and an
emitter that tracks nothing. -/
structure Declined (entity : EntityId) (s s' : System E L) : Prop where
  instances : ∀ i, s'.rig.instance? i = s.rig.instance? i
  issued : s'.rig.issued = s.rig.issued
  backstage : s'.rig.toBackstage = { s.rig.toBackstage with journal := s'.rig.journal }
  emitters : ∀ o, s'.emitterOf o = if o = .entity entity then some (s.poster entity) else s.emitterOf o
  config : s'.config = s.config
  listener : s'.listener = s.listener

/-- The cue was posted for `entity`, and `g` is the handle of its instance. -/
structure Admitted [Playable X S] (entity : EntityId) (c : Cue) (s : System E L) (g : Handle) (s' : System E L) :
    Prop where
  handle : g = c.handle ⟨s.rig.issued + 1⟩
  issued : s'.rig.issued = s.rig.issued + 1
  emitters : ∀ o, s'.emitterOf o = if o = .entity entity then
    some { s.poster entity with handles := (s.poster entity).handles ++ [g] } else s.emitterOf o
  /-- It is there, it counts as started, and it was given up unless it is kept. -/
  own : ∃ x, s'.rig.instance? g.instanceId = some x ∧ (status x).event = c.event ∧ (status x).started = true ∧
    (status x).released = !c.keep
  /-- What is bound to it is the file that was posted. -/
  bound : (s'.rig.binding? g.instanceId).map Binding.path = c.file
  others : ∀ j, j ≠ g.instanceId → s'.rig.instance? j = s.rig.instance? j ∧ s'.rig.binding? j = s.rig.binding? j
  config : s'.config = s.config
  listener : s'.listener = s.listener

/-- Posts of an engine bind what they are given, whatever its start makes of that. -/
def BindsFiles (E L X S : Type) [Loader L] [Engine E L] [Staged E X S] [Playable X S] [LawfulLoader L] : Prop :=
  ∀ {em : Emitter} {c : Cue} {i : InstanceId} {r made begun r' : Rig E L}, em.Posted c i r made begun r' →
    Ledger r.toBackstage [] → r.binding? i = none → (r'.binding? i).map Binding.path = c.file

end

theorem ScriptedEngine.bindsFiles : BindsFiles ScriptedEngine ScriptedLoader ScriptedInstance (List String) := by
  intro em c i r made begun r' hp hl hn
  rw [Mirrored.binding?_entered hp hn, Option.map_map]
  exact Option.map_id'

theorem MixingEngine.bindsFiles : BindsFiles MixingEngine StreamingLoader MixingInstance Config := by
  intro em c i r made begun r' hp hl hn
  cases hf : c.file with
  | some file => exact hp.binding?_file hl hn hf
  | none =>
    have hunbound : r'.binding? i = none := by
      refine Classical.byContradiction fun hb => ?_
      have := (hp.entered hl hn).bound hb
      rw [hf] at this
      cases this
    rw [hunbound]
    rfl

/-- A post either goes through, or the engine has refused to create the instance and nothing has happened. -/
structure Settled {E L X S V : Type} [Loader L] [Engine E L] [Staged E X S] [Playable X S]
    (refuses : String → E → Prop) (run : List (Turn V) → System E L) (turns : List (Turn V)) (entity : EntityId)
    (p : Posting) : Prop where
  refused : ((p.request entity).perform (run turns)).1 = none ↔
    refuses (p.cue (run turns).config ((run turns).poster entity)).event (run turns).rig.engine
  declined : ((p.request entity).perform (run turns)).1 = none →
    Declined entity (run turns) ((p.request entity).perform (run turns)).2
  admitted : ∀ {g}, ((p.request entity).perform (run turns)).1 = some g →
    Admitted entity (p.cue (run turns).config ((run turns).poster entity)) (run turns) g
      ((p.request entity).perform (run turns)).2
  /-- No instance has had its number before. -/
  unused : ∀ {before after g}, turns = before ++ after → ((p.request entity).perform (run turns)).1 = some g →
    (run before).rig.isValid g.instanceId = false

theorem Declined.of_addressed {E L X S : Type} [Staged E X S] {s : System E L} {entity : EntityId} {a : Option Handle}
    {r : Rig E L} {out : Option Handle × System E L} (h : s.Addressed entity (a, s.poster entity, r) out)
    (hw : Wrote (fun _ x => x) s.rig r) : Declined entity s out.2 := by
  refine ⟨fun i => ?_, ?_, ?_, h.emitterOf, h.config, h.listener⟩ <;> rw [h.rig]
  · exact (hw.instances i).trans Option.map_id'
  · exact hw.issued
  · exact hw.backstage

section

variable {E L X S V : Type} [Loader L] [LawfulLoader L] [Engine E L] [Staged E X S] [Playable X S]
  [LawfulEngine E L X S] {s : System E L} {entity : EntityId} {c : Cue}

theorem Admitted.of_addressed (hbinds : BindsFiles E L X S) (ho : Orderly s.view) {a : Option Handle} {i : InstanceId}
    {r₀ made begun r : Rig E L} {out : Option Handle × System E L}
    (h : s.Addressed entity
      (a, { s.poster entity with handles := (s.poster entity).handles ++ [c.handle i] }, r) out)
    (hw : Wrote (fun _ x => x) s.rig r₀) (hp : (s.poster entity).Posted c i r₀ made begun r) :
    Admitted entity c s (c.handle i) out.2 := by
  have ho₀ : Orderly (s.view.withRig r₀) := ho.move (.calm hw)
  have he : (s.poster entity).Entered c i r₀ r := ho₀.entered hp
  obtain ⟨x, hx, hfit⟩ := Orderly.fits_entered (v := s.view.withRig r₀) he
  have hbound := hbinds hp ho₀.ledger (hp.making.id ▸ ho₀.binding?_next)
  refine ⟨?_, ?_, h.emitterOf, ?_, ?_, fun j hj => ?_, h.config, h.listener⟩
  · rw [he.id, hw.issued]
  · rw [h.rig, he.issued, hw.issued]
  · rw [h.rig]
    exact ⟨x, hx, hfit.event, hfit.started, hfit.released⟩
  · rw [h.rig]
    exact hbound
  · rw [h.rig, he.others j hj, he.kept j hj, hw.binding?]
    exact ⟨(hw.instances j).trans Option.map_id', rfl⟩

theorem Posting.goes_through_or_not (hbinds : BindsFiles E L X S) (ho : Orderly s.view) (entity : EntityId)
    (p : Posting) : let c := p.cue s.config (s.poster entity)
    let out := (p.request entity).perform s
    (out.1 = none ↔ ¬∃ i, (Engine.create c.event s.rig.engine).1 = .ok i) ∧
      (out.1 = none ∧ Declined entity s out.2 ∨ ∃ g, out.1 = some g ∧ Admitted entity c s g out.2) := by
  intro c out
  have haddressed := s.address_addressed entity fun em => em.play (p.cue s.config em)
  rw [← p.perform_eq] at haddressed
  change s.Addressed entity ((s.poster entity).play c (s.resolve entity).2.rig) out at haddressed
  have hresolved := s.resolve_wrote entity
  constructor
  · rw [← s.resolve_engine entity, ← (s.poster entity).play_isSome_iff, ← haddressed.answer]
    simp
  · rcases (s.poster entity).play_cases c (s.resolve entity).2.rig with
      ⟨r, hplay, hw⟩ | ⟨i, r₀, made, begun, r, hw, hplay, hposted⟩ <;> rw [hplay] at haddressed
    · exact .inl ⟨haddressed.answer, .of_addressed haddressed (hresolved.trans hw)⟩
    · exact .inr ⟨_, haddressed.answer, .of_addressed hbinds ho haddressed (hresolved.trans hw) hposted⟩

theorem Settled.of_tabled (hbinds : BindsFiles E L X S) {refuses : String → E → Prop}
    (hrefuses : ∀ event (e : E), refuses event e ↔ ¬∃ i, (Engine.create event e).1 = .ok i)
    {run : List (Turn V) → System E L} {turns : List (Turn V)} (ho : Orderly (run turns).view) (ht : Tabled run turns)
    (entity : EntityId) (p : Posting) : Settled refuses run turns entity p := by
  obtain ⟨hnone, hends⟩ := p.goes_through_or_not hbinds ho entity
  refine ⟨?_, fun ha => ?_, fun {g} ha => ?_, fun hturns ha => ht.unused hturns ha⟩
  · rw [hrefuses]
    exact hnone
  · rcases hends with ⟨-, hdeclined⟩ | ⟨g, hg, -⟩
    · exact hdeclined
    · cases ha.symm.trans hg
  · rcases hends with ⟨hn, -⟩ | ⟨g', hg, hadmitted⟩
    · cases ha.symm.trans hn
    · cases ha.symm.trans hg
      exact hadmitted

end

/-! ### What the engines refuse -/

theorem ScriptedEngine.create_refused_iff (event : String) (e : ScriptedEngine) :
    event ∉ e.events ↔ ¬∃ i, (Engine.create (L := ScriptedLoader) event e).1 = .ok i := by
  refine not_congr ?_
  change _ ↔ ∃ i, (ScriptedEngine.create event e).1 = .ok i
  unfold create
  split <;> simp [*]

/-- A mixing engine refuses what it does not know, and everything where there is no device or that has no place for
another track, or none for the listener that the first track needs. -/
def MixingEngine.Refuses (event : String) (e : MixingEngine) : Prop :=
  e.config.event? event = none ∨ e.device = none ∨ ∃ d, e.device = some d ∧
    (e.listener = none ∧ Device.listenerLimit ≤ d.listeners.taken ∨ Device.trackLimit ≤ d.tracks.taken)

theorem MixingEngine.create_refused_iff (event : String) (e : MixingEngine) :
    e.Refuses event ↔ ¬∃ i, (Engine.create (L := StreamingLoader) event e).1 = .ok i := by
  change _ ↔ ¬∃ i, (MixingEngine.create event e).1 = .ok i
  unfold Refuses create
  cases e.config.event? event with
  | none => simp
  | some definition =>
    unfold ensureListener createListener takeTrack
    cases hd : e.device with
    | none => cases e.listener <;> simp [hd]
    | some d =>
      -- the listener comes first, and takes no track
      by_cases hl : d.listeners.taken < Device.listenerLimit <;> by_cases ht : d.tracks.taken < Device.trackLimit <;>
        cases e.listener <;> simp [hd, hl, ht, Places.take?, Nat.le_of_not_lt, Nat.not_le_of_lt]

/-- Posts go through or not. At every point of every run of a system, whichever of the two engines it has, and in
each of the ways to post, no handle is answered just if the engine refuses to create the instance, and then nothing
has happened; and a handle is answered for an instance that is new, there, started and tracked last, whatever else was
refused on the way, and that has the file that was posted. -/
theorem posts_go_through_or_not :
    (∀ events config files disk turns entity p,
      Settled (fun event e => event ∉ e.events) (scriptedRun events config files disk) turns entity p) ∧
    ∀ own device config disk turns entity p,
      Settled MixingEngine.Refuses (mixingRun own device config disk) turns entity p := by
  constructor
  · intro events config files disk turns
    refine .of_tabled ScriptedEngine.bindsFiles ScriptedEngine.create_refused_iff
      (scriptedRun_orderly events config files disk turns) ?_
    refine .of_drifts ScriptedEvent.drift (scriptedRun_orderly events config files disk []) (fun o => ?_) turns
    cases o <;> rfl
  · intro own device config disk turns
    refine .of_tabled MixingEngine.bindsFiles MixingEngine.create_refused_iff
      (mixingRun_orderly own device config disk turns) ?_
    refine .of_drifts MixingEvent.drift (mixingRun_orderly own device config disk []) (fun o => ?_) turns
    cases o <;> rfl

end Soundstage
