import Soundstage.Proofs.Emitter.Acts

/-!
# Posting

The way of an instance from its creation to its start. `Made` says that one instance came in and the
others stayed; what is written to it before it starts is part of what came in, so `prepare` leaves
an instance that is dressed with the place and the parameters of its emitter. `Posted` strings the
four stages together: made, bound to its file if there is one, started, and given up unless it is
kept.
-/

namespace Soundstage

open Playable Staged

/-- What an emitter is asked to play: an event, or a file through an event. -/
structure Cue where
  event : String
  file : Option Path
  keep : Bool

namespace Cue

/-- Who is told about the instance. -/
def receiver (c : Cue) (entity : EntityId) : Receiver :=
  match c.file with
  | none => .lifecycle entity
  | some _ => .bridge

def handle (c : Cue) (i : InstanceId) : Handle := ⟨i, c.event, c.file.isSome, !c.keep⟩

theorem receiver_eq_bridge {c : Cue} {entity : EntityId} : c.receiver entity = .bridge ↔ c.file.isSome = true := by
  unfold receiver
  cases c.file <;> simp

end Cue

/-! ### Parameters -/

namespace Params

section

variable {X S : Type} [Playable X S]

/-- Write every value: the numbers by name, then the labels by name. -/
def dress (p : Params) (x : X) : X :=
  p.labels.entries.foldl (fun x e => Playable.setLabel e.1 e.2 x)
    (p.floats.entries.foldl (fun x e => Playable.setFloat e.1 e.2 x) x)

theorem dress_same {α : Type} (obs : X → α) (hf : ∀ name value x, obs (Playable.setFloat name value x) = obs x)
    (hl : ∀ name label x, obs (Playable.setLabel name label x) = obs x) (p : Params) (x : X) :
    obs (p.dress x) = obs x := by
  refine List.foldlRecOn (motive := fun y => obs y = obs x) _ _ ?_ fun y hy e _ => (hl e.1 e.2 y).trans hy
  exact List.foldlRecOn (motive := fun y => obs y = obs x) _ _ rfl fun y hy e _ => (hf e.1 e.2 y).trans hy

@[simp]
theorem status_dress (p : Params) (x : X) : status (p.dress x) = status x :=
  dress_same status status_setFloat status_setLabel p x

end

variable {E L X S : Type} [Loader L] [LawfulLoader L] [Engine E L] [Staged E X S] [Playable X S]
  [LawfulEngine E L X S]

theorem applyTo_wrote (p : Params) (i : InstanceId) (r : Rig E L) :
    Wrote (onEach [i] p.dress) r (p.applyTo i r) := by
  have floats : ∀ (r : Rig E L) (e : String × Float32),
      Wrote (onEach [i] (Playable.setFloat e.1 e.2)) r (writeFloat i r e) :=
    fun r e => .attempt r _ (LawfulEngine.setFloat r.engine i e.1 e.2)
  have labels : ∀ (r : Rig E L) (e : String × String),
      Wrote (onEach [i] (Playable.setLabel e.1 e.2)) r (writeLabel i r e) :=
    fun r e => .attempt r _ (LawfulEngine.setLabel r.engine i e.1 e.2)
  refine ((Wrote.foldl_same floats p.floats.entries r).trans (.foldl_same labels p.labels.entries _)).congr
    fun {j x} _ => ?_
  unfold onEach
  split <;> rfl

end Params

/-! ### One instance came in -/

/-- `x` came in as `i`. -/
structure Made {E L X S : Type} [Staged E X S] (i : InstanceId) (x : X) (r r' : Rig E L) : Prop where
  id : i = ⟨r.issued + 1⟩
  issued : r'.issued = r.issued + 1
  setting : r'.setting = r.setting
  instances : ∀ j, r'.instance? j = if j = i then some x else r.instance? j
  backstage : r'.toBackstage = { r.toBackstage with journal := r'.journal }
  quiet : Backstage.Quiet r.toBackstage r'.toBackstage

namespace Made

variable {E L X S : Type} [Staged E X S] {i : InstanceId} {x : X} {g : X → X} {r r' r'' : Rig E L}

theorem wrote (h : Made i x r r') (hw : Wrote (onEach [i] g) r' r'') : Made i (g x) r r'' := by
  refine ⟨h.id, hw.issued.trans h.issued, hw.setting.trans h.setting, fun j => ?_, ?_, h.quiet.trans hw.quiet⟩
  · split
    · subst j
      exact hw.own (by rw [h.instances, if_pos rfl])
    · rw [hw.others (by simpa using ‹_›), h.instances, if_neg ‹_›]
  · rw [hw.backstage, h.backstage]

theorem self (h : Made i x r r') : r'.instance? i = some x := by rw [h.instances, if_pos rfl]

end Made

/-! ### The stages of a post -/

namespace Emitter

section

variable {X S : Type} [Playable X S]

/-- An instance as its emitter has it start. -/
def dressed (em : Emitter) (s : S) (c : Cue) : X :=
  em.params.dress (Playable.place em.attributes (receive (c.receiver em.entity) (fresh s c.event)))

theorem status_dressed (em : Emitter) (s : S) (c : Cue) : ∃ stopped, status (em.dressed s c : X) =
    ⟨c.event, some (c.receiver em.entity), false, false, stopped⟩ := by
  obtain ⟨stopped, h⟩ := status_fresh (X := X) s c.event
  exact ⟨stopped, by simp [dressed, h]⟩

end

section

variable {E L : Type}

theorem checkFile_wrote {X S : Type} [Staged E X S] (em : Emitter) (file : Path) (r : Rig E L) :
    Wrote (fun _ x => x) r (em.checkFile file r) := by
  unfold checkFile
  split
  · exact .refl r
  · exact .say r .warn _ (by decide)

variable [Loader L]

/-- Bind the file of a cue, if there is one. -/
def bindCue (i : InstanceId) (c : Cue) (r : Rig E L) : Rig E L :=
  match c.file with
  | none => r
  | some file => bindFile i file r

/-- A file is bound to an instance that has no binding yet. -/
theorem bindCue_fresh {i : InstanceId} {r : Rig E L} (h : r.binding? i = none) (c : Cue) : bindCue i c r =
    match c.file with
    | none => r
    | some file => r.withBackstage ((r.toBackstage.sayMove i .unbound .awaitingLoad).withTable
        (r.bridge.table.insert i ⟨file, .programmerSound, .awaitingLoad, none⟩)) := by
  unfold bindCue
  split
  · rfl
  · unfold bindFile
    rw [Backstage.bind_fresh h]

theorem bindCue_frame [LawfulLoader L] {i : InstanceId} {r : Rig E L} (c : Cue) (hl : Ledger r.toBackstage [])
    (hn : r.binding? i = none) : (bindCue i c r).engine = r.engine ∧ (bindCue i c r).disk = r.disk ∧
      (∀ j, j ≠ i → (bindCue i c r).binding? j = r.binding? j) ∧
      ((bindCue i c r).binding? i ≠ none → c.file.isSome = true) ∧ Ledger (bindCue i c r).toBackstage [] := by
  rw [bindCue_fresh hn]
  cases c.file with
  | none => exact ⟨rfl, rfl, fun _ _ => rfl, fun hb => absurd hn hb, hl⟩
  | some file =>
    have h := hl.bind i file .programmerSound
    rw [Backstage.bind_fresh hn] at h
    exact ⟨rfl, rfl, fun j hj => Table.get?_insert_of_ne _ _ hj, fun _ => rfl, h⟩

/-- What a start that failed leaves behind is a line in the journal. -/
theorem startOrSay_cases [Engine E L] (em : Emitter) (i : InstanceId) (event : String) (r : Rig E L) :
    (r.start i).1 = .ok () ∧ em.startOrSay i event r = (r.start i).2 ∨
      ∃ err, (r.start i).1 = .error err ∧ em.startOrSay i event r = (r.start i).2.say .warn
        ("Audio: failed to start '" ++ event ++ "' on " ++ em.entity.text ++ ": " ++ err.message) := by
  unfold startOrSay
  generalize r.start i = c
  obtain ⟨result, r'⟩ := c
  cases result with
  | ok _ => exact .inl ⟨rfl, rfl⟩
  | error err => exact .inr ⟨err, rfl, rfl⟩

end

section

variable {E L X S : Type} [Loader L] [Engine E L] [Staged E X S] [Playable X S]

/-- The instance `i` was made, bound, started, and given up unless it is kept. -/
structure Posted (em : Emitter) (c : Cue) (i : InstanceId) (r made begun r' : Rig E L) : Prop where
  making : Made i (em.dressed r.setting c) r made
  beginning : begun = em.startOrSay i c.event (bindCue i c made)
  ending : Wrote (onEach [i] fun x => if c.keep then x else Playable.release x) begun r'

/-- Post an event, or a file if there is one. -/
def play (em : Emitter) (c : Cue) (r : Rig E L) : Option Handle × Emitter × Rig E L :=
  match c.file with
  | none => em.post c.event c.keep r
  | some file => em.postFile c.event file c.keep r

/-- A handle says whether the instance was made for a file. -/
theorem fileBacked_play {em : Emitter} {c : Cue} {r : Rig E L} {g : Handle} (hg : (em.play c r).1 = some g) :
    g.fileBacked = c.file.isSome := by
  obtain ⟨event, file, keep⟩ := c
  cases file with
  | none =>
    dsimp only [Emitter.play] at hg
    unfold Emitter.post at hg
    split at hg <;> cases hg
    rfl
  | some file =>
    dsimp only [Emitter.play] at hg
    unfold Emitter.postFile at hg
    split at hg <;> cases hg
    rfl

namespace Posted

variable {em : Emitter} {c : Cue} {i : InstanceId} {r made begun r' : Rig E L}

theorem binding?_made (h : em.Posted c i r made begun r') (j : InstanceId) : made.binding? j = r.binding? j := by
  rw [h.making.backstage]
  rfl

theorem rest (h : em.Posted c i r made begun r') :
    Wrote (onEach [i] fun x => if c.keep then x else Playable.release x) ((bindCue i c made).start i).2 r' := by
  have hsaid : Wrote (fun _ x => x) ((bindCue i c made).start i).2 begun := by
    rw [h.beginning]
    rcases em.startOrSay_cases i c.event (bindCue i c made) with ⟨-, hs⟩ | ⟨err, -, hs⟩ <;> rw [hs]
    · exact .refl _
    · exact .say _ _ _ (by decide)
  exact hsaid.trans h.ending

theorem ledger_made [LawfulLoader L] (h : em.Posted c i r made begun r') (hl : Ledger r.toBackstage []) :
    Ledger made.toBackstage [] := by
  rw [h.making.backstage]
  exact hl.congr rfl rfl

theorem ledger_bound [LawfulLoader L] (h : em.Posted c i r made begun r') (hl : Ledger r.toBackstage [])
    (hn : r.binding? i = none) : Ledger (bindCue i c made).toBackstage [] := by
  obtain ⟨-, -, -, -, hbound⟩ := bindCue_frame c (h.ledger_made hl) ((h.binding?_made i).trans hn)
  exact hbound

/-- When it starts, the instance is as its emitter has it. -/
theorem poised [LawfulLoader L] (h : em.Posted c i r made begun r') (hl : Ledger r.toBackstage [])
    (hn : r.binding? i = none) : (bindCue i c made).instance? i = some (em.dressed r.setting c) := by
  obtain ⟨he, -⟩ := bindCue_frame c (h.ledger_made hl) ((h.binding?_made i).trans hn)
  unfold Rig.instance?
  rw [he]
  exact h.making.self

end Posted

end

variable {E L X S : Type} [Loader L] [LawfulLoader L] [Engine E L] [Staged E X S] [Playable X S]
  [LawfulEngine E L X S]

theorem create_cases (em : Emitter) (event : String) (r : Rig E L) :
    (∃ r', em.create event r = (none, r') ∧ Wrote (fun _ x => x) r r') ∨
      ∃ i r', em.create event r = (some i, r') ∧ Made i (fresh r.setting event) r r' := by
  unfold create Rig.create
  cases hc : Engine.create event r.engine with
  | mk result e =>
    cases result with
    | error err =>
      obtain ⟨hi, hs, ht⟩ := LawfulEngine.create_error hc
      have same : Wrote (fun _ x => x) r { r with engine := e } :=
        ⟨fun j => (ht j).trans Option.map_id'.symm, hi, hs, rfl, .refl _⟩
      exact .inl ⟨_, rfl, same.then_say _ (by decide)⟩
    | ok i =>
      obtain ⟨hid, hi, hs, ht⟩ := LawfulEngine.create_ok hc
      exact .inr ⟨i, _, rfl, hid, hi, hs, ht, rfl, .refl _⟩

theorem prepare_made (em : Emitter) (c : Cue) {i : InstanceId} {r r' : Rig E L}
    (h : Made i (fresh r.setting c.event) r r') :
    Made i (em.dressed r.setting c) r (em.prepare i (register i (c.receiver em.entity) r')) :=
  ((h.wrote (register_wrote i (c.receiver em.entity) r')).wrote (em.place_wrote i _)).wrote
    (em.params.applyTo_wrote i _)

theorem launch_posted {em : Emitter} {c : Cue} {i : InstanceId} {r made : Rig E L}
    (h : Made i (em.dressed r.setting c) r made) :
    ∃ begun r', em.launch i c.event c.file.isSome c.keep (bindCue i c made) =
        (c.handle i, { em with handles := em.handles ++ [c.handle i] }, r') ∧
      em.Posted c i r made begun r' := by
  refine ⟨_, _, rfl, h, rfl, ?_⟩
  cases c.keep
  · exact release_wrote i _
  · exact (Wrote.refl _).congr fun {j x} _ => (onEach_id [i] j x).symm

/-- An instance came in, as its emitter has it and started; all else that a post touched is its own. -/
structure Entered (em : Emitter) (c : Cue) (i : InstanceId) (r r' : Rig E L) : Prop where
  id : i = ⟨r.issued + 1⟩
  issued : r'.issued = r.issued + 1
  setting : r'.setting = r.setting
  disk : r'.disk = r.disk
  others : ∀ j, j ≠ i → r'.instance? j = r.instance? j
  own : ∃ x, Begun (em.dressed r.setting c) x ∧
    r'.instance? i = some (if c.keep then x else Playable.release x)
  kept : ∀ j, j ≠ i → r'.binding? j = r.binding? j
  bound : r'.binding? i ≠ none → c.file.isSome = true
  ledger : Ledger r'.toBackstage []

omit [Engine E L] [LawfulEngine E L X S] in
theorem Entered.ne_of_le {em : Emitter} {c : Cue} {i j : InstanceId} {r r' : Rig E L} (h : em.Entered c i r r')
    (hj : j.val ≤ r.issued) : j ≠ i := by
  rintro rfl
  have hid := congrArg InstanceId.val h.id
  dsimp only at hid
  omega

namespace Posted

variable {em : Emitter} {c : Cue} {i : InstanceId} {r made begun r' : Rig E L}

theorem entered (h : em.Posted c i r made begun r') (hl : Ledger r.toBackstage []) (hn : r.binding? i = none) :
    em.Entered c i r r' := by
  obtain ⟨he, hd, hk, hb, -⟩ := bindCue_frame c (h.ledger_made hl) ((h.binding?_made i).trans hn)
  obtain ⟨x, hx, hbegun⟩ := LawfulEngine.start_begun (h.poised hl hn)
  have hcalled := LawfulEngine.start_called (bindCue i c made) i (h.ledger_bound hl hn)
  have hrest := h.rest
  refine ⟨h.making.id, ?_, ?_, ?_, fun j hj => ?_, ⟨x, hbegun, ?_⟩, fun j hj => ?_, fun hne => ?_, ?_⟩
  · rw [hrest.issued]
    refine (LawfulEngine.start_issued (bindCue i c made) i).trans ?_
    rw [← h.making.issued]
    exact congrArg Staged.issued he
  · rw [hrest.setting]
    refine (LawfulEngine.start_setting (bindCue i c made) i).trans ?_
    rw [← h.making.setting]
    exact congrArg Staged.setting he
  · rw [hrest.disk]
    refine hcalled.disk.trans (hd.trans ?_)
    rw [h.making.backstage]
  · rw [hrest.others (by simpa using hj)]
    refine (LawfulEngine.start_others (bindCue i c made) i j hj).trans ?_
    unfold Rig.instance?
    rw [he]
    exact (h.making.instances j).trans (if_neg hj)
  · exact hrest.own hx
  · exact (hrest.binding? j).trans ((hcalled.others j hj).trans ((hk j hj).trans (h.binding?_made j)))
  · rw [hrest.binding?] at hne
    exact hb (hcalled.made hne)
  · exact hrest.ledger hcalled.ledger

end Posted

/-- Either nothing was created, or the instance was posted and its handle is the last one. -/
theorem play_cases (em : Emitter) (c : Cue) (r : Rig E L) :
    (∃ r', em.play c r = (none, em, r') ∧ Wrote (fun _ x => x) r r') ∨
      ∃ i r₀ made begun r', Wrote (fun _ x => x) r r₀ ∧ em.play c r =
        (some (c.handle i), { em with handles := em.handles ++ [c.handle i] }, r') ∧
          em.Posted c i r₀ made begun r' := by
  obtain ⟨event, file, keep⟩ := c
  cases file with
  | none =>
    dsimp only [play]
    unfold post
    rcases em.create_cases event r with ⟨r', hc, hw⟩ | ⟨i, r', hc, hm⟩ <;> rw [hc]
    · exact .inl ⟨r', rfl, hw⟩
    · obtain ⟨begun, r'', hl, hp⟩ := launch_posted (prepare_made em ⟨event, none, keep⟩ hm)
      refine .inr ⟨i, r, _, begun, r'', .refl r, ?_, hp⟩
      dsimp only
      exact congrArg (fun c : Handle × Emitter × Rig E L => (some c.1, c.2.1, c.2.2)) hl
  | some file =>
    dsimp only [play]
    unfold postFile
    have hcheck := em.checkFile_wrote file r
    rcases em.create_cases event (em.checkFile file r) with ⟨r', hc, hw⟩ | ⟨i, r', hc, hm⟩ <;> rw [hc]
    · exact .inl ⟨r', rfl, hcheck.trans hw⟩
    · obtain ⟨begun, r'', hl, hp⟩ := launch_posted (prepare_made em ⟨event, some file, keep⟩ hm)
      refine .inr ⟨i, _, _, begun, r'', hcheck, ?_, hp⟩
      dsimp only
      exact congrArg (fun c : Handle × Emitter × Rig E L => (some c.1, c.2.1, c.2.2)) hl

end Emitter

end Soundstage
