import Soundstage.Engine.Mixing
import Soundstage.Proofs.Engine.Lawful

/-!
# The mixing engine is lawful

Starting is the only call with a life of its own: it may decode a file, ask the receiver for a sound
and take that from the loader. `Sounding` is what it can change: how the instance plays, and behind
the stage what callbacks of that instance can change.
-/

namespace Soundstage

open Playable

namespace MixingInstance

/-- Whether the sound was told to stop; silence needs no telling. -/
def isStopped (x : MixingInstance) : Bool := x.sound.all (·.isStopping)

def status (x : MixingInstance) : Status := ⟨x.event, x.receiver, x.started, x.released, x.isStopped⟩

/-- How long a stop fades under a config. -/
def fadeUnder (c : Config) : StopMode → Nat
  | .immediate => 0
  | .allowFadeOut => c.fadeOut

theorem status_setFloat (name : String) (value : Float32) (x : MixingInstance) :
    (x.setFloat name value).status = x.status := by
  unfold setFloat
  dsimp only
  split
  · cases hs : x.sound <;> simp only [status, isStopped, hs] <;> rfl
  split
  · cases hs : x.sound <;> simp only [status, isStopped, hs] <;> rfl
  · rfl

instance : Playable MixingInstance Config where
  status := status
  isDone := isDone
  fresh c event := { event, definition := (c.event? event).getD {} }
  receive receiver x := { x with receiver := some receiver }
  place _ x := x
  setFloat := setFloat
  setLabel name label x := { x with labels := x.labels.insert name label }
  stop c mode x := { x with sound := x.sound.map (·.requestStop (fadeUnder c mode)) }
  release x := { x with released := true }
  Begun x x' := ∃ sound props, x' = { x with started := true, sound, props }
  isDone_released h := (Bool.and_eq_true _ _ ▸ h).1
  status_fresh _ _ := ⟨true, rfl⟩
  status_receive _ _ := rfl
  status_place _ _ := rfl
  status_setFloat := status_setFloat
  status_setLabel _ _ _ := rfl
  status_stop c mode x := by
    cases hs : x.sound <;> simp [status, isStopped, hs, Playback.isStopping, Playback.requestStop]
  status_release _ := rfl
  status_begun := by
    rintro x _ ⟨sound, props, rfl⟩
    exact ⟨sound.all (·.isStopping), rfl⟩

end MixingInstance

namespace StreamingLoader

theorem isLive_take (l : StreamingLoader) (x y : SoundId) : (l.take x).2.IsLive y ↔ l.IsLive y := by
  unfold take
  split
  · rfl
  · rfl
  · simp only [IsLive, Table.get?_modify]
    split <;> simp [*]

theorem sane_take {l : StreamingLoader} (h : l.Sane) (x : SoundId) : (l.take x).2.Sane := by
  intro y hy
  have hnext : (l.take x).2.next = l.next := by unfold take; split <;> rfl
  rw [hnext]
  exact h y ((l.isLive_take x y).mp hy)

end StreamingLoader

namespace MixingEngine

instance : Staged MixingEngine MixingInstance Config where
  instances := instances
  issued := issued
  setting := config

theorem change_rewrites (e : MixingEngine) (i : InstanceId) (f : MixingInstance → MixingInstance) :
    Rewrites (change i f) i f e :=
  .of_modify rfl rfl rfl rfl

theorem change_isOk {e : MixingEngine} {i : InstanceId} (f : MixingInstance → MixingInstance)
    (h : e.instances.get? i ≠ none) : ∃ e', change i f e = .ok e' :=
  ⟨_, if_pos (Option.isSome_iff_ne_none.mpr h)⟩

theorem mem_done_iff (e : MixingEngine) (i : InstanceId) :
    i ∈ e.done ↔ ∃ x, e.instances.get? i = some x ∧ x.isDone = true :=
  Table.mem_keys_filter_iff

/-! ### Creating -/

theorem createListener_same {e e' : MixingEngine} (h : e.createListener = .ok e') :
    e'.issued = e.issued ∧ e'.config = e.config ∧ e'.instances = e.instances := by
  unfold createListener at h
  split at h
  · cases h; exact ⟨rfl, rfl, rfl⟩
  · split at h <;> cases h
    exact ⟨rfl, rfl, rfl⟩

theorem ensureListener_same {e e' : MixingEngine} (h : e.ensureListener = .ok e') :
    e'.issued = e.issued ∧ e'.config = e.config ∧ e'.instances = e.instances := by
  unfold ensureListener at h
  split at h
  · cases h; exact ⟨rfl, rfl, rfl⟩
  · exact createListener_same h

theorem takeTrack_same {e e' : MixingEngine} (h : e.takeTrack = .ok e') :
    e'.issued = e.issued ∧ e'.config = e.config ∧ e'.instances = e.instances := by
  unfold takeTrack at h
  split at h
  · cases h
  · split at h <;> cases h
    exact ⟨rfl, rfl, rfl⟩

theorem create_ok {event : String} {e e' : MixingEngine} {i : InstanceId} (h : create event e = (.ok i, e')) :
    ∃ definition, e.config.event? event = some definition ∧ i = ⟨e.issued + 1⟩ ∧ e'.issued = e.issued + 1 ∧
      e'.config = e.config ∧ e'.instances = e.instances.insert i { event, definition } := by
  unfold create at h
  split at h
  · cases h
  · rename_i definition hdef
    split at h
    · cases h
    · rename_i e₁ h₁
      obtain ⟨i₁, c₁, t₁⟩ := ensureListener_same h₁
      split at h
      · cases h
      · rename_i e₂ h₂
        obtain ⟨i₂, c₂, t₂⟩ := takeTrack_same h₂
        cases h
        refine ⟨definition, hdef, ?_, ?_, c₂.trans c₁, ?_⟩
        · rw [i₂, i₁]
        · change e₂.issued + 1 = _; rw [i₂, i₁]
        · rw [t₂, t₁]

theorem create_error {event : String} {e e' : MixingEngine} {err : AudioError}
    (h : create event e = (.error err, e')) :
    e'.issued = e.issued ∧ e'.config = e.config ∧ e'.instances = e.instances := by
  unfold create at h
  split at h
  · cases h; exact ⟨rfl, rfl, rfl⟩
  · split at h
    · cases h; exact ⟨rfl, rfl, rfl⟩
    · rename_i e₁ h₁
      split at h <;> cases h
      exact ensureListener_same h₁

/-! ### Starting -/

/-- Of the instances, `i` may play another way; behind the stage its callbacks may have come. -/
structure Sounding (i : InstanceId) (r r' : Rig MixingEngine StreamingLoader) : Prop where
  issued : r'.issued = r.issued
  config : r'.engine.config = r.engine.config
  others : ∀ j, j ≠ i → r'.instance? j = r.instance? j
  own : ∀ {x}, r.instance? i = some x → ∃ started sound props,
    r'.instance? i = some { x with started, sound, props } ∧ (x.started = true → started = true)
  called : Ledger r.toBackstage [] → Backstage.Called i r.toBackstage r'.toBackstage

namespace Sounding

variable {r r' r'' : Rig MixingEngine StreamingLoader} {i : InstanceId}

theorem refl (i : InstanceId) (r : Rig MixingEngine StreamingLoader) : Sounding i r r :=
  ⟨rfl, rfl, fun _ _ => rfl, fun hx => ⟨_, _, _, hx, id⟩, fun h => .refl h⟩

theorem trans (h : Sounding i r r') (h' : Sounding i r' r'') : Sounding i r r'' := by
  refine ⟨h'.issued.trans h.issued, h'.config.trans h.config,
    fun j hj => (h'.others j hj).trans (h.others j hj), fun hx => ?_,
    fun hl => (h.called hl).trans (h'.called (h.called hl).ledger)⟩
  obtain ⟨started, sound, props, hx', hm⟩ := h.own hx
  obtain ⟨started', sound', props', hx'', hm'⟩ := h'.own hx'
  exact ⟨started', sound', props', hx'', fun hs => hm' (hm hs)⟩

/-- Only the engine changes, and there only how `i` plays. -/
theorem modify (r : Rig MixingEngine StreamingLoader) (i : InstanceId) {f : MixingInstance → MixingInstance}
    (hf : ∀ x, ∃ started sound props, f x = { x with started, sound, props } ∧ (x.started = true → started = true)) :
    Sounding i r { r with engine := r.engine.withInstances (r.engine.instances.modify i f) } := by
  refine ⟨rfl, rfl, fun j hj => ?_, fun {x} hx => ?_, fun h => .refl h⟩
  · exact (Table.get?_modify_eq_map ..).trans (by simp [hj]; rfl)
  · obtain ⟨started, sound, props, e, hm⟩ := hf x
    refine ⟨started, sound, props, (Table.get?_modify_eq_map ..).trans ?_, hm⟩
    rw [show r.engine.instances.get? i = some x from hx, ← e]
    simp

end Sounding

theorem fileSound_same (disk : Disk) (path : Path) (e : MixingEngine) :
    (e.fileSound disk path).2.issued = e.issued ∧ (e.fileSound disk path).2.config = e.config ∧
      (e.fileSound disk path).2.instances = e.instances := by
  unfold fileSound
  split
  · exact ⟨rfl, rfl, rfl⟩
  · split <;> exact ⟨rfl, rfl, rfl⟩

theorem play_sounding (i : InstanceId) (data : SoundData) (r : Rig MixingEngine StreamingLoader) :
    Sounding i r (play i data r).2 := by
  unfold play
  split
  · exact .refl i r
  · split
    · exact .refl i r
    · exact .modify r i fun x => ⟨_, _, _, rfl, id⟩

/-- Taking a sound leaves it live. -/
theorem called_take {s : Backstage StreamingLoader} (h : Ledger s []) (i : InstanceId) (o : Option SoundId) :
    Backstage.Called i s { s with loader := match o with
      | none => s.loader
      | some x => (s.loader.take x).2 } := by
  cases o with
  | none => exact .refl h
  | some x =>
    exact ⟨rfl, fun _ _ => rfl, fun hn => hn,
      h.relend rfl (StreamingLoader.sane_take h.sane x) (s.loader.isLive_take x)⟩

theorem programmerSound_sounding (i : InstanceId) (x : MixingInstance) (r : Rig MixingEngine StreamingLoader) :
    Sounding i r (programmerSound i x r).2 := by
  unfold programmerSound
  cases x.receiver with
  | none => exact .refl i r
  | some receiver =>
    dsimp only
    have hc := fun h => Backstage.called_deliver (s := r.toBackstage) (i := i) (p := x.props) h receiver .createSound
    generalize r.toBackstage.deliver receiver .createSound i x.props = d at hc ⊢
    obtain ⟨props, b⟩ := d
    dsimp only at hc ⊢
    have taken : ∀ loader, loader = (match props.sound with
        | none => b.loader
        | some sound => (b.loader.take sound).2) →
        Sounding i r (r.withBackstage { b with loader }) := by
      rintro _ rfl
      exact ⟨rfl, rfl, fun _ _ => rfl, fun hx => ⟨_, _, _, hx, id⟩,
        fun h => (hc h).trans (called_take (hc h).ledger i props.sound)⟩
    refine (taken _ ?_).trans (.modify _ i fun x => ⟨_, _, _, rfl, id⟩)
    cases props.sound <;> rfl

theorem markStarted_sounding (i : InstanceId) (r : Rig MixingEngine StreamingLoader) :
    Sounding i r (markStarted i r) :=
  .modify r i fun _ => ⟨true, _, _, rfl, fun _ => rfl⟩

theorem sing_sounding (i : InstanceId) (x : MixingInstance) (r : Rig MixingEngine StreamingLoader) :
    Sounding i r (sing i x r).2 := by
  unfold sing
  cases x.definition.file with
  | some path =>
    dsimp only
    obtain ⟨hi, hc, ht⟩ := fileSound_same r.disk path r.engine
    generalize r.engine.fileSound r.disk path = d at hi hc ht ⊢
    obtain ⟨result, engine⟩ := d
    have same : ∀ j, Rig.instance? { r with engine } j = r.instance? j := fun j => congrArg (·.get? j) ht
    have cached : Sounding i r { r with engine } :=
      ⟨hi, hc, fun j _ => same j, fun {y} hy => ⟨y.started, y.sound, y.props, (same i).trans hy, id⟩,
        fun h => .refl h⟩
    cases result with
    | error err => exact cached
    | ok recording => exact cached.trans (play_sounding i _ _)
  | none =>
    dsimp only
    have asked := programmerSound_sounding i x r
    generalize programmerSound i x r = d at asked ⊢
    obtain ⟨data, r'⟩ := d
    cases data with
    | none => exact asked
    | some data => exact asked.trans (play_sounding i data r')

theorem start_sounding (i : InstanceId) (r : Rig MixingEngine StreamingLoader) : Sounding i r (start i r).2 := by
  unfold start
  split
  · exact .refl i r
  · split
    · exact .refl i r
    · exact (markStarted_sounding i r).trans (sing_sounding i _ _)

/-- An instance that was there counts as started afterwards. -/
theorem start_begun {i : InstanceId} {r : Rig MixingEngine StreamingLoader} {x : MixingInstance}
    (hx : r.instance? i = some x) : ∃ x', (start i r).2.instance? i = some x' ∧ Begun x x' := by
  unfold start
  rw [show r.engine.instances.get? i = some x from hx]
  dsimp only
  split
  · rename_i hs
    exact ⟨x, hx, x.sound, x.props, by rw [← hs]⟩
  · have hx₁ : (markStarted i r).instance? i = some { x with started := true } := by
      refine (Table.get?_modify_eq_map ..).trans ?_
      rw [show r.engine.instances.get? i = some x from hx]
      simp
    -- the mark comes first, and nothing after it takes it away
    obtain ⟨started, sound, props, hx', hm⟩ := (sing_sounding i x (markStarted i r)).own hx₁
    rw [hm rfl] at hx'
    exact ⟨_, hx', sound, props, rfl⟩

/-! ### Updating -/

theorem destroy_cleared (r : Rig MixingEngine StreamingLoader) (i : InstanceId) (h : Ledger r.toBackstage []) :
    Cleared (· = i) r (destroy r i) := by
  unfold destroy
  cases hx : r.engine.instances.get? i with
  | none => exact .absent h hx
  | some x =>
    dsimp only
    cases hr : x.receiver with
    | none =>
      refine .of_farewell (p := x.props) hx rfl rfl (fun j => Table.get?_erase ..) h ?_
      rw [show (Playable.status x).receiver = none from hr]
      rfl
    | some receiver =>
      refine .of_farewell (p := x.props) hx rfl rfl (fun j => Table.get?_erase ..) h ?_
      rw [show (Playable.status x).receiver = some receiver from hr]
      rfl

instance : LawfulEngine MixingEngine StreamingLoader MixingInstance Config where
  isValid_eq _ _ := rfl
  eventOf_eq _ _ := rfl
  create_ok {event e e' i} h := by
    obtain ⟨definition, hdef, hi, hn, hc, ht⟩ := create_ok h
    refine ⟨hi, hn, hc, fun j => ?_⟩
    have hfresh : fresh e.config event = ({ event, definition } : MixingInstance) := by
      change ({ event, definition := (e.config.event? event).getD {} } : MixingInstance) = _
      rw [hdef]
      rfl
    change e'.instances.get? j = if j = i then some (fresh e.config event) else e.instances.get? j
    rw [ht, Table.get?_insert, hfresh]
  create_error h := by
    obtain ⟨hi, hc, ht⟩ := create_error h
    exact ⟨hi, hc, fun j => congrArg (·.get? j) ht⟩
  setReceiver e i _ := change_rewrites e i _
  setAttributes e i _ := change_rewrites e i id
  setFloat e i name value := change_rewrites e i (·.setFloat name value)
  setLabel e i _ _ := change_rewrites e i _
  stop e i mode := by
    have hfade : e.fadeOf mode = MixingInstance.fadeUnder e.config mode := by cases mode <;> rfl
    obtain ⟨ok, error⟩ := change_rewrites e i (Playable.stop e.config mode)
    have same : stop i mode e = change i (Playable.stop e.config mode) e := by
      unfold stop
      rw [hfade]
      rfl
    exact ⟨fun h => ok (same.symm.trans h), fun h hx => error (same.symm.trans h) hx⟩
  release e i := change_rewrites e i _
  stop_isOk _ h := change_isOk _ h
  release_isOk h := change_isOk _ h
  setListener h := by
    obtain ⟨hi, hc, ht⟩ := ensureListener_same h
    exact ⟨hi, hc, fun j => congrArg (·.get? j) ht⟩
  start_others r i := (start_sounding i r).others
  start_begun := start_begun
  start_issued r i := (start_sounding i r).issued
  start_setting r i := (start_sounding i r).config
  start_called r i := (start_sounding i r).called
  update_cleared r h := (Cleared.foldl destroy_cleared r.engine.done h).congr r.engine.mem_done_iff

end MixingEngine

end Soundstage
