import Soundstage.Proofs.Bridge.Traces
import Soundstage.Proofs.Engine.Mixing

/-!
# The debut of an instance

What the first start of an instance of the mixing engine comes to. One that plays a file of its own
asks nobody. A template asks its receiver; if that is the bridge, the file that was bound is opened,
and what was opened is taken from the loader at once and handed to the track of the instance
(`start_bridge`). So there is no stream that was opened and not taken (`Spent`), and one whose track takes no
sound makes the start fail.
-/

namespace Soundstage

open Playable Backstage

namespace StreamingLoader

/-- Every stream was taken. -/
def Spent (l : StreamingLoader) : Prop := ∀ x sound, l.sounds.get? x = some sound → sound = .stream none

theorem load_nonblocking {disk : Disk} {path : Path} {mode : DecodeMode} (h : mode.contains .nonblocking = true) :
    load disk path mode = (disk.openSound path).map fun r => .stream (some r) := if_pos h

theorem take_opened (l : StreamingLoader) (x : SoundId) (recording : Recording) (next : Nat) :
    let opened : StreamingLoader := { sounds := l.sounds.insert x (.stream (some recording)), next }
    (opened.take x).1 = some (.stream recording) ∧
      ∀ y, (opened.take x).2.sounds.get? y = if y = x then some (.stream none) else l.sounds.get? y := by
  intro opened
  have hx : opened.sounds.get? x = some (.stream (some recording)) := Table.get?_insert_self ..
  unfold take
  rw [hx]
  refine ⟨rfl, fun y => ?_⟩
  change (opened.sounds.modify x fun _ => .stream none).get? y = _
  rw [Table.get?_modify]
  by_cases hy : y = x
  · subst hy
    rw [if_pos rfl, if_pos rfl, hx]
    rfl
  · rw [if_neg hy, if_neg hy]
    exact Table.get?_insert_of_ne _ _ hy

namespace Spent

variable {l l' : StreamingLoader}

theorem of_take {x : SoundId} (h : l.Spent)
    (hl : ∀ y, l'.sounds.get? y = if y = x then some (.stream none) else l.sounds.get? y) : l'.Spent := by
  intro y sound hy
  rw [hl] at hy
  split at hy
  · cases hy; rfl
  · exact h y sound hy

theorem release {x : SoundId} (h : l.Spent) (hr : l.release x = .ok l') : l'.Spent := by
  unfold StreamingLoader.release at hr
  split at hr <;> cases hr
  intro y sound hy
  change (l.sounds.erase x).get? y = _ at hy
  rw [Table.get?_erase] at hy
  split at hy
  · cases hy
  · exact h y sound hy

theorem releaseLoaded {s : Backstage StreamingLoader} (h : s.loader.Spent) (i : InstanceId) (sound : Option SoundId) :
    (s.releaseLoaded i sound).loader.Spent := by
  cases sound with
  | none => exact h
  | some x =>
    unfold Backstage.releaseLoaded
    dsimp only
    split
    · exact h.release ‹_›
    · exact h

end Spent

end StreamingLoader

namespace MixingEngine

variable {r r' : Rig MixingEngine StreamingLoader} {i : InstanceId} {x y : MixingInstance} {b : Binding}

theorem instance?_modify (f : MixingInstance → MixingInstance)
    (he : r'.engine = r.engine.withInstances (r.engine.instances.modify i f)) (hx : r.instance? i = some x) :
    r'.instance? i = some (f x) := by
  refine (congrArg (fun e : MixingEngine => e.instances.get? i) he).trans ?_
  change (r.engine.instances.modify i f).get? i = _
  rw [Table.get?_modify_self, show r.engine.instances.get? i = some x from hx]
  rfl

/-- What a track makes of the data it is handed: it plays it, or takes no sound and says so. -/
def Handed (data : SoundData) (x : MixingInstance) (result : Except AudioError Unit)
    (sound : Option Playback) : Prop :=
  result = .ok () ∧ sound = some (Playback.ofData data x.definition.looping x.level x.pitch) ∨
    result = .error (.engine ("Failed to play '" ++ x.event ++ "': " ++ Device.noSound)) ∧ sound = x.sound

theorem play_handed (i : InstanceId) (data : SoundData) (hx : r.instance? i = some x) :
    (play i data r).2.toBackstage = r.toBackstage ∧ ∃ sound, Handed data x (play i data r).1 sound ∧
      (play i data r).2.instance? i = some { x with sound } := by
  unfold play
  rw [show r.engine.instances.get? i = some x from hx]
  dsimp only
  split
  · exact ⟨rfl, x.sound, .inr ⟨rfl, rfl⟩, hx⟩
  · exact ⟨rfl, _, .inl ⟨rfl, rfl⟩, instance?_modify (fun y => { y with sound := some _ }) rfl hx⟩

/-- The bridge was asked for the sound of `i` and answered `props`. -/
structure Asked (i : InstanceId) (props : Props) (state : BindingState) (b : Binding)
    (r r' : Rig MixingEngine StreamingLoader) : Prop where
  engine : r'.engine = r.engine.withInstances (r.engine.instances.modify i fun x => { x with props })
  heard : Heard i [⟨.createSound, i, .ok state⟩] r.toBackstage r'.toBackstage
  bound : r'.binding? i = some b

theorem programmerSound_bridge (hl : Ledger r.toBackstage []) (hr : x.receiver = some .bridge) (hp : x.props = {})
    (hb : r.binding? i = some b) (hst : b.state = .awaitingLoad) (hm : b.mode.contains .nonblocking = true) :
    (∃ recording y, r.disk.openSound b.path = .ok recording ∧
      (programmerSound i x r).1 = some (.stream recording) ∧
      Asked i ⟨some y, -1⟩ .loaded { b with state := .loaded, loaded := some y } r (programmerSound i x r).2 ∧
      ∀ z, (programmerSound i x r).2.loader.sounds.get? z =
        if z = y then some (.stream none) else r.loader.sounds.get? z) ∨
    ∃ reason, r.disk.openSound b.path = .error reason ∧ (programmerSound i x r).1 = none ∧
      Asked i {} .awaitingLoad { b with state := .awaitingLoad, loaded := none } r (programmerSound i x r).2 ∧
      (programmerSound i x r).2.loader = r.loader := by
  have hc := heard_createSound (p := x.props) hl hb hst
  unfold programmerSound
  rw [hr]
  dsimp only
  generalize r.toBackstage.deliver .bridge .createSound i x.props = c at hc ⊢
  obtain ⟨props, s⟩ := c
  rcases hc with ⟨y, hd, hprops, hb', hheard⟩ | ⟨e, hd, hprops, hb', hheard⟩
  · left
    obtain ⟨sound, hload, -, hloader⟩ := StreamingLoader.decode_eq_ok_iff.mp hd
    rw [StreamingLoader.load_nonblocking hm] at hload
    cases hopen : r.disk.openSound b.path with
    | error reason => rw [hopen] at hload; cases hload
    | ok recording =>
      rw [hopen] at hload
      cases hload
      obtain ⟨hdata, hsounds⟩ := r.loader.take_opened y recording (r.loader.next + 1)
      dsimp only at hprops hloader hb' hheard ⊢
      subst hprops
      rw [hloader]
      exact ⟨recording, y, rfl, hdata, ⟨rfl, hheard.relend _, hb'⟩, hsounds⟩
  · right
    cases hopen : r.disk.openSound b.path with
    | error reason =>
      have hloader := StreamingLoader.of_decode_error hd
      dsimp only at hprops hloader hb' hheard ⊢
      rw [hprops, hp]
      exact ⟨reason, rfl, rfl, ⟨rfl, hheard.relend _, hb'⟩, hloader⟩
    | ok recording =>
      refine absurd (congrArg Prod.fst hd) ?_
      change (r.loader.decode r.disk b.path b.mode).1 ≠ _
      unfold StreamingLoader.decode
      rw [StreamingLoader.load_nonblocking hm, hopen]
      simp [Except.map]

/-- Any other receiver of an emitter only takes note. -/
theorem programmerSound_lifecycle {entity : EntityId} (hr : x.receiver = some (.lifecycle entity))
    (hp : x.props = {}) : (programmerSound i x r).1 = none ∧ (programmerSound i x r).2.loader = r.loader ∧
      Heard i [] r.toBackstage (programmerSound i x r).2.toBackstage ∧ (programmerSound i x r).2.engine =
        r.engine.withInstances (r.engine.instances.modify i fun x => { x with props := {} }) := by
  have hheard := (heard_other (s := r.toBackstage) (i := i) (p := {}) (.lifecycle entity) (by simp) .createSound).1
  unfold programmerSound
  rw [hr, hp]
  exact ⟨rfl, rfl, hheard.relend _, rfl⟩

/-- One that has a file of its own plays that, or fails; nobody is asked. -/
theorem sing_file (hx : r.instance? i = some y) (hf : x.definition.file ≠ none) :
    (sing i x r).2.toBackstage = r.toBackstage ∧ ∃ sound, (sing i x r).2.instance? i = some { y with sound } := by
  obtain ⟨path, hf⟩ := Option.ne_none_iff_exists'.mp hf
  unfold sing
  rw [hf]
  dsimp only
  obtain ⟨-, -, ht⟩ := fileSound_same r.disk path r.engine
  generalize r.engine.fileSound r.disk path = d at ht ⊢
  obtain ⟨decoded, engine⟩ := d
  have hx' : Rig.instance? { r with engine } i = some y := (congrArg (·.get? i) ht).trans hx
  cases decoded with
  | error err => exact ⟨rfl, y.sound, hx'⟩
  | ok recording =>
    obtain ⟨hs, sound, -, hp⟩ := play_handed i (.decoded recording) hx'
    exact ⟨hs, sound, hp⟩

/-- The first start of an instance that a file is bound to. -/
inductive Debut (i : InstanceId) (x : MixingInstance) (b : Binding) (r r' : Rig MixingEngine StreamingLoader)
    (result : Except AudioError Unit) : Prop
  | ownFile {sound : Option Playback} : x.definition.file ≠ none → r'.toBackstage = r.toBackstage →
    r'.instance? i = some { x with started := true, sound } → Debut i x b r r' result
  /-- The file cannot be opened: the instance plays silence. -/
  | silence {reason : String} : x.definition.file = none → r.disk.openSound b.path = .error reason → result = .ok () →
    Heard i [⟨.createSound, i, .ok .awaitingLoad⟩] r.toBackstage r'.toBackstage →
    r'.binding? i = some { b with state := .awaitingLoad, loaded := none } → r'.loader = r.loader →
    r'.instance? i = some { x with started := true } → Debut i x b r r' result
  | stream {recording : Recording} {y : SoundId} {sound : Option Playback} : x.definition.file = none →
    r.disk.openSound b.path = .ok recording → Handed (.stream recording) x result sound →
    Heard i [⟨.createSound, i, .ok .loaded⟩] r.toBackstage r'.toBackstage →
    r'.binding? i = some { b with state := .loaded, loaded := some y } →
    (∀ z, r'.loader.sounds.get? z = if z = y then some (.stream none) else r.loader.sounds.get? z) →
    r'.instance? i = some { x with started := true, props := ⟨some y, -1⟩, sound } → Debut i x b r r' result

theorem start_eq (hx : r.instance? i = some x) (hs : x.started = false) : start i r = sing i x (markStarted i r) ∧
    (markStarted i r).toBackstage = r.toBackstage ∧
    (markStarted i r).instance? i = some { x with started := true } := by
  refine ⟨?_, rfl, instance?_modify (fun y => { y with started := true }) rfl hx⟩
  unfold start
  rw [show r.engine.instances.get? i = some x from hx]
  dsimp only
  rw [hs]
  rfl

theorem start_bridge (hl : Ledger r.toBackstage []) (hx : r.instance? i = some x) (hs : x.started = false)
    (hr : x.receiver = some .bridge) (hp : x.props = {}) (hb : r.binding? i = some b)
    (hst : b.state = .awaitingLoad) (hm : b.mode.contains .nonblocking = true) :
    Debut i x b r (start i r).2 (start i r).1 := by
  obtain ⟨he, hsame, hx₁⟩ := start_eq hx hs
  rw [he]
  by_cases hf : x.definition.file = none
  · unfold sing
    rw [hf]
    dsimp only
    have hasked := programmerSound_bridge (r := markStarted i r) hl hr hp hb hst hm
    generalize programmerSound i x (markStarted i r) = c at hasked ⊢
    obtain ⟨data, r'⟩ := c
    rcases hasked with ⟨recording, y, hopen, hdata, ha, hsounds⟩ | ⟨reason, hopen, hdata, ha, hloader⟩
    · dsimp only at hdata ha hsounds
      subst hdata
      have hx₂ := instance?_modify _ ha.engine hx₁
      obtain ⟨hsame', sound, hhanded, hx₃⟩ := play_handed i (.stream recording) hx₂
      refine .stream hf hopen hhanded ?_ ?_ ?_ hx₃
      · exact hsame' ▸ ha.heard
      · exact (congrArg (·.binding? i) hsame').trans ha.bound
      · exact fun z => (congrArg (·.loader.sounds.get? z) hsame').trans (hsounds z)
    · dsimp only at hdata ha hloader
      subst hdata
      exact .silence hf hopen rfl ha.heard ha.bound hloader ((instance?_modify _ ha.engine hx₁).trans (by rw [← hp]))
  · obtain ⟨hb, sound, hx'⟩ := sing_file (x := x) hx₁ hf
    exact .ownFile hf (hb.trans hsame) hx'

theorem start_lifecycle {entity : EntityId} (hx : r.instance? i = some x) (hs : x.started = false)
    (hr : x.receiver = some (.lifecycle entity)) (hp : x.props = {}) :
    Heard i [] r.toBackstage (start i r).2.toBackstage ∧ (start i r).2.loader = r.loader ∧
      ∃ sound, (start i r).2.instance? i = some { x with started := true, sound } := by
  obtain ⟨he, hsame, hx₁⟩ := start_eq hx hs
  rw [he]
  by_cases hf : x.definition.file = none
  · unfold sing
    rw [hf]
    dsimp only
    obtain ⟨hdata, hloader, hheard, hengine⟩ := programmerSound_lifecycle (i := i) (r := markStarted i r) hr hp
    generalize programmerSound i x (markStarted i r) = c at hdata hloader hheard hengine ⊢
    obtain ⟨data, r'⟩ := c
    dsimp only at hdata hloader hheard hengine
    subst hdata
    exact ⟨hheard, hloader, x.sound, (instance?_modify _ hengine hx₁).trans (by rw [← hp])⟩
  · obtain ⟨hb, sound, hx'⟩ := sing_file (x := x) hx₁ hf
    rw [hb.trans hsame]
    exact ⟨.refl i _, rfl, sound, hx'⟩

end MixingEngine

end Soundstage
