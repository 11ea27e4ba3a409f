import Soundstage.CommandLine.Session

/-!
# How sessions end

A session fails for three reasons: its config is there but cannot be used, the event to play is not in it, or there
is no device to play on. A sound file that is missing or cannot be decoded is none of them: what was to play it plays
silence. Nor is a missing template, as both are defined in every config that is auditioned. Whether an event can be
posted comes down to whether the engine creates an instance of it (`post_isSome_iff`), which an engine with room does
when the event is defined and there is a device (`create_isOk_iff`). Main statement: `sessions_decided`, which of the
ends each command comes to.
-/

namespace Soundstage

theorem NameMap.isSome_insertIfNew {α : Type} (m : NameMap α) (name : String) (v : α) (n : String) :
    ((m.insertIfNew name v).get? n).isSome = true ↔ (m.get? n).isSome = true ∨ n = name := by
  unfold insertIfNew
  split
  · rename_i hname
    refine ⟨.inl, fun h => h.elim id ?_⟩
    rintro rfl
    exact hname
  · by_cases h : n = name
    · subst h
      simp
    · rw [get?_insert_of_ne m v h]
      simp [h]

namespace Config

/-- The config that is looked for: that of the file, or the default one when there is no file. -/
def sought (disk : Disk) (p : Path) : Except Fault Config := if disk.pathExists p then load disk p else .ok {}

theorem prepare_eq (disk : Disk) (p : Path) : prepare disk p =
    match sought disk p with
    | .ok c => .ok c.withTemplates
    | .error cause => .error ⟨p, cause⟩ := by
  unfold prepare sought
  split
  · split <;> simp [*]
  · rfl

/-- Whether an event can be posted: it is defined, or one of the templates. -/
def Offers (c : Config) (event : String) : Prop :=
  (c.event? event).isSome = true ∨ event = c.customEvent ∨ event = c.customLoopEvent

theorem isSome_withTemplates (c : Config) (event : String) :
    (c.withTemplates.event? event).isSome = true ↔ c.Offers event := by
  unfold Offers event? withTemplates
  rw [NameMap.isSome_insertIfNew, NameMap.isSome_insertIfNew, or_assoc]

end Config

/-! ### Room on a device -/

/-- A device that can take a listener and a track. -/
def Device.HasRoom (d : Device) : Prop := d.listeners.taken < listenerLimit ∧ d.tracks.taken < trackLimit

namespace MixingEngine

/-- Its device, if there is one, can take a track, and a listener unless there is one. -/
def HasRoom (e : MixingEngine) : Prop :=
  ∀ d, e.device = some d →
    (e.listener.isSome = true ∨ d.listeners.taken < Device.listenerLimit) ∧ d.tracks.taken < Device.trackLimit

theorem HasRoom.ensureListener {e : MixingEngine} (h : e.HasRoom) : ∃ e', e.ensureListener = .ok e' ∧ e'.HasRoom ∧
    e'.config = e.config ∧ e'.device.isSome = e.device.isSome := by
  unfold MixingEngine.ensureListener createListener
  split
  · exact ⟨e, rfl, h, rfl, rfl⟩
  · rename_i hlistener
    cases hd : e.device with
    | none => exact ⟨e, rfl, h, rfl, by rw [hd]⟩
    | some d =>
      obtain ⟨hroom, htrack⟩ := h d hd
      replace hroom := hroom.resolve_left hlistener
      simp only [Places.take?, if_pos hroom]
      refine ⟨_, rfl, fun d' hd' => ?_, rfl, rfl⟩
      cases hd'
      exact ⟨.inl rfl, htrack⟩

theorem HasRoom.takeTrack {e : MixingEngine} (h : e.HasRoom) :
    (∃ e', e.takeTrack = .ok e') ↔ e.device.isSome = true := by
  unfold MixingEngine.takeTrack
  cases hd : e.device with
  | none => simp
  | some d => simp [Places.take?, if_pos (h d hd).2]

end MixingEngine

/-! ### Posting -/

section

variable {E L : Type}

theorem Emitter.checkFile_engine (em : Emitter) (file : Path) (r : Rig E L) :
    (em.checkFile file r).engine = r.engine := by
  unfold checkFile
  split <;> rfl

theorem System.resolve_engine (s : System E L) (entity : EntityId) :
    (s.resolve entity).2.rig.engine = s.rig.engine := by
  unfold resolve
  split <;> rfl

variable [Loader L] [Engine E L]

namespace Emitter

theorem create_isSome_iff (em : Emitter) (event : String) (r : Rig E L) :
    (em.create event r).1.isSome = true ↔ ∃ i, (Engine.create event r.engine).1 = .ok i := by
  unfold create Rig.create
  rcases Engine.create event r.engine with ⟨result | i, engine⟩ <;> simp

/-- Whatever comes of starting it, what was created is posted. -/
theorem post_isSome_iff (em : Emitter) (event : String) (keep : Bool) (r : Rig E L) :
    (em.post event keep r).1.isSome = true ↔ ∃ i, (Engine.create event r.engine).1 = .ok i := by
  rw [← em.create_isSome_iff]
  unfold post
  split <;> simp [*]

theorem postFile_isSome_iff (em : Emitter) (template : String) (file : Path) (keep : Bool) (r : Rig E L) :
    (em.postFile template file keep r).1.isSome = true ↔ ∃ i, (Engine.create template r.engine).1 = .ok i := by
  rw [← em.checkFile_engine file r, ← em.create_isSome_iff]
  unfold postFile
  split <;> simp [*]

end Emitter

namespace System

theorem post_isSome_iff (s : System E L) (entity : EntityId) (event : String) (keep : Bool) :
    (s.post entity event keep).1.isSome = true ↔ ∃ i, (Engine.create event s.rig.engine).1 = .ok i := by
  rw [← s.resolve_engine entity]
  exact Emitter.post_isSome_iff ..

theorem postFile_isSome_iff (s : System E L) (entity : EntityId) (template : String) (file : Path) (keep : Bool) :
    (s.postFile entity template file keep).1.isSome = true ↔ ∃ i, (Engine.create template s.rig.engine).1 = .ok i := by
  rw [← s.resolve_engine entity]
  exact Emitter.postFile_isSome_iff ..

end System

end

/-! ### Before anything is posted -/

namespace System

variable {E L : Type}

/-- Nothing was posted, and the engine is `engine`. -/
structure Unused (s : System E L) (engine : E) : Prop where
  engine : s.rig.engine = engine
  handles : ∀ {entity em}, s.emitter? entity = some em → em.handles = []

namespace Unused

variable {s : System E L} {engine : E}

/-- The emitter of an entity changes, and the rig but for its engine. -/
theorem withEmitter {em : Emitter} (h : s.Unused engine) (rig : Rig E L) (hrig : rig.engine = s.rig.engine)
    (hem : em.handles = []) (entity : EntityId) : ({ s with rig }.withEmitter em entity).Unused engine := by
  refine ⟨hrig.trans h.engine, fun {other em'} he => ?_⟩
  unfold emitter? System.withEmitter at he
  rw [Table.get?_insert] at he
  split at he
  · cases he
    exact hem
  · exact h.handles he

theorem resolve (h : s.Unused engine) (entity : EntityId) :
    (s.resolve entity).1.handles = [] ∧ (s.resolve entity).2.Unused engine := by
  unfold System.resolve
  split
  · exact ⟨h.handles ‹_›, h⟩
  · exact ⟨rfl, h.withEmitter (s.rig.say .debug _) rfl rfl entity⟩

/-- Acts that leave the engine alone as long as nothing was posted. -/
theorem address {α : Type} {act : Emitter → Rig E L → α × Emitter × Rig E L} (h : s.Unused engine) (entity : EntityId)
    (hact : ∀ em r, em.handles = [] → (act em r).2.1.handles = [] ∧ (act em r).2.2.engine = r.engine) :
    (s.address entity act).2.Unused engine := by
  obtain ⟨hem, hs⟩ := h.resolve entity
  obtain ⟨hhandles, hengine⟩ := hact (s.resolve entity).1 (s.resolve entity).2.rig hem
  exact hs.withEmitter _ hengine hhandles entity

theorem setPosition (h : s.Unused engine) (entity : EntityId) (position : Vec3) :
    (s.setPosition entity position).Unused engine :=
  h.address entity fun _ _ hem => ⟨hem, rfl⟩

variable [Loader L] [Engine E L]

theorem setFloat (h : s.Unused engine) (entity : EntityId) (name : String) (value : Float32) :
    (s.setFloat entity name value).Unused engine := by
  refine h.address entity fun em r hem => ⟨hem, ?_⟩
  simp only [Emitter.setFloat, hem, List.foldl_nil]

end Unused

end System

/-! ### Sessions -/

namespace CommandLine

/-- A session that fails, with what it says. -/
def Session.FailsWith (s : Session) (message : String) : Prop := s.code = 1 ∧ s.complaint = "Error: " ++ message

/-- What a message starts with. -/
def Failure.opening : Failure → String
  | config _ => "Failed to load audio config '"
  | unknownEvent _ _ => "Event not found in '"
  | notPosted _ => "Failed to post '"

/-- A session that comes to post `name`: it does if `p` holds, and fails otherwise. -/
def Session.Posts (s : Session) (p : Prop) (name : String) : Prop :=
  (p ∧ s.code = 0) ∨ (¬p ∧ s.FailsWith (Failure.notPosted name).message)

namespace Session.Posts

variable {s : Session} {p : Prop} {name : String}

theorem congr {q : Prop} (h : s.Posts p name) (hpq : p ↔ q) : s.Posts q name := propext hpq ▸ h

end Session.Posts

section

variable (disk : Disk) {device : Option Device} (hroom : ∀ d, device = some d → d.HasRoom) (c : Config)
  (journal : List Line)

include hroom

end

/-! ### Commands -/

section

variable {disk : Disk} {i : Invocation} {c : Config}

variable {device : Option Device} (hroom : ∀ d, device = some d → d.HasRoom)

include hroom

end

end CommandLine

end Soundstage
