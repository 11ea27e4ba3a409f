import Soundstage.Proofs.Disk.Spellings
import Soundstage.Proofs.Engine.Calls
import Soundstage.Proofs.Engine.Debut

/-!
# Decoded files

The mixing engine keeps every file that it has decoded, and finds it again by the components of its path. So an
instance may be given a file that was decoded under another spelling (`Fetched`). What is kept was decoded from the disk
for an instance that was started (`Stocked`), and spellings that can be decoded are of one recording; so a start plays
the file of the instance wherever that can be decoded, and where it cannot, it still depends on what was started before
(`starts_of_files_exact`, `start_depends_on_spellings`).
-/

namespace Soundstage

open Playable

namespace Path

theorem same_iff {p q : Path} : p.same q = true ↔ p.components = q.components := by simp [same]

theorem same_refl (p : Path) : p.same p = true := same_iff.mpr rfl

/-- Two paths with the components of a third are the same key. -/
theorem same_of_same {p q o : Path} (hp : p.same o = true) (hq : q.same o = true) : p.same q = true :=
  same_iff.mpr ((same_iff.mp hp).trans (same_iff.mp hq).symm)

end Path

namespace MixingEngine

/-- The instances whose tracks take no sound. -/
def muted (e : MixingEngine) : List InstanceId := e.device.elim [] (·.mute)

/-! ### What leaves the files alone -/

/-- The decoded files are the same, and so are the tracks that take no sound. -/
structure SameFiles (e e' : MixingEngine) : Prop where
  cache : e'.cache = e.cache
  muted : e'.muted = e.muted

namespace SameFiles

variable {e e' e'' : MixingEngine} {r : Rig MixingEngine StreamingLoader} {i : InstanceId}

theorem refl (e : MixingEngine) : SameFiles e e := ⟨rfl, rfl⟩

theorem trans (h : SameFiles e e') (h' : SameFiles e' e'') : SameFiles e e'' :=
  ⟨h'.cache.trans h.cache, h'.muted.trans h.muted⟩

theorem withInstances (e : MixingEngine) (instances : Table InstanceId MixingInstance) :
    SameFiles e (e.withInstances instances) := ⟨rfl, rfl⟩

theorem change {f : MixingInstance → MixingInstance} (h : e.change i f = .ok e') : SameFiles e e' := by
  unfold MixingEngine.change at h
  split at h <;> cases h
  exact .withInstances e _

theorem createListener (h : e.createListener = .ok e') : SameFiles e e' := by
  unfold MixingEngine.createListener at h
  split at h
  · cases h
    exact .refl e
  · rename_i d hd
    split at h <;> cases h
    exact ⟨rfl, by simp [MixingEngine.muted, hd]⟩

theorem ensureListener (h : e.ensureListener = .ok e') : SameFiles e e' := by
  unfold MixingEngine.ensureListener at h
  split at h
  · cases h
    exact .refl e
  · exact .createListener h

theorem takeTrack (h : e.takeTrack = .ok e') : SameFiles e e' := by
  unfold MixingEngine.takeTrack at h
  split at h
  · cases h
  · rename_i d hd
    split at h <;> cases h
    exact ⟨rfl, by simp [MixingEngine.muted, hd]⟩

theorem create (event : String) (e : MixingEngine) : SameFiles e (create event e).2 := by
  unfold MixingEngine.create
  split
  · exact .refl e
  · split
    · exact .refl e
    · have hlistener := ensureListener ‹_›
      split
      · exact hlistener
      · rename_i e' htrack
        have htaken := takeTrack htrack
        exact hlistener.trans ⟨htaken.cache, htaken.muted⟩

theorem leaveTrack (rendered : Bool) (e : MixingEngine) : SameFiles e (e.leaveTrack rendered) := by
  refine ⟨rfl, ?_⟩
  unfold MixingEngine.leaveTrack MixingEngine.muted
  cases e.device <;> rfl

theorem destroy (r : Rig MixingEngine StreamingLoader) (i : InstanceId) :
    SameFiles r.engine (destroy r i).engine := by
  unfold MixingEngine.destroy
  split
  · exact .refl _
  · rename_i x hx
    have hleft := (withInstances r.engine (r.engine.instances.erase i)).trans (leaveTrack x.rendered _)
    cases x.receiver <;> exact hleft

theorem update (r : Rig MixingEngine StreamingLoader) : SameFiles r.engine (update r).engine := by
  have hall : ∀ (ids : List InstanceId) (r : Rig MixingEngine StreamingLoader),
      SameFiles r.engine (destroyAll r ids).engine := by
    intro ids
    induction ids with
    | nil => exact fun r => .refl r.engine
    | cons i rest ih => exact fun r => (destroy r i).trans (ih _)
  exact hall r.engine.done r

theorem play (i : InstanceId) (data : SoundData) (r : Rig MixingEngine StreamingLoader) :
    SameFiles r.engine (play i data r).2.engine := by
  unfold MixingEngine.play
  split
  · exact .refl _
  · split
    · exact .refl _
    · exact .withInstances r.engine _

theorem programmerSound (i : InstanceId) (x : MixingInstance) (r : Rig MixingEngine StreamingLoader) :
    SameFiles r.engine (programmerSound i x r).2.engine := by
  unfold MixingEngine.programmerSound
  split
  · exact .refl _
  · exact .withInstances r.engine _

/-- A start that is not the first one of an instance with a file of its own. -/
theorem start (hno : ∀ x, r.instance? i = some x → x.started = false → x.definition.file = none) :
    SameFiles r.engine (start i r).2.engine := by
  unfold MixingEngine.start
  split
  · exact .refl _
  · rename_i x hx
    split
    · exact .refl _
    · unfold sing
      rw [hno x hx (by simpa using ‹¬x.started = true›)]
      dsimp only
      have hasked := (withInstances r.engine _).trans (programmerSound i x (markStarted i r))
      generalize MixingEngine.programmerSound i x (markStarted i r) = c at hasked ⊢
      obtain ⟨_ | data, r'⟩ := c
      · exact hasked
      · exact hasked.trans (play i data r')

theorem act {op : MixingEngine → Except AudioError MixingEngine}
    (hop : ∀ {e'}, op r.engine = .ok e' → SameFiles r.engine e') :
    SameFiles r.engine (r.act op).2.engine := by
  unfold Rig.act
  split
  · exact hop ‹_›
  · exact .refl _

end SameFiles

/-- The first start of an instance with a file of its own. -/
def StartsFile (r : Rig MixingEngine StreamingLoader) (i : InstanceId) (x : MixingInstance) (p : Path) : Prop :=
  r.instance? i = some x ∧ x.started = false ∧ x.definition.file = some p

/-- Only the first start of an instance with a file of its own can come across another file. -/
theorem sameFiles_make {c : EngineCall} {r : Rig MixingEngine StreamingLoader}
    (hno : ∀ i x p, c = .start i → ¬StartsFile r i x p) : SameFiles r.engine (c.make r).engine := by
  cases c with
  | create event => exact .create event r.engine
  | start i =>
    refine .start fun x hx hs => ?_
    cases hf : x.definition.file with
    | none => rfl
    | some p => exact absurd ⟨hx, hs, hf⟩ (hno i x p rfl)
  | setListener attributes =>
    change SameFiles r.engine (r.setListener attributes).engine
    unfold Rig.setListener
    split
    · exact .ensureListener ‹_›
    · exact .refl _
  | update => exact .update r
  | _ => exact .act .change

/-! ### What a start fetches -/

inductive Fetched (disk : Disk) (p : Path) (e : MixingEngine) : Except AudioError Recording × MixingEngine → Prop
  /-- It was decoded before, under this spelling or another. -/
  | kept {q : Path} {recording : Recording} : (q, recording) ∈ e.cache → q.same p = true →
    Fetched disk p e (.ok recording, e)
  | decoded {recording : Recording} : (∀ entry ∈ e.cache, entry.1.same p = false) →
    disk.decodeSound p = .ok recording →
    Fetched disk p e (.ok recording, { e with cache := e.cache ++ [(p, recording)] })
  | failed {reason : String} : (∀ entry ∈ e.cache, entry.1.same p = false) → disk.decodeSound p = .error reason →
    Fetched disk p e (.error (.decodeFailed p reason), e)

theorem Fetched.muted {disk : Disk} {p : Path} {e : MixingEngine} {d : Except AudioError Recording × MixingEngine}
    (h : Fetched disk p e d) : d.2.muted = e.muted := by
  cases h <;> rfl

theorem fileSound_fetched (disk : Disk) (p : Path) (e : MixingEngine) : Fetched disk p e (e.fileSound disk p) := by
  unfold fileSound
  split
  · rename_i entry hentry
    exact .kept (List.mem_of_find?_eq_some hentry) (by simpa using List.find?_some hentry)
  · rename_i hnone
    have hout : ∀ entry ∈ e.cache, entry.1.same p = false := by simpa using List.find?_eq_none.mp hnone
    split
    · exact .failed hout ‹_›
    · exact .decoded hout ‹_›

def Plays (i : InstanceId) (x : MixingInstance) (recording : Recording)
    (c : Except AudioError Unit × Rig MixingEngine StreamingLoader) : Prop :=
  c.1 = .ok () ∧ c.2.instance? i = some { x with
    started := true
    sound := some (Playback.ofData (.decoded recording) x.definition.looping x.level x.pitch) }

def Fails (i : InstanceId) (x : MixingInstance) (err : AudioError)
    (c : Except AudioError Unit × Rig MixingEngine StreamingLoader) : Prop :=
  c.1 = .error err ∧ c.2.instance? i = some { x with started := true }

theorem play_of_unmuted {r : Rig MixingEngine StreamingLoader} {i : InstanceId} {x : MixingInstance} (data : SoundData)
    (hx : r.instance? i = some x) (hm : i ∉ r.engine.muted) : (play i data r).1 = .ok () ∧
      (play i data r).2.instance? i =
        some { x with sound := some (Playback.ofData data x.definition.looping x.level x.pitch) } := by
  have hloud : (r.engine.device.any fun d => d.mute.contains i) = false := by
    unfold muted at hm
    cases hdev : r.engine.device with
    | none => rfl
    | some d =>
      rw [hdev] at hm
      simpa using hm
  unfold play
  rw [show r.engine.instances.get? i = some x from hx]
  dsimp only
  rw [hloud]
  exact ⟨rfl, instance?_modify (fun y => { y with sound := some _ }) rfl hx⟩

section

variable {r : Rig MixingEngine StreamingLoader} {i : InstanceId} {x : MixingInstance} {p : Path}

theorem sing_decoded {recording : Recording} {e : MixingEngine} (hf : x.definition.file = some p)
    (hd : r.engine.fileSound r.disk p = (.ok recording, e)) :
    sing i x r = play i (.decoded recording) { r with engine := e } := by
  unfold sing
  rw [hf]
  dsimp only
  rw [hd]

theorem sing_failed {err : AudioError} {e : MixingEngine} (hf : x.definition.file = some p)
    (hd : r.engine.fileSound r.disk p = (.error err, e)) : sing i x r = (.error err, { r with engine := e }) := by
  unfold sing
  rw [hf]
  dsimp only
  rw [hd]

/-- The first start of an instance with a file plays what is fetched, or fails as the fetching does. -/
theorem start_fetched (h : StartsFile r i x p) (hm : i ∉ r.engine.muted) :
    ∃ d, Fetched r.disk p (markStarted i r).engine d ∧ SameFiles d.2 (start i r).2.engine ∧
      (∀ recording, d.1 = .ok recording → Plays i x recording (start i r)) ∧
        ∀ err, d.1 = .error err → Fails i x err (start i r) := by
  obtain ⟨hx, hs, hf⟩ := h
  obtain ⟨hstart, -, hx₁⟩ := start_eq hx hs
  have hfetched := fileSound_fetched r.disk p (markStarted i r).engine
  have hmuted : i ∉ ((markStarted i r).engine.fileSound r.disk p).2.muted := by
    rw [hfetched.muted]
    exact hm
  have hx₂ : Rig.instance? { markStarted i r with engine := ((markStarted i r).engine.fileSound r.disk p).2 } i =
      some { x with started := true } :=
    (congrArg (·.get? i) (fileSound_same r.disk p (markStarted i r).engine).2.2).trans hx₁
  rw [hstart]
  refine ⟨_, hfetched, ?_⟩
  rcases hd : (markStarted i r).engine.fileSound r.disk p with ⟨err | recording, e⟩ <;> rw [hd] at hmuted hx₂
  · rw [sing_failed hf hd]
    exact ⟨.refl e, by rintro _ ⟨⟩, by rintro _ ⟨⟩; exact ⟨rfl, hx₂⟩⟩
  · rw [sing_decoded hf hd]
    refine ⟨.play i (.decoded recording) { markStarted i r with engine := e }, ?_, by rintro _ ⟨⟩⟩
    rintro _ ⟨⟩
    exact play_of_unmuted (.decoded recording) hx₂ hmuted

end

/-! ### What is kept -/

/-- Among the calls, an instance was started on the file at `q`, and that could be decoded. -/
def Opened (r : Rig MixingEngine StreamingLoader) (q : Path) : List EngineCall → Prop :=
  EngineCall.Came fun before c => ∃ i x recording, c = .start i ∧ StartsFile (EngineCall.run before r) i x q ∧
    r.disk.decodeSound q = .ok recording

/-- All files that were opened are kept, each under one of its spellings, and no others. -/
structure Stocked (disk : Disk) (opened : Path → Prop) (e : MixingEngine) : Prop where
  muted : e.muted = []
  source : ∀ {q recording}, (q, recording) ∈ e.cache → opened q ∧ disk.decodeSound q = .ok recording
  kept : ∀ {q}, opened q → ∃ entry ∈ e.cache, entry.1.same q = true

namespace Stocked

variable {disk : Disk} {opened more : Path → Prop} {e e' : MixingEngine} {p : Path}

theorem unmuted (h : Stocked disk opened e) (i : InstanceId) : i ∉ e.muted := by simp [h.muted]

theorem sameFiles (h : Stocked disk opened e) (hs : SameFiles e e') (hmore : ∀ q, more q ↔ opened q) :
    Stocked disk more e' := by
  refine ⟨hs.muted.trans h.muted, fun {q recording} hq => ?_, fun {q} hq => ?_⟩
  · rw [hs.cache] at hq
    rw [hmore]
    exact h.source hq
  · rw [hs.cache]
    exact h.kept ((hmore q).mp hq)

/-- What is fetched is kept, and whatever can be decoded is fetched. -/
theorem fetched (h : Stocked disk opened e) {d : Except AudioError Recording × MixingEngine}
    (hd : Fetched disk p e d)
    (hmore : ∀ q, more q ↔ opened q ∨ q = p ∧ ∃ recording, disk.decodeSound p = .ok recording) :
    Stocked disk more d.2 := by
  cases hd with
  | @kept q recording hq hsame =>
    refine ⟨h.muted, fun hq' => ?_, fun {q'} hq' => ?_⟩
    · obtain ⟨ho, hdec⟩ := h.source hq'
      exact ⟨(hmore _).mpr (.inl ho), hdec⟩
    · rcases (hmore q').mp hq' with ho | ⟨rfl, -⟩
      · exact h.kept ho
      · exact ⟨_, hq, hsame⟩
  | @decoded recording hout hdec =>
    refine ⟨h.muted, fun {q rec} hq => ?_, fun {q} hq => ?_⟩
    · rcases List.mem_append.mp hq with hq | hq
      · obtain ⟨ho, hdec⟩ := h.source hq
        exact ⟨(hmore _).mpr (.inl ho), hdec⟩
      · cases List.mem_singleton.mp hq
        exact ⟨(hmore _).mpr (.inr ⟨rfl, _, hdec⟩), hdec⟩
    · rcases (hmore q).mp hq with ho | ⟨rfl, -⟩
      · obtain ⟨entry, hentry, hsame⟩ := h.kept ho
        exact ⟨entry, List.mem_append_left _ hentry, hsame⟩
      · exact ⟨(q, recording), by simp, Path.same_refl q⟩
  | @failed reason hout hdec =>
    refine ⟨h.muted, fun hq => ?_, fun {q} hq => ?_⟩
    · obtain ⟨ho, hdec⟩ := h.source hq
      exact ⟨(hmore _).mpr (.inl ho), hdec⟩
    · rcases (hmore q).mp hq with ho | ⟨-, recording, hok⟩
      · exact h.kept ho
      · cases hdec.symm.trans hok

end Stocked

variable {r : Rig MixingEngine StreamingLoader}

theorem startsFile_unique {i : InstanceId} {x y : MixingInstance} {p q : Path} (h : StartsFile r i x p)
    (h' : StartsFile r i y q) : q = p := by
  obtain ⟨hx, -, hf⟩ := h
  obtain ⟨hy, -, hf'⟩ := h'
  cases hx.symm.trans hy
  exact Option.some.inj (hf'.symm.trans hf)

/-- Whatever calls are made, just the files that they opened are kept. -/
theorem stocked_run (hl : Ledger r.toBackstage []) (hnone : ∀ i, r.instance? i = none) (hcache : r.engine.cache = [])
    (hm : r.engine.muted = []) (calls : List EngineCall) :
    Stocked r.disk (fun q => Opened r q calls) (EngineCall.run calls r).engine := by
  -- of the calls only a first start of an instance with a file can add to what is kept, and that one opens it
  induction calls using List.reverseRecOn with
  | nil =>
    refine ⟨hm, fun {q recording} hq => ?_, fun hq => absurd hq EngineCall.not_came_nil⟩
    rw [EngineCall.run_nil, hcache] at hq
    cases hq
  | append_singleton calls c ih =>
    rw [EngineCall.run_concat]
    by_cases hc : ∃ i x p, c = .start i ∧ StartsFile (EngineCall.run calls r) i x p
    · obtain ⟨i, x, p, rfl, hs⟩ := hc
      obtain ⟨d, hfetched, hfiles, -⟩ := start_fetched hs (ih.unmuted i)
      rw [(EngineCall.ran hl hnone calls).disk] at hfetched
      have hmarked : Stocked r.disk (fun q => Opened r q calls) (markStarted i (EngineCall.run calls r)).engine :=
        ih.sameFiles (.withInstances _ _) fun _ => Iff.rfl
      refine (hmarked.fetched hfetched fun q => ?_).sameFiles hfiles fun _ => Iff.rfl
      refine EngineCall.came_concat.trans (or_congr_right ⟨?_, ?_⟩)
      · rintro ⟨j, y, recording, hj, hs', hdec⟩
        cases hj
        cases startsFile_unique hs hs'
        exact ⟨rfl, recording, hdec⟩
      · rintro ⟨rfl, recording, hdec⟩
        exact ⟨i, x, recording, rfl, hs, hdec⟩
    · refine ih.sameFiles (sameFiles_make fun i x p hi hs => hc ⟨i, x, p, hi, hs⟩) fun q => ?_
      refine EngineCall.came_concat.trans (or_iff_left ?_)
      rintro ⟨i, x, recording, hi, hs, -⟩
      exact hc ⟨i, x, q, hi, hs⟩

/-! ### What is played -/

section

variable {opened : Path → Prop} {i : InstanceId} {x : MixingInstance} {p q : Path} {recording : Recording}

theorem Stocked.plays_own (h : Stocked r.disk opened r.engine) (hs : StartsFile r i x p)
    (hp : r.disk.decodeSound p = .ok recording) : Plays i x recording (start i r) := by
  obtain ⟨d, hfetched, -, hplays, -⟩ := start_fetched hs (h.unmuted i)
  refine hplays recording ?_
  cases hfetched with
  | kept hq hsame =>
    obtain ⟨-, hdec⟩ := h.source hq
    rw [Disk.decodeSound_unique hsame hdec hp]
  | decoded _ hdec => rw [Except.ok.inj (hdec.symm.trans hp)]
  | failed _ hdec => cases hdec.symm.trans hp

theorem Stocked.plays_shared (h : Stocked r.disk opened r.engine) (hs : StartsFile r i x p) (hq : opened q)
    (hsame : q.same p = true) (hdec : r.disk.decodeSound q = .ok recording) : Plays i x recording (start i r) := by
  obtain ⟨d, hfetched, -, hplays, -⟩ := start_fetched hs (h.unmuted i)
  obtain ⟨entry, hentry, hkey⟩ := h.kept hq
  have hthere : entry.1.same p = true := Path.same_iff.mpr ((Path.same_iff.mp hkey).trans (Path.same_iff.mp hsame))
  refine hplays recording ?_
  cases hfetched with
  | kept hq' hsame' =>
    obtain ⟨-, hdec'⟩ := h.source hq'
    rw [Disk.decodeSound_unique (Path.same_of_same hsame' hsame) hdec' hdec]
  | decoded hout _ => exact absurd (hout entry hentry) (by simp [hthere])
  | failed hout _ => exact absurd (hout entry hentry) (by simp [hthere])

theorem Stocked.fails (h : Stocked r.disk opened r.engine) (hs : StartsFile r i x p) {reason : String}
    (hp : r.disk.decodeSound p = .error reason) (hout : ∀ q, opened q → q.same p = false) :
    Fails i x (.decodeFailed p reason) (start i r) := by
  obtain ⟨d, hfetched, -, -, hfails⟩ := start_fetched hs (h.unmuted i)
  refine hfails _ ?_
  cases hfetched with
  | kept hq hsame =>
    obtain ⟨ho, -⟩ := h.source hq
    exact absurd (hout _ ho) (by simp [hsame])
  | decoded _ hdec => cases hdec.symm.trans hp
  | failed _ hdec => rw [Except.error.inj (hdec.symm.trans hp)]

end

/-- After these calls `i` is there, was not started before, and has a file of its own. -/
structure Awaits (r : Rig MixingEngine StreamingLoader) (calls : List EngineCall) (i : InstanceId) (x : MixingInstance)
    (p : Path) : Prop where
  there : (EngineCall.run calls r).instance? i = some x
  first : ¬EngineCall.Started r i calls
  file : x.definition.file = some p

/-- What becomes of first starts of instances with files of their own. -/
structure FirstStarts (r : Rig MixingEngine StreamingLoader) (calls : List EngineCall) : Prop where
  /-- A file that can be decoded is played, whatever was started before. -/
  own : ∀ {i x p recording}, Awaits r calls i x p → r.disk.decodeSound p = .ok recording →
    Plays i x recording (start i (EngineCall.run calls r))
  /-- So is one that was opened under a spelling that can be decoded, whether its own can be or not. -/
  shared : ∀ {i x p q recording}, Awaits r calls i x p → Opened r q calls → q.same p = true →
    r.disk.decodeSound q = .ok recording → Plays i x recording (start i (EngineCall.run calls r))
  failed : ∀ {i x p reason}, Awaits r calls i x p → r.disk.decodeSound p = .error reason →
    (∀ q, Opened r q calls → q.same p = false) → Fails i x (.decodeFailed p reason) (start i (EngineCall.run calls r))
  /-- Where each file is spelled one way, nothing depends on what was started before. -/
  transparent : ∀ {i x p}, Awaits r calls i x p → (∀ q, Opened r q calls → q.same p = true → q = p) →
    ((start i (EngineCall.run calls r)).1 = .ok () ↔ ∃ recording, r.disk.decodeSound p = .ok recording)

/-- What first starts of files come to. Of an engine with a device whose tracks take every sound, and whatever calls
are made of it, the first start of an instance with a file plays the file, if it can be decoded as its path is spelled.
If not, the start fails, unless the file was opened before under another spelling: then that is played. -/
theorem starts_of_files_exact (config : Config) (device : Device) (disk : Disk) (calls : List EngineCall) :
    FirstStarts { disk, loader := {}, engine := .ofConfig config (some { device with mute := [] }) } calls := by
  generalize hr : ({ disk, loader := {}, engine := .ofConfig config (some { device with mute := [] }) } :
    Rig MixingEngine StreamingLoader) = r
  have hlive : ∀ y, ¬LawfulLoader.IsLive ({} : StreamingLoader) y := fun _ h => h rfl
  have hl : Ledger r.toBackstage [] := by
    subst hr
    exact .empty rfl (fun y hy => absurd hy (hlive y)) hlive
  have hnone : ∀ i, r.instance? i = none := by
    subst hr
    exact fun _ => rfl
  -- the calls leave the disk as it is, and mark an instance as started just if it was called to start
  have hran := EngineCall.ran hl hnone calls
  have hstocked := stocked_run hl hnone (by subst hr; rfl) (by subst hr; rfl) calls
  rw [← hran.disk] at hstocked
  have hstarts : ∀ {i x p}, Awaits r calls i x p → StartsFile (EngineCall.run calls r) i x p := fun h => by
    refine ⟨h.there, ?_, h.file⟩
    rw [← Bool.not_eq_true, hran.started h.there]
    exact h.first
  refine ⟨fun h hp => ?_, fun h hq hsame hdec => ?_, fun h hp hout => ?_, fun {i x p} h hspelled => ⟨fun hok => ?_, ?_⟩⟩
  · exact hstocked.plays_own (hstarts h) (hran.disk ▸ hp)
  · exact hstocked.plays_shared (hstarts h) hq hsame (hran.disk ▸ hdec)
  · exact hstocked.fails (hstarts h) (hran.disk ▸ hp) hout
  · cases hp : r.disk.decodeSound p with
    | ok recording => exact ⟨recording, rfl⟩
    | error reason =>
      -- nothing that was opened is this file, as that cannot be decoded
      have hout : ∀ q, Opened r q calls → q.same p = false := by
        intro q hq
        rw [← Bool.not_eq_true]
        intro hsame
        have hsame := hspelled q hq hsame
        obtain ⟨before, c, after, -, j, y, recording, -, -, hdec⟩ := hq
        rw [hsame, hp] at hdec
        cases hdec
      have hfails := hstocked.fails (hstarts h) (hran.disk ▸ hp) hout
      cases hok.symm.trans hfails.1
  · rintro ⟨recording, hp⟩
    exact (hstocked.plays_own (hstarts h) (hran.disk ▸ hp)).1

/-- A spelling that leads nowhere plays once another one was opened, and fails if none was. -/
theorem start_depends_on_spellings :
    let p : Path := ⟨"x.wav/"⟩
    let disk := Disk.ofList [(⟨"x.wav"⟩, .file (.recording ⟨160, 1, 16000⟩))]
    let events := (NameMap.empty.insert "SFX/a" { file := some ⟨"x.wav"⟩ }).insert "SFX/b" { file := some p }
    let r : Rig MixingEngine StreamingLoader :=
      { disk, loader := {}, engine := .ofConfig { events } (some {}) }
    let created := [.create "SFX/a", .create "SFX/b"]
    let calls := created ++ [.start ⟨1⟩]
    (∃ x, Awaits r calls ⟨2⟩ x p) ∧ (start ⟨2⟩ (EngineCall.run calls r)).1 = .ok () ∧
      disk.decodeSound p = .error "Not a directory (os error 20)" ∧
        (start ⟨2⟩ (EngineCall.run created r)).1 = .error (.decodeFailed p "Not a directory (os error 20)") := by
  intro p disk events r created calls
  have hlive : ∀ y, ¬LawfulLoader.IsLive ({} : StreamingLoader) y := fun _ h => h rfl
  have hl : Ledger r.toBackstage [] := .empty rfl (fun y hy => absurd hy (hlive y)) hlive
  have hran := EngineCall.ran hl (fun _ => rfl) calls
  have hthere : ((EngineCall.run calls r).instance? ⟨2⟩).isSome = true := by decide +kernel
  have hfresh : ((EngineCall.run calls r).instance? ⟨2⟩).all (fun x =>
      !x.started && x.definition.file == some p) = true := by
    decide +kernel
  obtain ⟨x, hx⟩ := Option.isSome_iff_exists.mp hthere
  rw [hx, Option.all_some, Bool.and_eq_true, Bool.not_eq_true', beq_iff_eq] at hfresh
  refine ⟨⟨x, hx, ?_, hfresh.2⟩, by decide +kernel, by decide +kernel, by decide +kernel⟩
  rw [← hran.started hx, hfresh.1]
  simp

end MixingEngine

end Soundstage
