import Mathlib.Data.List.Induction
import Soundstage.Proofs.System.Isolation

/-!
# One background track

Old tracks are valid for as long as they fade, so the music may track many instances. `Solo last`
says that all of them were stopped and given up, except `last`, which may be neither. A new track is
posted only after each old one was stopped, and nobody but the music can stop or give up a track, so
in every run `Solo` holds with `last` the one that was posted last (`solo_run`). Main statement:
`one_background_track`.
-/

namespace Soundstage

open Playable Staged Function

/-! ### Steady rigs -/

/-- Instances may have gone, but what is left has the status that it had. -/
def Steady {E L X S : Type} [Staged E X S] [Playable X S] (r r' : Rig E L) : Prop :=
  ∀ j y, r'.instance? j = some y → ∃ x, r.instance? j = some x ∧ status y = status x

namespace Steady

section

variable {E L X S : Type} [Staged E X S] [Playable X S] {r r' r'' : Rig E L}

theorem refl (r : Rig E L) : Steady r r := fun _ y hy => ⟨y, hy, rfl⟩

theorem trans (h : Steady r r') (h' : Steady r' r'') : Steady r r'' := by
  intro j z hz
  obtain ⟨y, hy, e⟩ := h' j z hz
  obtain ⟨x, hx, e'⟩ := h j y hy
  exact ⟨x, hx, e.trans e'⟩

theorem of_instances {f : InstanceId → X → X} (hinst : ∀ j, r'.instance? j = (r.instance? j).map (f j))
    (hf : ∀ j x, status (f j x) = status x) : Steady r r' := by
  intro j y hy
  rw [hinst, Option.map_eq_some_iff] at hy
  obtain ⟨x, hx, rfl⟩ := hy
  exact ⟨x, hx, hf j x⟩

theorem of_cleared [Loader L] [LawfulLoader L] {gone : InstanceId → Prop} (h : Cleared gone r r') : Steady r r' :=
  fun _ y hy => ⟨y, h.present hy, rfl⟩

end

variable {E L X S : Type} [Loader L] [LawfulLoader L] [Engine E L] [Staged E X S] [Playable X S]
  [LawfulEngine E L X S]

theorem tick {v : View E L} {o : Owner} {em : Emitter} (h : Orderly v) (hv : v.Reads o em) (position : Vec3) :
    Steady v.rig (em.tick position v.rig).2.2 :=
  of_instances (em.tick_wrote position (hv.ids ▸ h.nodup o) v.rig).instances fun _ x => onEach_same (status_place _) x

theorem tickEach {s : System E L} (transform : EntityId → Option Vec3) (order : List EntityId)
    (h : Orderly s.view) : Steady s.rig (System.tickEach transform order s).2.rig := by
  induction order generalizing s with
  | nil => exact refl _
  | cons entity rest ih =>
    have hone : Steady s.rig (s.tickEntity transform entity).2.rig := by
      unfold System.tickEntity
      cases he : s.emitter? entity with
      | none => exact refl _
      | some em => exact tick h (System.reads_emitter he) _
    exact hone.trans (ih (h.plainly (System.tickEntity_plainly h transform entity)))

theorem tickIn {s : System E L} (order : List EntityId) (transform : EntityId → Option Vec3) (h : Orderly s.view) :
    Steady s.rig (s.tickIn order transform).2.rig := by
  have hup : Plainly s.view { s with rig := s.rig.update }.view := .single .update rfl
  have heach := System.tickEach_plainly transform order (h.plainly hup)
  have hupdated : Steady s.rig s.rig.update := of_cleared (LawfulEngine.update_cleared s.rig h.ledger)
  have hticked := hupdated.trans (tickEach transform order (h.plainly hup))
  unfold System.tickIn
  dsimp only
  generalize System.tickEach transform order { s with rig := s.rig.update } = c at heach hticked ⊢
  obtain ⟨n, s'⟩ := c
  exact hticked.trans (tick ((h.plainly hup).plainly heach) (System.reads_music s') _)

end Steady

/-! ### Stopping the music -/

section

variable {E L X S : Type} [Loader L] [LawfulLoader L] [Engine E L] [Staged E X S] [Playable X S]
  [LawfulEngine E L X S]

/-- An emitter that stops one of its own answers whether it is there, and leaves it stopped and given up. -/
theorem Emitter.stopHandle_own {v : View E L} {o : Owner} {em : Emitter} (h : Orderly v) (hv : v.Reads o em)
    {g : Handle} (hg : g.instanceId ∈ v.ids o) (mode : StopMode) : let c := em.stopHandle g mode v.rig
    c.1 = (v.rig.instance? g.instanceId).isSome ∧ (∀ j, (c.2.2.instance? j).isSome = (v.rig.instance? j).isSome) ∧
      Silent c.2.2 [g] := by
  intro c
  obtain ⟨k, hk, hkg⟩ := View.mem_ids.mp hg
  have hs : Stopped mode g.instanceId em v.rig c := stopHandle_stopped (hv.ids ▸ h.nodup o) g mode v.rig
  clear_value c
  cases hs with
  | nothing hnone =>
    have hgone := hnone k (hv.handles ▸ hk) hkg
    refine ⟨by rw [hgone]; rfl, fun _ => rfl, fun g' hg' x hx => ?_⟩
    rw [List.mem_singleton.mp hg', hgone] at hx
    cases hx
  | @stopped k' r' hk' hi hrel hlive hw =>
    refine ⟨(Option.isSome_iff_ne_none.mpr hlive).symm, hw.isSome_iff, fun g' hg' y hy => ?_⟩
    rw [List.mem_singleton.mp hg'] at hy
    obtain ⟨x, hx, rfl⟩ := hw.source hy
    have hfit := h.fits (hv.handles ▸ hk') (hi ▸ hx)
    rw [onEach_of_mem (List.mem_singleton_self _), status_stop]
    exact ⟨hfit.released.trans hrel, rfl⟩
  | @released k' r' r'' hk' hi hrel hlive hw hw' =>
    refine ⟨(Option.isSome_iff_ne_none.mpr hlive).symm, fun j => (hw'.isSome_iff j).trans (hw.isSome_iff j),
      fun g' hg' z hz => ?_⟩
    rw [List.mem_singleton.mp hg'] at hz
    obtain ⟨y, hy, rfl⟩ := hw'.source hz
    obtain ⟨x, hx, rfl⟩ := hw.source hy
    rw [onEach_of_mem (List.mem_singleton_self _), onEach_of_mem (List.mem_singleton_self _), status_release,
      status_stop]
    exact ⟨rfl, rfl⟩

namespace System

theorem stopMusicEach_silences (mode : StopMode) {hs : List Handle} {v : View E L} {em : Emitter} (h : Orderly v)
    (hv : v.Reads .music em) (hmem : ∀ g ∈ hs, g.instanceId ∈ v.ids .music) : let c := stopMusicEach mode hs em v.rig
    c.1 = hs.countP (fun g => (v.rig.instance? g.instanceId).isSome) ∧ Silent c.2.2 hs := by
  -- the list is one from before, but what it names is looked up in the emitter as it is by then
  induction hs generalizing v em with
  | nil => exact ⟨rfl, fun _ hg => absurd hg List.not_mem_nil⟩
  | cons g rest ih =>
    obtain ⟨hanswer, hlive, hsilent⟩ := Emitter.stopHandle_own h hv (hmem g (List.mem_cons_self ..)) mode
    have hstep := Plainly.stopHandle h hv g mode
    have hids := View.ids_of_origins (View.origins_put_same (r := (em.stopHandle g mode v.rig).2.2) hv
      (em.origins_stopHandle g mode v.rig))
    have hrest := ih (h.plainly hstep) View.reads_put fun g' hg' =>
      hids ▸ hmem g' (List.mem_cons_of_mem _ hg')
    have hafter := stopMusicEach_plainly mode rest (h.plainly hstep) View.reads_put
    unfold stopMusicEach
    generalize em.stopHandle g mode v.rig = c at hanswer hlive hsilent hstep hrest hafter ⊢
    obtain ⟨stopped, em', r'⟩ := c
    dsimp only [View.rig_put] at hanswer hlive hsilent hrest hafter ⊢
    refine ⟨?_, fun g' hg' => ?_⟩
    · rw [hrest.1, hanswer, List.countP_cons]
      simp only [hlive]
      split <;> rfl
    · rcases List.mem_cons.mp hg' with rfl | hg'
      · exact ((Plainly.fades (h.plainly hstep) hafter).silent hsilent) g' (List.mem_singleton_self _)
      · exact hrest.2 g' hg'

variable {s : System E L}

theorem stopMusic_silences (h : Orderly s.view) (mode : StopMode) :
    (s.stopMusic mode).1 = s.music.handles.countP (fun g => s.rig.isValid g.instanceId) ∧
      Silent (s.stopMusic mode).2.rig ((s.stopMusic mode).2.view.handles .music) := by
  have hids : (s.stopMusic mode).2.view.ids .music = s.view.ids .music :=
    congrFun (View.ids_of_origins (s.origins_stopMusic mode)) .music
  obtain ⟨hcount, hsilent⟩ := stopMusicEach_silences mode h (reads_music s) fun g hg => List.mem_map_of_mem hg
  refine ⟨?_, fun g hg => ?_⟩
  · refine (show (s.stopMusic mode).1 = _ from hcount).trans (List.countP_congr fun g _ => ?_)
    rw [Rig.isValid_eq]
    rfl
  · have hold : g.instanceId ∈ s.view.ids .music := hids ▸ List.mem_map_of_mem hg
    obtain ⟨k, hk, hkg⟩ := View.mem_ids.mp hold
    exact hkg ▸ hsilent k hk

/-- Once the music is silent, a file is posted where the listener is, or nothing is. -/
theorem playMusic_enters (h : Orderly s.view) (file : Path) : ∃ s' : System E L,
    Silent s'.rig (s'.view.handles .music) ∧
      ((s.playMusic file).1 = none ∧ (s.playMusic file).2.view.handles .music = s'.view.handles .music ∧
          Wrote (fun _ x => x) s'.rig (s.playMusic file).2.rig ∨
        ∃ i r₀, let c : Cue := ⟨s'.config.template true, some file, true⟩
          (s.playMusic file).1 = some (c.handle i) ∧ Wrote (fun _ x => x) s'.rig r₀ ∧
          (s.playMusic file).2.view.handles .music = s'.view.handles .music ++ [c.handle i] ∧
          (s'.music.setPosition s.listener.position).Entered c i r₀ (s.playMusic file).2.rig) := by
  obtain ⟨-, hsilent⟩ := stopMusic_silences h .allowFadeOut
  have ho := h.plainly (stopMusic_plainly h .allowFadeOut)
  have hlistener : (s.stopMusic .allowFadeOut).2.listener = s.listener := rfl
  refine ⟨(s.stopMusic .allowFadeOut).2, hsilent, ?_⟩
  unfold playMusic
  generalize s.stopMusic .allowFadeOut = c at ho hlistener ⊢
  obtain ⟨n, s'⟩ := c
  dsimp only at ho hlistener ⊢
  have hplay : (s'.music.setPosition s'.listener.position).postFile (s'.config.template true) file true s'.rig =
      (s'.music.setPosition s'.listener.position).play ⟨s'.config.template true, some file, true⟩ s'.rig := rfl
  rw [hplay, hlistener]
  rcases (s'.music.setPosition s.listener.position).play_cases ⟨s'.config.template true, some file, true⟩ s'.rig with
    ⟨r', hp, hw⟩ | ⟨i, r₀, made, begun, r', hw, hp, hposted⟩ <;> rw [hp]
  · exact .inl ⟨rfl, rfl, hw⟩
  · have h₀ : Orderly (s'.view.withRig r₀) := ho.move (.calm hw)
    exact .inr ⟨i, r₀, rfl, hw, rfl, h₀.entered hposted⟩

end System

end

/-! ### One track -/

/-- All that the music tracks was stopped and given up; only `last` may be neither. -/
def Solo {E L X S : Type} [Staged E X S] [Playable X S] (last : Option InstanceId) (v : View E L) : Prop :=
  ∀ i ∈ v.ids .music, ∀ x, v.rig.instance? i = some x → (status x).released = true ∧ (status x).stopped = true ∨
    last = some i ∧ (status x).released = false ∧ (status x).stopped = false

namespace Solo

section

variable {E L X S : Type} [Staged E X S] [Playable X S] {last : Option InstanceId} {v w : View E L}

theorem of_silent (h : Silent v.rig (v.handles .music)) : Solo last v := by
  intro i hi x hx
  obtain ⟨g, hg, rfl⟩ := View.mem_ids.mp hi
  exact .inl (h g hg x hx)

theorem steady (h : Solo last v) (hs : Steady v.rig w.rig) (hids : w.ids .music ⊆ v.ids .music) : Solo last w := by
  intro i hi y hy
  obtain ⟨x, hx, e⟩ := hs i y hy
  rw [e]
  exact h i (hids hi) x hx

end

section

variable {E L X S : Type} [Loader L] [LawfulLoader L] [Staged E X S] [Playable X S] {last : Option InstanceId}
  {s s' : System E L}

theorem spared (h : Solo last s.view) (ho : Orderly s.view) {entity : EntityId}
    (hp : s.Private (.entity entity) s') : Solo last s'.view := by
  have hmusic : s'.view.ids .music = s.view.ids .music :=
    congrArg (fun em => (em.elim [] (·.handles)).map Handle.instanceId) (hp.others .music nofun)
  intro i hi x hx
  rw [hmusic] at hi
  have hsame := (hp.spared ho (p := .music) nofun (System.tracks_iff.mpr hi)).1
  exact h i hi x (hsame.symm.trans hx)

end

end Solo

/-! ### Runs of the scripted engine -/

namespace ScriptedInstance

theorem dressed_fresh (em : Emitter) (events : List String) (c : Cue) :
    let x : ScriptedInstance := em.dressed events c
    x.released = false ∧ x.stopMode = none ∧ x.attributes = some em.attributes := by
  have floats : ∀ name value (x : ScriptedInstance), let y := x.setFloat name value
      (y.released, y.stopMode, y.attributes) = (x.released, x.stopMode, x.attributes) := by
    intro name value x
    unfold setFloat
    split <;> rfl
  have labels : ∀ name label (x : ScriptedInstance), let y := x.setLabel name label
      (y.released, y.stopMode, y.attributes) = (x.released, x.stopMode, x.attributes) := by
    intro name label x
    unfold setLabel
    split <;> rfl
  have h := em.params.dress_same (fun x : ScriptedInstance => (x.released, x.stopMode, x.attributes)) floats labels
    (Playable.place em.attributes (receive (c.receiver em.entity) (fresh events c.event)))
  simp only [Prod.mk.injEq] at h
  exact h

/-- What is kept starts as its emitter has it: not stopped, not given up, and where the emitter is. -/
theorem entered {em : Emitter} {c : Cue} {i : InstanceId} {r r' : Rig ScriptedEngine ScriptedLoader}
    (he : em.Entered c i r r') (hkeep : c.keep = true) : ∃ x, r'.instance? i = some x ∧ x.started = true ∧
      x.released = false ∧ x.isStopped = false ∧ x.attributes = some em.attributes := by
  obtain ⟨x, hbegun, hx⟩ := he.own
  obtain ⟨hreleased, hstop, hattributes⟩ := dressed_fresh em r.setting c
  rw [if_pos hkeep] at hx
  subst hbegun
  exact ⟨_, hx, rfl, hreleased, congrArg Option.isSome hstop, hattributes⟩

end ScriptedInstance

section

variable {last : Option InstanceId} {s : System ScriptedEngine ScriptedLoader}

/-- A track that is posted is at the listener's, and all that were there are stopped and given up. -/
theorem System.playMusic_starts (h : Orderly s.view) {file : Path} {g : Handle} (hg : (s.playMusic file).1 = some g) :
    Solo (some g.instanceId) (s.playMusic file).2.view ∧ g ∈ (s.playMusic file).2.music.handles ∧
      ∃ x, (s.playMusic file).2.rig.instance? g.instanceId = some x ∧ x.started = true ∧ x.isStopped = false ∧
        x.attributes.map (·.position) = some s.listener.position := by
  obtain ⟨s', hsilent, ⟨hn, -⟩ | ⟨i, r₀, hi, hw, hhandles, he⟩⟩ := playMusic_enters h file
  · rw [hn] at hg
    cases hg
  cases hi.symm.trans hg
  obtain ⟨x, hx, hstarted, hreleased, hstopped, hattributes⟩ := ScriptedInstance.entered he rfl
  refine ⟨fun j hj y hy => ?_, ?_, x, hx, hstarted, hstopped, by rw [hattributes]; rfl⟩
  · by_cases hji : j = i
    · subst hji
      cases hx.symm.trans hy
      exact .inr ⟨rfl, hreleased, hstopped⟩
    · -- all the others are old, so they were stopped before
      obtain ⟨k, hk, rfl⟩ := View.mem_ids.mp hj
      obtain ⟨y', hy', rfl⟩ := hw.source ((he.others k.instanceId hji).symm.trans hy)
      rw [hhandles] at hk
      rcases List.mem_append.mp hk with hk | hk
      · exact .inl (hsilent k hk _ hy')
      · rw [List.mem_singleton.mp hk] at hji
        exact absurd rfl hji
  · change _ ∈ (s.playMusic file).2.view.handles .music
    rw [hhandles]
    exact List.mem_append_right _ (List.mem_singleton_self _)

namespace Solo

theorem playMusic (h : Orderly s.view) (file : Path) :
    Solo (((s.playMusic file).1.map Handle.instanceId).or last) (s.playMusic file).2.view := by
  cases ha : (s.playMusic file).1 with
  | some g => exact (System.playMusic_starts h ha).1
  | none =>
    obtain ⟨s', hsilent, ⟨-, hhandles, hw⟩ | ⟨i, r₀, hi, -⟩⟩ := System.playMusic_enters h file
    · have hids : (s.playMusic file).2.view.ids .music = s'.view.ids .music := congrArg _ hhandles
      exact (of_silent hsilent : Solo last s'.view).steady (.of_instances hw.instances fun _ _ => rfl)
        (hids ▸ List.Subset.refl _)
    · rw [ha] at hi
      cases hi

theorem request (h : Solo last s.view) (ho : Orderly s.view) (q : Request) :
    Solo (((q.posted .music s).map Handle.instanceId).or last) (q.perform s).2.view := by
  have entity : ∀ {e}, q.addressee? = some (.entity e) → q.poster? ≠ some .music →
      Solo (((q.posted .music s).map Handle.instanceId).or last) (q.perform s).2.view := by
    intro e hq hp
    unfold Request.posted
    rw [if_neg hp]
    exact h.spared ho (Request.is_private ho hq)
  cases q with
  | playMusic file => exact playMusic ho file
  | stopMusic mode => exact of_silent (System.stopMusic_silences ho mode).2
  | setListener attributes =>
    exact h.steady (.of_instances (s.rig.setListener_wrote _).instances fun _ _ => rfl) (List.Subset.refl _)
  | setListenerPosition position =>
    exact h.steady (.of_instances (s.rig.setListener_wrote _).instances fun _ _ => rfl) (List.Subset.refl _)
  | tick visit transform =>
    refine h.steady (.tickIn _ transform ho) fun i hi => ?_
    obtain ⟨g, hg, rfl⟩ := View.mem_ids.mp hi
    have hreaped := System.tickIn_reaps ho transform (Request.mem_order visit) .music
    exact View.mem_ids.mpr ⟨g, List.mem_of_mem_filter (hreaped ▸ hg), rfl⟩
  | shutdown visit =>
    intro i _ x hx
    exact absurd ((ScriptedEngine.shutdownIn_vacant ho visit i).symm.trans hx) nofun
  | _ => exact entity rfl nofun

theorem event (h : Solo last s.view) (ho : Orderly s.view) (v : ScriptedEvent) :
    Solo last { s with rig := v.happen s.rig }.view := by
  refine h.steady ?_ (List.Subset.refl _)
  cases v.befell s.rig ho.ledger with
  | cleared hc => exact .of_cleared hc
  | changed _ hinst _ _ hf => exact .of_instances hinst fun j x => (hf j x).1

end Solo

end

namespace Turn

variable {E L V : Type} [Loader L] [Engine E L]

/-- The handles that `o` is given in the turns after `before`, oldest first. -/
def given (run : List (Turn V) → System E L) (o : Owner) (before : List (Turn V)) : List (Turn V) → List Handle
  | [] => []
  | t :: rest => (t.posted o (run before)).toList ++ given run o (before ++ [t]) rest

theorem given_concat (run : List (Turn V) → System E L) (o : Owner) (before turns : List (Turn V)) (t : Turn V) :
    given run o before (turns ++ [t]) = given run o before turns ++ (t.posted o (run (before ++ turns))).toList := by
  induction turns generalizing before with
  | nil =>
    rw [List.nil_append, List.append_nil]
    exact List.append_nil _
  | cons u rest ih =>
    rw [List.cons_append, given, ih, List.append_assoc, List.singleton_append, given, List.append_assoc]

/-- The instance that was posted for `o` last. -/
def latest (run : List (Turn V) → System E L) (o : Owner) (turns : List (Turn V)) : Option InstanceId :=
  (given run o [] turns).getLast?.map Handle.instanceId

theorem latest_concat (run : List (Turn V) → System E L) (o : Owner) (turns : List (Turn V)) (t : Turn V) :
    latest run o (turns ++ [t]) = ((t.posted o (run turns)).map Handle.instanceId).or (latest run o turns) := by
  unfold latest
  rw [given_concat, List.nil_append, List.getLast?_append]
  cases t.posted o (run turns) <;> rfl

end Turn

section

variable (events : List String) (config : Config) (files : List Path) (disk : Disk) (turns : List (Turn ScriptedEvent))

theorem solo_run : let run := scriptedRun events config files disk
    Solo (Turn.latest run .music turns) (run turns).view := by
  intro run
  induction turns using List.reverseRecOn with
  | nil => exact fun _ hi => absurd hi List.not_mem_nil
  | append_singleton turns t ih =>
    have ho : Orderly (run turns).view := scriptedRun_orderly events config files disk turns
    have hstep : run (turns ++ [t]) = t.take ScriptedEvent.happen (run turns) := Turn.run_append ..
    rw [Turn.latest_concat, hstep]
    cases t with
    | request q => exact Solo.request ih ho q
    | event v => exact Solo.event ih ho v

end

/-- The instance `i` of the music is there, and it is `x`. -/
def System.OnAir (s : System ScriptedEngine ScriptedLoader) (i : InstanceId) (x : ScriptedInstance) : Prop :=
  s.Tracks .music i ∧ s.rig.engine.instances.get? i = some x

/-- What holds of the music when a run has come to `turns`. -/
structure OneTrack (run : List (Turn ScriptedEvent) → System ScriptedEngine ScriptedLoader)
    (turns : List (Turn ScriptedEvent)) : Prop where
  /-- At most one track was not stopped. -/
  sole : ∀ {i j x y}, (run turns).OnAir i x → x.isStopped = false → (run turns).OnAir j y → y.isStopped = false → i = j
  /-- It is the one that was posted last, and the only one that was not given up. -/
  last : ∀ {i x}, (run turns).OnAir i x → x.isStopped = false → Turn.latest run .music turns = some i ∧
    x.released = false ∧ ∀ {j y}, (run turns).OnAir j y → y.released = false → j = i
  /-- The others were given up too, and the next update takes them away. -/
  fading : ∀ {i x}, (run turns).OnAir i x → x.isStopped = true →
    x.released = true ∧ (ScriptedEngine.update (run turns).rig).engine.instances.get? i = none
  /-- To stop the music is to stop all of it, and the answer counts the tracks that were there. -/
  stopped : ∀ mode, let s := run turns
    (s.music.handles.map Handle.instanceId).Nodup ∧
    (s.stopMusic mode).1 = s.music.handles.countP (fun g => s.rig.isValid g.instanceId) ∧
    ∀ {i x}, (s.stopMusic mode).2.OnAir i x → x.isStopped = true ∧ x.released = true
  /-- No entity touches a track. -/
  untouched : ∀ {q : Request} {e : EntityId}, q.addressee? = some (.entity e) → ∀ {i}, (run turns).Tracks .music i →
    (q.perform (run turns)).2.rig.engine.instances.get? i = (run turns).rig.engine.instances.get? i
  /-- A track starts where the listener is. -/
  posted : ∀ {file g}, ((run turns).playMusic file).1 = some g →
    ∃ x, ((run turns).playMusic file).2.OnAir g.instanceId x ∧ x.started = true ∧ x.isStopped = false ∧
      x.attributes.map (·.position) = some (run turns).listener.position

/-- There is one background track, at every point of every run. -/
theorem one_background_track (events : List String) (config : Config) (files : List Path) (disk : Disk)
    (turns : List (Turn ScriptedEvent)) : OneTrack (scriptedRun events config files disk) turns := by
  have ho : Orderly (scriptedRun events config files disk turns).view :=
    scriptedRun_orderly events config files disk turns
  have hcases : ∀ {i x}, (scriptedRun events config files disk turns).OnAir i x →
      x.released = true ∧ x.isStopped = true ∨
        Turn.latest (scriptedRun events config files disk) .music turns = some i ∧ x.released = false ∧
          x.isStopped = false :=
    fun {i x} h => solo_run events config files disk turns i (System.tracks_iff.mp h.1) x h.2
  have hplaying : ∀ {i x}, (scriptedRun events config files disk turns).OnAir i x → x.isStopped = false →
      Turn.latest (scriptedRun events config files disk) .music turns = some i ∧ x.released = false := by
    intro i x hi hx
    rcases hcases hi with ⟨-, hstopped⟩ | ⟨hlast, hreleased, -⟩
    · rw [hx] at hstopped
      cases hstopped
    · exact ⟨hlast, hreleased⟩
  generalize hs : scriptedRun events config files disk turns = s at ho hcases hplaying
  refine ⟨?_, ?_, ?_, ?_, ?_, ?_⟩ <;> rw [hs]
  · intro i j x y hi hx hj hy
    have hij := (hplaying hi hx).1.symm.trans (hplaying hj hy).1
    exact Option.some.inj hij
  · intro i x hi hx
    obtain ⟨hlast, hreleased⟩ := hplaying hi hx
    refine ⟨hlast, hreleased, fun {j y} hj hy => ?_⟩
    rcases hcases hj with ⟨hr, -⟩ | ⟨hlast', -⟩
    · rw [hy] at hr
      cases hr
    · exact Option.some.inj (hlast'.symm.trans hlast)
  · intro i x hi hx
    have hreleased : x.released = true := by
      rcases hcases hi with ⟨hr, -⟩ | ⟨-, -, hn⟩
      · exact hr
      · rw [hx] at hn
        cases hn
    have hdone : x.isDone = true := by
      rw [ScriptedInstance.isDone, hreleased, hx, Bool.or_true]
      rfl
    exact ⟨hreleased, (LawfulEngine.update_cleared s.rig ho.ledger).taken i ⟨x, hi.2, hdone⟩⟩
  · intro mode
    obtain ⟨hcount, hsilent⟩ := System.stopMusic_silences ho mode
    refine ⟨ho.nodup .music, hcount, fun {i x} hi => ?_⟩
    obtain ⟨g, hg, rfl⟩ := View.mem_ids.mp (System.tracks_iff.mp hi.1)
    exact (hsilent g hg x hi.2).symm
  · intro q e hq i hi
    have hother : Owner.music ≠ .entity e := by simp
    exact ((Request.is_private ho hq).spared ho hother hi).1
  · intro file g hg
    obtain ⟨-, hm, x, hx, hstarted, hstopped, hposition⟩ := System.playMusic_starts ho hg
    exact ⟨x, ⟨⟨_, rfl, g, hm, rfl⟩, hx⟩, hstarted, hstopped, hposition⟩

end Soundstage
