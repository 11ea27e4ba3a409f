import Soundstage.Proofs.Engine.FileCache
import Soundstage.Proofs.Engine.Turns

/-!
# Attempts to play a file

An instance of the mixing engine counts as started from its first start on, also when that fails. So the first start
decides for good whether an instance with a file of its own plays: if it is refused, there is no sound, and later starts
are not refused but do nothing, whatever has become of the file (`first_start_decides`, `refused_start_is_final`). Before
the first start nothing else can give such an instance a sound, and after it nothing can give or take one
(`EngineTurn.stance_effect`).
-/

namespace Soundstage

open Playable MixingEngine

/-- What there is to know of an instance to tell what a start comes to: its event, whether it was started, and whether
it has a sound. -/
def MixingInstance.stance (x : MixingInstance) : Event × Bool × Bool := (x.definition, x.started, x.sound.isSome)

/-! ### One start -/

namespace MixingEngine

variable {r : Rig MixingEngine StreamingLoader} {i : InstanceId} {x : MixingInstance} {p : Path}

theorem start_again (hx : r.instance? i = some x) (hs : x.started = true) : start i r = (.ok (), r) := by
  unfold start
  rw [show r.engine.instances.get? i = some x from hx]
  exact if_pos hs

theorem start_absent (hx : r.instance? i = none) : start i r = (.error (.invalidInstance i), r) := by
  unfold start
  rw [show r.engine.instances.get? i = none from hx]

theorem start_attempt (h : StartsFile r i x p) : (start i r).2.toBackstage = r.toBackstage ∧
    ((∃ recording, Plays i x recording (start i r)) ∨ ∃ err, Fails i x err (start i r)) := by
  obtain ⟨hx, hs, hf⟩ := h
  obtain ⟨hstart, hsame, hx₁⟩ := start_eq hx hs
  rw [hstart, ← hsame]
  -- fetching the file changes no instance
  have hx₂ : Rig.instance? { markStarted i r with engine := ((markStarted i r).engine.fileSound r.disk p).2 } i =
      some { x with started := true } :=
    (congrArg (·.get? i) (fileSound_same r.disk p (markStarted i r).engine).2.2).trans hx₁
  rcases hd : (markStarted i r).engine.fileSound r.disk p with ⟨err | recording, e⟩ <;> rw [hd] at hx₂
  · rw [sing_failed hf hd]
    exact ⟨rfl, .inr ⟨err, rfl, hx₂⟩⟩
  · rw [sing_decoded hf hd]
    obtain ⟨hplayed, sound, hhanded, hx₃⟩ := play_handed i (.decoded recording) hx₂
    refine ⟨hplayed, ?_⟩
    rcases hhanded with ⟨hok, rfl⟩ | ⟨herr, rfl⟩
    · exact .inl ⟨recording, hok, hx₃⟩
    · exact .inr ⟨_, herr, hx₃⟩

theorem start_readable (h : StartsFile r i x p) (hm : i ∉ r.engine.muted) {recording : Recording}
    (hp : r.disk.decodeSound p = .ok recording) : ∃ played, Plays i x played (start i r) := by
  obtain ⟨d, hfetched, -, hplays, -⟩ := start_fetched h hm
  cases hfetched with
  | kept _ _ => exact ⟨_, hplays _ rfl⟩
  | decoded _ _ => exact ⟨_, hplays _ rfl⟩
  | failed _ hdec => cases hdec.symm.trans hp

end MixingEngine

/-! ### Turns -/

namespace EngineTurn

theorem stance_setFloat (name : String) (value : Float32) (x : MixingInstance) :
    (x.setFloat name value).stance = x.stance := by
  unfold MixingInstance.setFloat
  dsimp only
  split
  · simp [MixingInstance.stance]
  split
  · simp [MixingInstance.stance]
  · rfl

theorem stance_pass (n : Nat) (x : MixingInstance) : (MixingInstance.pass^[n] x).stance = x.stance := by
  induction n generalizing x with
  | zero => rfl
  | succ n ih => exact (ih x.pass).trans (by simp [MixingInstance.stance, MixingInstance.pass])

/-- A turn that does not start an instance leaves its stance. -/
theorem stance_effect (v : EngineTurn) (c : Config) (i : InstanceId) (x : MixingInstance) :
    (v.effect c i x).stance = x.stance := by
  have own : ∀ {j : InstanceId} {g : MixingInstance → MixingInstance}, (∀ x, (g x).stance = x.stance) →
      (onEach [j] g i x).stance = x.stance := fun hg => onEach_same hg x
  cases v with
  | call call =>
    cases call with
    | stop j mode => exact own fun x => by simp [MixingInstance.stance, Playable.stop]
    | release j => exact own fun _ => rfl
    | setReceiver j receiver => exact own fun _ => rfl
    | setFloat j name value => exact own (stance_setFloat name value)
    | setLabel j name label => exact own fun _ => rfl
    | create | start | setAttributes | setListener | update => rfl
  | event v =>
    cases v with
    | render n => exact stance_pass n x
    | ended j => exact own fun x => by simp [MixingInstance.stance, MixingInstance.fallSilent]
    | disk | device => rfl
  | backstage b => rfl
  | listener => rfl

/-! ### Many turns -/

/-- Among the turns, `i` was called to start while it was there. -/
def Attempted (r : Rig MixingEngine StreamingLoader) (i : InstanceId) : List EngineTurn → Prop :=
  Occurs fun before v => v = .call (.start i) ∧ (run before r).instance? i ≠ none

/-- Among the turns, `i` was called to start while it was there, and that failed. -/
def Refused (r : Rig MixingEngine StreamingLoader) (i : InstanceId) : List EngineTurn → Prop :=
  Occurs fun before v => v = .call (.start i) ∧ (run before r).instance? i ≠ none ∧
    ((run before r).start i).1 ≠ .ok ()

section

variable {r : Rig MixingEngine StreamingLoader} {i : InstanceId} {turns : List EngineTurn} {v : EngineTurn}

theorem Refused.attempted (h : Refused r i turns) : Attempted r i turns := by
  obtain ⟨before, v, after, hturns, hv, hthere, -⟩ := h
  exact ⟨before, v, after, hturns, hv, hthere⟩

theorem attempted_concat_of_ne (hv : v ≠ .call (.start i)) : Attempted r i (turns ++ [v]) ↔ Attempted r i turns :=
  occurs_concat.trans (or_iff_left fun h => hv h.1)

theorem refused_concat_of_ne (hv : v ≠ .call (.start i)) : Refused r i (turns ++ [v]) ↔ Refused r i turns :=
  occurs_concat.trans (or_iff_left fun h => hv h.1)

theorem attempted_concat_start : Attempted r i (turns ++ [.call (.start i)]) ↔
    Attempted r i turns ∨ (run turns r).instance? i ≠ none :=
  occurs_concat.trans (or_congr_right (and_iff_right rfl))

theorem refused_concat_start : Refused r i (turns ++ [.call (.start i)]) ↔
    Refused r i turns ∨ (run turns r).instance? i ≠ none ∧ (start i (run turns r)).1 ≠ .ok () :=
  occurs_concat.trans (or_congr_right (and_iff_right rfl))

/-- What the turns come to for `i`. -/
structure Course (r : Rig MixingEngine StreamingLoader) (turns : List EngineTurn) (i : InstanceId) : Prop where
  issued : (run turns r).instance? i ≠ none ∨ Attempted r i turns → i.val ≤ (run turns r).issued
  started : ∀ {x}, (run turns r).instance? i = some x → (x.started = true ↔ Attempted r i turns)
  /-- With a file of its own it is silent if it was not started yet, or that failed. -/
  silent : ∀ {x p}, (run turns r).instance? i = some x → x.definition.file = some p →
    (x.sound = none ↔ (Attempted r i turns → Refused r i turns))

namespace Course

theorem nil (hnone : r.instance? i = none) : Course r [] i := by
  refine ⟨fun h => ?_, fun hx => ?_, fun hx => ?_⟩
  · exact absurd (h.resolve_right not_occurs_nil) (not_not_intro hnone)
  · cases hnone.symm.trans hx
  · cases hnone.symm.trans hx

theorem other (h : Course r turns i) (hv : v ≠ .call (.start i)) : Course r (turns ++ [v]) i := by
  have ht := turned v (run turns r)
  constructor <;> rw [run_concat, attempted_concat_of_ne hv]
  · rintro (hthere | hattempted)
    · obtain ⟨y, hy⟩ := Option.ne_none_iff_exists'.mp hthere
      rcases ht.source hy hv with ⟨x, hx, -⟩ | ⟨-, hle, -⟩
      · exact Nat.le_trans (h.issued (.inl (by rw [hx]; exact Option.some_ne_none x))) ht.issued
      · exact hle
    · exact Nat.le_trans (h.issued (.inr hattempted)) ht.issued
  · intro y hy
    rcases ht.source hy hv with ⟨x, hx, rfl⟩ | ⟨hlt, -, event, definition, rfl⟩
    · have hstance := stance_effect v (run turns r).engine.config i x
      rw [← h.started hx, show (v.effect _ i x).started = x.started from congrArg (·.2.1) hstance]
    · -- nothing with the number of a new instance was called to start before
      have hno : ¬Attempted r i turns := fun ha => absurd (h.issued (.inr ha)) (Nat.not_le_of_lt hlt)
      simp [hno]
  · intro y p hy hfile
    rw [refused_concat_of_ne hv]
    rcases ht.source hy hv with ⟨x, hx, rfl⟩ | ⟨hlt, -, event, definition, rfl⟩
    · have hstance := stance_effect v (run turns r).engine.config i x
      have hsound : (v.effect _ i x).sound.isSome = x.sound.isSome := congrArg (·.2.2) hstance
      rw [← Option.not_isSome_iff_eq_none, hsound, Option.not_isSome_iff_eq_none]
      exact h.silent hx ((congrArg (·.1.file) hstance).symm.trans hfile)
    · have hno : ¬Attempted r i turns := fun ha => absurd (h.issued (.inr ha)) (Nat.not_le_of_lt hlt)
      simp [hno]

theorem start (h : Course r turns i) : Course r (turns ++ [.call (.start i)]) i := by
  have hrun : run (turns ++ [.call (.start i)]) r = (MixingEngine.start i (run turns r)).2 := run_concat ..
  cases hx : (run turns r).instance? i with
  | none =>
    -- the call is refused, and nothing has happened
    have hattempted : Attempted r i (turns ++ [.call (.start i)]) ↔ Attempted r i turns := by
      rw [attempted_concat_start, hx]
      simp
    constructor <;> rw [hrun, start_absent hx]
    · rw [hattempted]
      exact h.issued
    · intro x hx'
      cases hx.symm.trans hx'
    · intro x p hx'
      cases hx.symm.trans hx'
  | some x =>
    have hthere : (run turns r).instance? i ≠ none := by rw [hx]; exact Option.some_ne_none x
    have hattempted : Attempted r i (turns ++ [.call (.start i)]) := attempted_concat_start.mpr (.inr hthere)
    obtain ⟨y, hy, sound, props, rfl⟩ := start_begun hx
    constructor <;> rw [hrun]
    · intro _
      rw [(start_sounding i (run turns r)).issued]
      exact h.issued (.inl hthere)
    · intro y' hy'
      cases hy.symm.trans hy'
      exact iff_of_true rfl hattempted
    · intro y' p hy' hfile
      cases hy.symm.trans hy'
      rw [refused_concat_start, imp_iff_right hattempted, and_iff_right hthere]
      cases hs : x.started with
      | true =>
        -- nothing happens any more
        have hbefore := (h.started hx).mp hs
        rw [start_again hx hs] at hy ⊢
        have hsound : sound = x.sound := congrArg (·.sound) (Option.some.inj (hy.symm.trans hx))
        have hsilent := h.silent hx hfile
        rw [imp_iff_right hbefore] at hsilent
        simpa [hsound] using hsilent
      | false =>
        have hbefore : ¬Attempted r i turns := by
          rw [← h.started hx, hs]
          simp
        obtain ⟨-, ⟨recording, hok, hplays⟩ | ⟨err, herr, hfails⟩⟩ := start_attempt ⟨hx, hs, hfile⟩
        · cases hy.symm.trans hplays
          simp [hok, mt Refused.attempted hbefore]
        · have hsilent := (h.silent hx hfile).mpr fun ha => absurd ha hbefore
          cases hy.symm.trans hfails
          simp [herr, hsilent]

end Course

theorem course (hnone : r.instance? i = none) (turns : List EngineTurn) : Course r turns i := by
  induction turns using List.reverseRecOn with
  | nil => exact .nil hnone
  | append_singleton turns v ih =>
    by_cases hv : v = .call (.start i)
    · rw [hv]
      exact ih.start
    · exact ih.other hv

end

/-- After the turns `i` is there and has a file of its own. -/
structure HasFile (r : Rig MixingEngine StreamingLoader) (turns : List EngineTurn) (i : InstanceId) (x : MixingInstance)
    (p : Path) : Prop where
  there : (run turns r).instance? i = some x
  file : x.definition.file = some p

/-- What becomes of starts of instances with files of their own. -/
structure FileStarts (r : Rig MixingEngine StreamingLoader) (turns : List EngineTurn) : Prop where
  /-- The first one plays something, or fails; that leaves the instance as it was, but for the mark that it was
  started. -/
  first : ∀ {i x p}, HasFile r turns i x p → ¬Attempted r i turns → let c := start i (run turns r)
    x.sound = none ∧ ((∃ recording, Plays i x recording c) ∨ ∃ err, Fails i x err c) ∧
      c.2.toBackstage = (run turns r).toBackstage ∧ ∀ j, j ≠ i → c.2.instance? j = (run turns r).instance? j
  /-- It plays if the file has become readable by then and the track takes sounds. -/
  readable : ∀ {i x p recording}, HasFile r turns i x p → ¬Attempted r i turns → i ∉ (run turns r).engine.muted →
    (run turns r).disk.decodeSound p = .ok recording → ∃ played, Plays i x played (start i (run turns r))
  /-- Any later one does nothing and is not refused, with a sound or without. -/
  again : ∀ {i x p}, HasFile r turns i x p → Attempted r i turns → start i (run turns r) = (.ok (), run turns r) ∧
    (x.sound = none ↔ Refused r i turns)

/-- The first start of a file decides. Whatever is called and goes on, the first start of an instance with a file
answers that it has started just if there is a sound then, and is left without one if it is refused. Later starts
never fail, and never change anything: after a refused one there is no sound for good. -/
theorem first_start_decides (config : Config) (device : Option Device) (backstage : Backstage StreamingLoader)
    (turns : List EngineTurn) : FileStarts { backstage with engine := .ofConfig config device } turns := by
  generalize hr : ({ backstage with engine := .ofConfig config device } : Rig MixingEngine StreamingLoader) = r
  have hcourse : ∀ i, Course r turns i := fun i => course (by subst hr; rfl) turns
  have hstarts : ∀ {i x p}, HasFile r turns i x p → ¬Attempted r i turns → StartsFile (run turns r) i x p := by
    intro i x p h hfirst
    rw [← (hcourse i).started h.there, Bool.not_eq_true] at hfirst
    exact ⟨h.there, hfirst, h.file⟩
  refine ⟨fun {i x p} h hfirst => ?_, fun h hfirst hm hp => start_readable (hstarts h hfirst) hm hp,
    fun {i x p} h hbefore => ?_⟩
  · have hs := hstarts h hfirst
    obtain ⟨hsame, houtcome⟩ := start_attempt hs
    refine ⟨?_, houtcome, hsame, (start_sounding i _).others⟩
    exact ((hcourse i).silent h.there h.file).mpr fun ha => absurd ha hfirst
  · have hsilent := (hcourse i).silent h.there h.file
    rw [imp_iff_right hbefore] at hsilent
    exact ⟨start_again h.there (((hcourse i).started h.there).mpr hbefore), hsilent⟩

/-- A file is missing when an instance is started and is there when it is started again: the first start fails, and the
second does not and plays nothing. -/
theorem refused_start_is_final :
    let p : Path := ⟨"gone.wav"⟩
    let config : Config := { events := NameMap.empty.insert "SFX/a" { file := some p } }
    let r : Rig MixingEngine StreamingLoader := { disk := .empty, loader := {}, engine := .ofConfig config (some {}) }
    let found := Disk.ofList [(p, .file (.recording ⟨160, 1, 16000⟩))]
    let created := [.call (.create "SFX/a")]
    let later := created ++ [.call (.start ⟨1⟩), .event (.disk found)]
    (start ⟨1⟩ (run created r)).1 = .error (.decodeFailed p "No such file or directory (os error 2)") ∧
      (run later r).disk.decodeSound p = .ok ⟨160, 1, 16000⟩ ∧ (start ⟨1⟩ (run later r)).1 = .ok () ∧
        ((start ⟨1⟩ (run later r)).2.instance? ⟨1⟩).any (fun x => x.started && x.sound.isNone) = true := by
  decide +kernel

end EngineTurn

end Soundstage
