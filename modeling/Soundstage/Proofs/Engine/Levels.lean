import Soundstage.Proofs.Engine.Attempts
import Soundstage.Proofs.Engine.Tuning

/-!
# Levels and rates of sounds

A sound hears of volume and pitch in two ways: it is given what was set before the start, and told what is set after it.
`Commanded definition sets x` says what comes of that: the sound of `x`, if there is one, was last told the level and
the rate that follow from `sets`, with no regard to the start. Every turn keeps this, so over a run it does not matter
where the start falls (`EngineTurn.sounds_follow_settings`).
-/

namespace Soundstage

open Playable MixingEngine ScriptedInstance
open MixingInstance (folded)

/-- What a sound is and what it was told last. -/
def Playback.orders (p : Playback) : SoundData × Float32 × Float := (p.data, p.volume, p.rate)

namespace MixingInstance

/-- `y` is `x` after nobody has started it or set anything. -/
structure Undisturbed (x y : MixingInstance) : Prop where
  definition : y.definition = x.definition
  started : y.started = x.started
  volume : y.volume = x.volume
  pitch : y.pitch = x.pitch
  extra : y.extra = x.extra
  orders : y.sound.map Playback.orders = x.sound.map Playback.orders

namespace Undisturbed

variable {x y z : MixingInstance}

theorem refl (x : MixingInstance) : x.Undisturbed x := ⟨rfl, rfl, rfl, rfl, rfl, rfl⟩

theorem trans (h : x.Undisturbed y) (h' : y.Undisturbed z) : x.Undisturbed z :=
  ⟨h'.definition.trans h.definition, h'.started.trans h.started, h'.volume.trans h.volume, h'.pitch.trans h.pitch,
    h'.extra.trans h.extra, h'.orders.trans h.orders⟩

theorem of_sound {f : Playback → Playback} (hf : ∀ p, (f p).orders = p.orders) (x : MixingInstance) :
    x.Undisturbed { x with sound := x.sound.map f } := by
  refine ⟨rfl, rfl, rfl, rfl, rfl, ?_⟩
  cases x.sound with
  | none => rfl
  | some p => exact congrArg some (hf p)

theorem pass (x : MixingInstance) : x.Undisturbed x.pass := by
  have hblock : ∀ p : Playback, p.block.orders = p.orders := by
    intro p
    unfold Playback.block
    split <;> rfl
  exact (of_sound hblock x).trans ⟨rfl, rfl, rfl, rfl, rfl, rfl⟩

theorem passes (n : Nat) (x : MixingInstance) : x.Undisturbed (MixingInstance.pass^[n] x) := by
  induction n generalizing x with
  | zero => exact refl x
  | succ n ih => exact (pass x).trans (ih x.pass)

theorem onEach {g : MixingInstance → MixingInstance} (hg : ∀ x : MixingInstance, x.Undisturbed (g x))
    (ids : List InstanceId) (i : InstanceId) (x : MixingInstance) : x.Undisturbed (onEach ids g i x) := by
  unfold Soundstage.onEach
  split
  · exact hg x
  · exact refl x

/-- A sound has been the same all along. -/
theorem sound_eq (h : x.Undisturbed y) {s : Playback} (hs : y.sound = some s) :
    ∃ p, x.sound = some p ∧ s.orders = p.orders := by
  have horders := h.orders
  rw [hs, Option.map_some, eq_comm, Option.map_eq_some_iff] at horders
  obtain ⟨p, hp, he⟩ := horders
  exact ⟨p, hp, he.symm⟩

end Undisturbed

/-- What `x` plays, `y` plays on. -/
def Holds (x y : MixingInstance) : Prop := ∀ p, x.sound = some p → ∃ s, y.sound = some s ∧ s.data = p.data

namespace Holds

variable {x y z : MixingInstance}

theorem refl (x : MixingInstance) : x.Holds x := fun p hp => ⟨p, hp, rfl⟩

theorem trans (h : x.Holds y) (h' : y.Holds z) : x.Holds z := by
  intro p hp
  obtain ⟨s, hs, hdata⟩ := h p hp
  obtain ⟨s', hs', hdata'⟩ := h' s hs
  exact ⟨s', hs', hdata'.trans hdata⟩

theorem setFloat (name : String) (value : Float32) (x : MixingInstance) : x.Holds (x.setFloat name value) := by
  intro p hp
  unfold MixingInstance.setFloat
  dsimp only
  split
  · exact ⟨_, congrArg (Option.map _) hp, rfl⟩
  split
  · exact ⟨_, congrArg (Option.map _) hp, rfl⟩
  · exact ⟨p, hp, rfl⟩

end Holds

theorem Undisturbed.holds {x y : MixingInstance} (h : x.Undisturbed y) : x.Holds y := by
  intro p hp
  have horders := h.orders
  rw [hp] at horders
  obtain ⟨s, hs, he⟩ := Option.map_eq_some_iff.mp horders
  exact ⟨s, hs, congrArg (·.1) he⟩

section

variable {x : MixingInstance} (name : String) (value : Float32)

theorem setFloat_volume : (x.setFloat name value).volume =
    if folded name = "volume" then Number.widen value else x.volume := by
  unfold setFloat
  by_cases hv : folded name = "volume"
  · rw [if_pos hv, if_pos hv]
  · rw [if_neg hv, if_neg hv]
    split <;> rfl

theorem setFloat_pitch : (x.setFloat name value).pitch =
    if folded name = "pitch" then Number.widen value else x.pitch := by
  unfold setFloat
  by_cases hv : folded name = "volume"
  · have hp : folded name ≠ "pitch" := by rw [hv]; decide
    rw [if_pos hv, if_neg hp]
  · rw [if_neg hv]
    split <;> rfl

/-- A sound that is played is told at once. -/
theorem setFloat_orders (h : ∀ {s}, x.sound = some s → s.volume = x.level ∧ s.rate = x.pitch) {s : Playback}
    (hs : (x.setFloat name value).sound = some s) :
    s.volume = (x.setFloat name value).level ∧ s.rate = (x.setFloat name value).pitch := by
  unfold setFloat at hs ⊢
  by_cases hv : folded name = "volume"
  · rw [if_pos hv] at hs ⊢
    obtain ⟨p, hp, rfl⟩ := Option.map_eq_some_iff.mp hs
    exact ⟨rfl, (h hp).2⟩
  rw [if_neg hv] at hs ⊢
  by_cases hp : folded name = "pitch"
  · rw [if_pos hp] at hs ⊢
    obtain ⟨p, hp, rfl⟩ := Option.map_eq_some_iff.mp hs
    exact ⟨(h hp).1, rfl⟩
  · rw [if_neg hp] at hs ⊢
    exact h hs

end

end MixingInstance

open MixingInstance (Undisturbed)

/-- What volume or pitch comes to if this was set. -/
def heard (sets : List (String × Float32)) (key : String) : Float :=
  (lastOf (sets.map fun e => (folded e.1, e.2)) key).elim 1 Number.widen

theorem heard_concat (sets : List (String × Float32)) (e : String × Float32) (key : String) :
    heard (sets ++ [e]) key = if folded e.1 = key then Number.widen e.2 else heard sets key := by
  unfold heard
  rw [List.map_append, List.map_singleton, lastOf_concat]
  split <;> rfl

/-- An instance of an event after these settings. -/
structure Commanded (definition : Event) (sets : List (String × Float32)) (x : MixingInstance) : Prop where
  definition : x.definition = definition
  silent : x.started = false → x.sound = none
  tuned : Tuned (lastOf sets) x
  volume : x.volume = heard sets "volume"
  pitch : x.pitch = heard sets "pitch"
  orders : ∀ {s}, x.sound = some s → s.volume = x.level ∧ s.rate = x.pitch

namespace Commanded

variable {definition : Event} {sets : List (String × Float32)} {x y : MixingInstance}

theorem fresh (event : String) (definition : Event) : Commanded definition [] { event, definition } :=
  ⟨rfl, fun _ => rfl, (Tuned.fresh {} event).congr rfl rfl rfl, rfl, rfl, nofun⟩

theorem undisturbed (h : Commanded definition sets x) (hxy : x.Undisturbed y) : Commanded definition sets y := by
  refine ⟨hxy.definition.trans h.definition, fun hs => ?_, h.tuned.congr hxy.extra hxy.volume hxy.pitch,
    hxy.volume.trans h.volume, hxy.pitch.trans h.pitch, fun {s} hs => ?_⟩
  · have horders := hxy.orders
    rw [h.silent (hxy.started.symm.trans hs)] at horders
    exact Option.map_eq_none_iff.mp horders
  · obtain ⟨p, hp, he⟩ := hxy.sound_eq hs
    obtain ⟨hvolume, hrate⟩ := h.orders hp
    rw [show s.volume = p.volume from congrArg (·.2.1) he, show s.rate = p.rate from congrArg (·.2.2) he, hvolume,
      hrate]
    unfold MixingInstance.level
    rw [hxy.definition, hxy.volume, hxy.pitch]
    exact ⟨rfl, rfl⟩

theorem setFloat (h : Commanded definition sets x) (e : String × Float32) :
    Commanded definition (sets ++ [e]) (x.setFloat e.1 e.2) := by
  have hstance := EngineTurn.stance_setFloat e.1 e.2 x
  refine ⟨(congrArg (·.1) hstance).trans h.definition, fun hs => ?_, h.tuned.concat e, ?_, ?_,
    MixingInstance.setFloat_orders e.1 e.2 h.orders⟩
  · have hsilent := h.silent ((congrArg (·.2.1) hstance).symm.trans hs)
    rw [← Option.not_isSome_iff_eq_none] at hsilent ⊢
    rwa [show (x.setFloat e.1 e.2).sound.isSome = x.sound.isSome from congrArg (·.2.2) hstance]
  · rw [MixingInstance.setFloat_volume, heard_concat, h.volume]
  · rw [MixingInstance.setFloat_pitch, heard_concat, h.pitch]

/-- It was started and was given what had been set by then. -/
theorem started (h : Commanded definition sets x) {sound : Option Playback} (props : Props)
    (hs : sound = x.sound ∨ ∃ data, sound = some (.ofData data x.definition.looping x.level x.pitch)) :
    Commanded definition sets { x with started := true, sound, props } := by
  refine ⟨h.definition, nofun, h.tuned.congr rfl rfl rfl, h.volume, h.pitch, fun {s} hs' => ?_⟩
  rcases hs with rfl | ⟨data, rfl⟩
  · exact h.orders hs'
  · cases hs'
    exact ⟨rfl, rfl⟩

end Commanded

/-! ### One start -/

namespace MixingEngine

variable {r : Rig MixingEngine StreamingLoader} {i : InstanceId} {x y : MixingInstance}

theorem programmerSound_own (x : MixingInstance) (hy : r.instance? i = some y) :
    ∃ props, (programmerSound i x r).2.instance? i = some { y with props } := by
  unfold programmerSound
  cases x.receiver with
  | none => exact ⟨y.props, hy⟩
  | some receiver => exact ⟨_, instance?_modify (fun x => { x with props := _ }) rfl hy⟩

/-- Whatever is played is given the level and the pitch of the instance. -/
theorem sing_own (x : MixingInstance) (hy : r.instance? i = some y) : ∃ sound props,
    (sing i x r).2.instance? i = some { y with sound, props } ∧
      (sound = y.sound ∨ ∃ data, sound = some (.ofData data y.definition.looping y.level y.pitch)) := by
  have played : ∀ {r' : Rig MixingEngine StreamingLoader} {props} (data : SoundData),
      r'.instance? i = some { y with props } → ∃ sound props, (play i data r').2.instance? i =
        some { y with sound, props } ∧
          (sound = y.sound ∨ ∃ data, sound = some (.ofData data y.definition.looping y.level y.pitch)) := by
    intro r' props data hy'
    obtain ⟨-, sound, hhanded, hplayed⟩ := play_handed i data hy'
    refine ⟨sound, props, hplayed, ?_⟩
    rcases hhanded with ⟨-, rfl⟩ | ⟨-, rfl⟩
    · exact .inr ⟨data, rfl⟩
    · exact .inl rfl
  unfold sing
  cases x.definition.file with
  | some path =>
    dsimp only
    obtain ⟨-, -, hsame⟩ := fileSound_same r.disk path r.engine
    generalize r.engine.fileSound r.disk path = d at hsame ⊢
    obtain ⟨decoded, engine⟩ := d
    have hy' : Rig.instance? { r with engine } i = some y := (congrArg (·.get? i) hsame).trans hy
    cases decoded with
    | error err => exact ⟨y.sound, y.props, hy', .inl rfl⟩
    | ok recording => exact played (.decoded recording) hy'
  | none =>
    dsimp only
    obtain ⟨props, hy'⟩ := programmerSound_own x hy
    generalize programmerSound i x r = d at hy' ⊢
    obtain ⟨data, r'⟩ := d
    cases data with
    | none => exact ⟨y.sound, props, hy', .inl rfl⟩
    | some data => exact played data hy'

end MixingEngine

namespace EngineTurn

variable {v : EngineTurn} {r r' : Rig MixingEngine StreamingLoader} {i : InstanceId} {x y : MixingInstance}
  {definition : Event} {sets : List (String × Float32)} {turns : List EngineTurn}

/-- What a turn sets of an instance. -/
def setting? (i : InstanceId) : EngineTurn → Option (String × Float32)
  | call (.setFloat j name value) => if j = i then some (name, value) else none
  | _ => none

/-- What was set of an instance, oldest first. -/
def settings (i : InstanceId) (turns : List EngineTurn) : List (String × Float32) := turns.filterMap (setting? i)

theorem settings_concat (i : InstanceId) (turns : List EngineTurn) (v : EngineTurn) :
    settings i (turns ++ [v]) = settings i turns ++ (v.setting? i).toList := by
  unfold settings
  rw [List.filterMap_append]
  cases h : v.setting? i <;> simp [h]

/-- Where nothing is set, nothing is disturbed. -/
theorem undisturbed_effect (hv : v.setting? i = none) (c : Config) (x : MixingInstance) :
    x.Undisturbed (v.effect c i x) := by
  have own : ∀ {j : InstanceId} {g : MixingInstance → MixingInstance}, (∀ x : MixingInstance, x.Undisturbed (g x)) →
      x.Undisturbed (onEach [j] g i x) := fun hg => .onEach hg _ i x
  cases v with
  | call call =>
    cases call with
    | stop j mode =>
      refine own (.of_sound ?_)
      exact fun _ => rfl
    | release j => exact own fun _ => ⟨rfl, rfl, rfl, rfl, rfl, rfl⟩
    | setReceiver j receiver => exact own fun _ => ⟨rfl, rfl, rfl, rfl, rfl, rfl⟩
    | setLabel j name label => exact own fun _ => ⟨rfl, rfl, rfl, rfl, rfl, rfl⟩
    | setFloat j name value =>
      have hj : i ∉ [j] := by
        rintro hj
        rw [List.mem_singleton.mp hj] at hv
        simp [setting?] at hv
      change x.Undisturbed (onEach [j] _ i x)
      rw [onEach_of_not_mem hj]
      exact .refl x
    | create | start | setAttributes | setListener | update => exact .refl x
  | event v =>
    cases v with
    | render n => exact .passes n x
    | ended j =>
      refine own (.of_sound ?_)
      exact fun _ => rfl
    | disk | device => exact .refl x
  | backstage b => exact .refl x
  | listener => exact .refl x

/-- A setting reaches the instance. -/
theorem effect_setting {e : String × Float32} (hv : v.setting? i = some e) (c : Config) (x : MixingInstance) :
    v.effect c i x = x.setFloat e.1 e.2 := by
  unfold setting? at hv
  split at hv
  · split at hv <;> cases hv
    subst i
    exact onEach_of_mem (List.mem_singleton.mpr rfl) x
  · cases hv

/-- What one turn makes of an instance. -/
theorem commanded_take (hi : i.val ≤ r.issued) (h : ∀ {x}, r.instance? i = some x → Commanded definition sets x)
    (hy : (v.take r).instance? i = some y) :
    Commanded definition (sets ++ (v.setting? i).toList) y ∧ ∃ x, r.instance? i = some x ∧ x.Holds y := by
  by_cases hv : v = .call (.start i)
  · subst hv
    rw [show setting? i (.call (.start i)) = none from rfl, Option.toList_none, List.append_nil]
    change (start i r).2.instance? i = some y at hy
    cases hx : r.instance? i with
    | none =>
      rw [start_absent hx, hx] at hy
      cases hy
    | some x =>
      have hc := h hx
      cases hs : x.started with
      | true =>
        -- what became of the first start stays as it is
        rw [start_again hx hs, hx] at hy
        cases hy
        exact ⟨hc, y, rfl, MixingInstance.Holds.refl y⟩
      | false =>
        obtain ⟨hstart, -, hx₁⟩ := start_eq hx hs
        obtain ⟨sound, props, hy', hsound⟩ := sing_own x hx₁
        rw [hstart, hy'] at hy
        cases hy
        refine ⟨hc.started props hsound, x, rfl, ?_⟩
        -- there was no sound before
        intro p hp
        rw [hc.silent hs] at hp
        cases hp
  · rcases (turned v r).source hy hv with ⟨x, hx, rfl⟩ | ⟨hlt, -⟩
    · have hc := h hx
      cases hset : v.setting? i with
      | none =>
        have hu := undisturbed_effect hset r.engine.config x
        rw [Option.toList_none, List.append_nil]
        refine ⟨hc.undisturbed hu, x, hx, hu.holds⟩
      | some e =>
        rw [effect_setting hset]
        exact ⟨hc.setFloat e, x, hx, MixingInstance.Holds.setFloat e.1 e.2 x⟩
    · exact absurd hi (Nat.not_le_of_lt hlt)

theorem commanded_run (hi : i.val ≤ r.issued) (h : ∀ {x}, r.instance? i = some x → Commanded definition [] x)
    (turns : List EngineTurn) : i.val ≤ (run turns r).issued ∧
      ∀ {x}, (run turns r).instance? i = some x → Commanded definition (settings i turns) x := by
  induction turns using List.reverseRecOn with
  | nil => exact ⟨hi, h⟩
  | append_singleton turns v ih =>
    obtain ⟨hissued, hcommanded⟩ := ih
    rw [run_concat, settings_concat]
    exact ⟨Nat.le_trans hissued (turned v _).issued, fun hy => (commanded_take hissued hcommanded hy).1⟩

theorem holds_run (hi : i.val ≤ r.issued) (h : ∀ {x}, r.instance? i = some x → Commanded definition [] x)
    {before : List EngineTurn} (hx : (run before r).instance? i = some x) (after : List EngineTurn) :
    ∀ {y}, (run (before ++ after) r).instance? i = some y → x.Holds y := by
  induction after using List.reverseRecOn with
  | nil =>
    intro y hy
    rw [List.append_nil] at hy
    cases hx.symm.trans hy
    exact .refl x
  | append_singleton after v ih =>
    intro y hy
    rw [← List.append_assoc, run_concat] at hy
    obtain ⟨hissued, hcommanded⟩ := commanded_run hi h (before ++ after)
    obtain ⟨-, z, hz, hzy⟩ := commanded_take hissued hcommanded hy
    exact (ih hz).trans hzy

/-- What an instance does after these turns, which began when it was new. -/
structure Follows (r : Rig MixingEngine StreamingLoader) (i : InstanceId) (definition : Event)
    (turns : List EngineTurn) : Prop where
  volume : ∀ {x s}, (run turns r).instance? i = some x → x.sound = some s →
    s.volume = decibels (definition.volume * heard (settings i turns) "volume")
  rate : ∀ {x s}, (run turns r).instance? i = some x → x.sound = some s → s.rate = heard (settings i turns) "pitch"
  /-- A sound stays the same one. -/
  same : ∀ {before after x y p}, turns = before ++ after → (run before r).instance? i = some x → x.sound = some p →
    (run turns r).instance? i = some y → ∃ s, y.sound = some s ∧ s.data = p.data
  parameter : ∀ {name}, (run turns r).instance? i ≠ none → folded name ≠ "volume" → folded name ≠ "pitch" →
    (run turns r).engine.parameter? i name = lastOf (settings i turns) name
  accepted : ∀ name value, (run turns r).instance? i ≠ none →
    ∃ e, Engine.setFloat i name value (run turns r).engine = .ok e

/-- Whether something was set before a sound was started or after, the sound is as loud and as fast. What counts is
what was set last, under whatever spelling, and other parameters neither count nor are lost. -/
theorem sounds_follow_settings {event : String} (h : r.create event = (.ok i, r')) :
    ∃ definition, r.engine.config.event? event = some definition ∧ ∀ turns, Follows r' i definition turns := by
  have hcreated : MixingEngine.create event r.engine = (.ok i, r'.engine) :=
    Prod.ext (congrArg Prod.fst h :) (congrArg (fun c => c.2.engine) h :)
  obtain ⟨definition, hdefinition, hi, hissued, -, hinst⟩ := create_ok hcreated
  have hle : i.val ≤ r'.issued := Nat.le_of_eq (by rw [hi]; exact hissued.symm)
  have hnew : ∀ {x}, r'.instance? i = some x → Commanded definition [] x := by
    intro x hx
    change r'.engine.instances.get? i = some x at hx
    rw [hinst, hi, Table.get?_insert_self] at hx
    cases hx
    exact .fresh event definition
  refine ⟨definition, hdefinition, fun turns => ?_⟩
  obtain ⟨-, hcommanded⟩ := commanded_run hle hnew turns
  refine ⟨fun {x s} hx hs => ?_, fun {x s} hx hs => ?_, ?_, fun {name} hthere hv hp => ?_,
    fun name value hthere => change_isOk _ hthere⟩
  · have hc := hcommanded hx
    rw [(hc.orders hs).1, MixingInstance.level, hc.definition, hc.volume]
  · have hc := hcommanded hx
    rw [(hc.orders hs).2, hc.pitch]
  · rintro before after x y p rfl hx hp hy
    exact holds_run hle hnew hx after hy p hp
  · obtain ⟨x, hx⟩ := Option.ne_none_iff_exists'.mp hthere
    unfold parameter?
    rw [show (run turns r').engine.instances.get? i = some x from hx]
    exact ((hcommanded hx).tuned.extra name).trans (if_neg (not_or.mpr ⟨hv, hp⟩))

/-- Volume is set before the start and pitch after it, each in some other case than its own. -/
theorem sounds_follow_settings_across_start :
    let config : Config := { events := NameMap.empty.insert "SFX/a" { file := some ⟨"a.wav"⟩, volume := 0.5 } }
    let disk := Disk.ofList [(⟨"a.wav"⟩, .file (.recording ⟨160, 1, 16000⟩))]
    let r : Rig MixingEngine StreamingLoader := { disk, loader := {}, engine := .ofConfig config (some {}) }
    let turns : List EngineTurn := [.call (.setFloat ⟨1⟩ "Volume" 0.25), .call (.start ⟨1⟩), .event (.render 1),
      .call (.setFloat ⟨1⟩ "PITCH" 2), .call (.setFloat ⟨1⟩ "Wet" 3)]
    let after := run turns (r.create "SFX/a").2
    (∃ x s, after.instance? ⟨1⟩ = some x ∧ x.sound = some s ∧
      s.volume = decibels (0.5 * Number.widen 0.25) ∧ s.rate = Number.widen 2) ∧
        after.engine.parameter? ⟨1⟩ "Wet" = some 3 := by
  intro config disk r turns after
  have hcreated : (r.create "SFX/a").1 = .ok ⟨1⟩ := by decide +kernel
  have hplays : (after.instance? ⟨1⟩).any (fun x => x.sound.isSome) = true := by decide +kernel
  obtain ⟨definition, hdefinition, hfollows⟩ :=
    sounds_follow_settings (Prod.ext hcreated rfl : r.create "SFX/a" = (.ok ⟨1⟩, (r.create "SFX/a").2))
  cases hdefinition.symm.trans (NameMap.get?_insert_self ..)
  have hvolume : heard (settings ⟨1⟩ turns) "volume" = Number.widen 0.25 := rfl
  have hpitch : heard (settings ⟨1⟩ turns) "pitch" = Number.widen 2 := rfl
  have hwet : lastOf (settings ⟨1⟩ turns) "Wet" = some 3 := rfl
  cases hx : after.instance? ⟨1⟩ with
  | none =>
    rw [hx] at hplays
    cases hplays
  | some x =>
    rw [hx] at hplays
    obtain ⟨s, hs⟩ := Option.isSome_iff_exists.mp hplays
    refine ⟨⟨x, s, rfl, hs, ?_, ?_⟩, ?_⟩
    · rw [← hvolume]
      exact (hfollows turns).volume hx hs
    · rw [← hpitch]
      exact (hfollows turns).rate hx hs
    · rw [← hwet]
      exact (hfollows turns).parameter (by rw [hx]; exact Option.some_ne_none x) (by decide +kernel) (by decide +kernel)

end EngineTurn

end Soundstage
