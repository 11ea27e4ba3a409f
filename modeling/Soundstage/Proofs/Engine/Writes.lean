import Soundstage.Proofs.Engine.Lawful

/-!
# Writes

`Wrote f` relates two rigs when every instance was rewritten by `f` and nothing behind the stage moved
but the journal. All that an emitter does to its instances, apart from creating and starting them,
is of this kind, so what follows about it is read off the function `f`; mostly that is
`onEach ids g`, which rewrites the instances of a list and leaves the others alone.
-/

namespace Soundstage

open Playable Staged

/-- Rewrite the instances in `ids` by `g`. -/
def onEach {X : Type} (ids : List InstanceId) (g : X → X) (j : InstanceId) (x : X) : X :=
  if j ∈ ids then g x else x

section

variable {X : Type} {ids : List InstanceId} {g : X → X} {j : InstanceId}

theorem onEach_of_mem (h : j ∈ ids) (x : X) : onEach ids g j x = g x := if_pos h

theorem onEach_of_not_mem (h : j ∉ ids) (x : X) : onEach ids g j x = x := if_neg h

@[simp]
theorem onEach_id (ids : List InstanceId) (j : InstanceId) (x : X) : onEach ids (fun x => x) j x = x := ite_self x

theorem onEach_cons {i : InstanceId} (h : i ∉ ids) (j : InstanceId) (x : X) :
    onEach ids g j (onEach [i] g j x) = onEach (i :: ids) g j x := by
  unfold onEach
  by_cases hj : j = i
  · subst hj; simp [h]
  · simp [hj]

theorem onEach_same {α : Type} {obs : X → α} (h : ∀ x, obs (g x) = obs x) (x : X) :
    obs (onEach ids g j x) = obs x := by
  unfold onEach
  split
  · exact h x
  · rfl

@[simp]
theorem status_onEach_release {S : Type} [Playable X S] (x : X) : status (onEach ids release j x) =
    if j ∈ ids then { status x with released := true } else status x := by
  unfold onEach
  split
  · exact status_release x
  · rfl

@[simp]
theorem status_onEach_stop {S : Type} [Playable X S] (s : S) (mode : StopMode) (x : X) :
    status (onEach ids (stop s mode) j x) = if j ∈ ids then { status x with stopped := true } else status x := by
  unfold onEach
  split
  · exact status_stop s mode x
  · rfl

end

/-- Every instance was rewritten by `f`. -/
structure Wrote {E L X S : Type} [Staged E X S] (f : InstanceId → X → X) (r r' : Rig E L) : Prop where
  instances : ∀ j, r'.instance? j = (r.instance? j).map (f j)
  issued : r'.issued = r.issued
  setting : r'.setting = r.setting
  backstage : r'.toBackstage = { r.toBackstage with journal := r'.journal }
  quiet : Backstage.Quiet r.toBackstage r'.toBackstage

namespace Wrote

section

variable {E L X S : Type} [Staged E X S] {r r' r'' : Rig E L} {f g : InstanceId → X → X}

theorem refl (r : Rig E L) : Wrote (fun _ x => x) r r :=
  ⟨fun j => by simp, rfl, rfl, rfl, .refl _⟩

theorem say (r : Rig E L) (level : Level) (text : String) (h : level ≠ .error) :
    Wrote (fun _ x => x) r (r.say level text) :=
  ⟨fun j => by simp; rfl, rfl, rfl, rfl, .say r.toBackstage text h⟩

theorem trans (h : Wrote f r r') (h' : Wrote g r' r'') : Wrote (fun j x => g j (f j x)) r r'' := by
  refine ⟨fun j => ?_, h'.issued.trans h.issued, h'.setting.trans h.setting, ?_, h.quiet.trans h'.quiet⟩
  · rw [h'.instances, h.instances, Option.map_map]
    rfl
  · rw [h'.backstage, h.backstage]

/-- Only what `f` makes of the instances that are there counts. -/
theorem congr (h : Wrote f r r') (hfg : ∀ {j x}, r.instance? j = some x → f j x = g j x) : Wrote g r r' := by
  refine ⟨fun j => ?_, h.issued, h.setting, h.backstage, h.quiet⟩
  rw [h.instances]
  exact Option.map_congr fun x hx => hfg hx

theorem then_say (h : Wrote f r r') {level : Level} (text : String) (hl : level ≠ .error) :
    Wrote f r (r'.say level text) :=
  h.trans (say r' _ text hl)

theorem nowhere (r : Rig E L) (g : X → X) : Wrote (onEach [] g) r r :=
  (refl r).congr fun {_ x} _ => (onEach_of_not_mem List.not_mem_nil x).symm

theorem absent {i : InstanceId} {g : X → X} (h : r.instance? i = none) : Wrote (onEach [i] g) r r := by
  refine (refl r).congr fun {j x} hx => (onEach_of_not_mem ?_ x).symm
  rw [List.mem_singleton]
  rintro rfl
  rw [h] at hx
  cases hx

theorem instance_of (h : Wrote f r r') {j : InstanceId} {x : X} (hx : r.instance? j = some x) :
    r'.instance? j = some (f j x) := by
  rw [h.instances, hx, Option.map_some]

theorem own {i : InstanceId} {g : X → X} {x : X} (h : Wrote (onEach [i] g) r r') (hx : r.instance? i = some x) :
    r'.instance? i = some (g x) :=
  (h.instance_of hx).trans (congrArg some (onEach_of_mem (List.mem_singleton.mpr rfl) x))

theorem others {ids : List InstanceId} {g : X → X} {j : InstanceId} (h : Wrote (onEach ids g) r r') (hj : j ∉ ids) :
    r'.instance? j = r.instance? j := by
  rw [h.instances]
  exact (Option.map_congr fun x _ => onEach_of_not_mem hj x).trans Option.map_id'

theorem source (h : Wrote f r r') {j : InstanceId} {y : X} (hy : r'.instance? j = some y) :
    ∃ x, r.instance? j = some x ∧ y = f j x := by
  rw [h.instances, Option.map_eq_some_iff] at hy
  obtain ⟨x, hx, rfl⟩ := hy
  exact ⟨x, hx, rfl⟩

theorem isSome_iff (h : Wrote f r r') (j : InstanceId) : (r'.instance? j).isSome = (r.instance? j).isSome := by
  rw [h.instances, Option.isSome_map]

theorem binding? (h : Wrote f r r') (j : InstanceId) : r'.binding? j = r.binding? j := by
  rw [h.backstage]
  rfl

theorem loader (h : Wrote f r r') : r'.loader = r.loader := by rw [h.backstage]

theorem disk (h : Wrote f r r') : r'.disk = r.disk := by rw [h.backstage]

theorem answered (h : Wrote f r r') : r'.answered = r.answered := by rw [h.backstage]

theorem ledger [Loader L] [LawfulLoader L] {held : List SoundId} (h : Wrote f r r')
    (hl : Ledger r.toBackstage held) : Ledger r'.toBackstage held := by
  rw [h.backstage]
  exact hl.congr rfl rfl

end

/-! ### Calls of the engine -/

section

variable {E L X S : Type} [Staged E X S] {i : InstanceId} {g : X → X} {op : E → Except AudioError E}

theorem engine {r : Rig E L} {e : E} (h : Rewrites op i g r.engine) (he : op r.engine = .ok e) :
    Wrote (onEach [i] g) r { r with engine := e } := by
  obtain ⟨hi, hs, ht⟩ := h.ok he
  refine ⟨fun j => (ht j).trans (Option.map_congr fun x _ => ?_), hi, hs, rfl, .refl _⟩
  unfold onEach
  simp only [List.mem_singleton]

/-- A refusal changes nothing, as `g` would not have either. -/
theorem refused {r : Rig E L} {err : AudioError} (h : Rewrites op i g r.engine) (he : op r.engine = .error err) :
    Wrote (onEach [i] g) r r := by
  refine (refl r).congr fun {j x} hx => ?_
  unfold onEach
  split
  · rename_i hj
    rw [List.mem_singleton.mp hj] at hx
    exact (h.error he hx).symm
  · rfl

theorem attempt (r : Rig E L) (complaint : AudioError → String) (h : Rewrites op i g r.engine) :
    Wrote (onEach [i] g) r (r.attempt op complaint) := by
  unfold Rig.attempt
  split
  · exact engine h ‹_›
  · exact (refused h ‹_›).then_say _ (by decide)

theorem act (r : Rig E L) (h : Rewrites op i g r.engine) : Wrote (onEach [i] g) r (r.act op).2 := by
  unfold Rig.act
  split
  · exact engine h ‹_›
  · exact refused h ‹_›

/-- One after the other, each instance at most once. -/
theorem foldl {step : Rig E L → Handle → Rig E L} (hstep : ∀ r h, Wrote (onEach [h.instanceId] g) r (step r h))
    {hs : List Handle} (hnd : (hs.map Handle.instanceId).Nodup) (r : Rig E L) :
    Wrote (onEach (hs.map Handle.instanceId) g) r (hs.foldl step r) := by
  induction hs generalizing r with
  | nil => exact nowhere r g
  | cons h rest ih =>
    obtain ⟨hh, hnd⟩ := List.nodup_cons.mp hnd
    exact ((hstep r h).trans (ih hnd _)).congr fun {j x} _ => onEach_cons hh j x

theorem foldl_same {α : Type} {step : Rig E L → α → Rig E L} {w : α → X → X}
    (hstep : ∀ r a, Wrote (onEach [i] (w a)) r (step r a)) (l : List α) (r : Rig E L) :
    Wrote (onEach [i] fun x => l.foldl (fun x a => w a x) x) r (l.foldl step r) := by
  induction l generalizing r with
  | nil => exact (refl r).congr fun {j x} _ => (onEach_id [i] j x).symm
  | cons a rest ih =>
    refine ((hstep r a).trans (ih _)).congr fun {j x} _ => ?_
    unfold onEach
    split <;> rfl

end

end Wrote

namespace Rig

variable {E L X S : Type} [Loader L] [LawfulLoader L] [Engine E L] [Staged E X S] [Playable X S]
  [LawfulEngine E L X S]

theorem isValid_eq (r : Rig E L) (i : InstanceId) : r.isValid i = (r.instance? i).isSome :=
  LawfulEngine.isValid_eq r.engine i

theorem isValid_eq_false {r : Rig E L} {i : InstanceId} : r.isValid i = false ↔ r.instance? i = none := by
  rw [isValid_eq, Option.isSome_eq_false_iff, Option.isNone_iff_eq_none]

theorem absent {r : Rig E L} {i : InstanceId} (h : (!r.isValid i) = true) : r.instance? i = none :=
  isValid_eq_false.mp (by simpa using h)

theorem present {r : Rig E L} {i : InstanceId} (h : r.isValid i = true) : r.instance? i ≠ none := by
  rw [isValid_eq] at h
  exact Option.isSome_iff_ne_none.mp h

theorem setListener_wrote (r : Rig E L) (attributes : Attributes) :
    Wrote (fun _ x => x) r (r.setListener attributes) := by
  unfold setListener
  split
  · rename_i e he
    obtain ⟨hi, hs, ht⟩ := LawfulEngine.setListener he
    exact ⟨fun j => (ht j).trans Option.map_id'.symm, hi, hs, rfl, .refl _⟩
  · exact .say r .warn _ (by decide)

end Rig

theorem Wrote.isValid {E L X S : Type} [Loader L] [LawfulLoader L] [Engine E L] [Staged E X S] [Playable X S]
    [LawfulEngine E L X S] {f : InstanceId → X → X} {r r' : Rig E L} (h : Wrote f r r') (j : InstanceId) :
    r'.isValid j = r.isValid j := by
  rw [Rig.isValid_eq, Rig.isValid_eq, h.isSome_iff]

end Soundstage
