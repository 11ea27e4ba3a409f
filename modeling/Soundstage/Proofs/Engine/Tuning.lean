import Mathlib.Data.List.Induction
import Soundstage.Proofs.Engine.MixingEvents
import Soundstage.Proofs.Engine.ScriptedWrites

/-!
# How a mixing instance is tuned

A mixing instance reads the names of volume and pitch in any case, but its emitter remembers every
spelling. `Tuned look x`: the instance `x` has what it would have if each name had been set to the
value that `look` gives it. Other parameters are then just those of `look`; volume and pitch are so
where one spelling is in use, and nothing is said of them where there are two.
-/

namespace Soundstage

open Playable

open MixingInstance (folded)

/-- Where at most one spelling of `key` has a value, `level` is made of that value. -/
structure Heard (look : String → Option Float32) (key : String) (level : Float) : Prop where
  unset : (∀ name, folded name = key → look name = none) → level = 1
  set : ∀ {name value}, look name = some value → folded name = key →
    (∀ other, folded other = key → look other ≠ none → other = name) → level = Number.widen value

namespace Heard

variable {look : String → Option Float32} {key : String} {level level' : Float}

/-- Two that heard the same are alike, if there was but one spelling to hear. -/
theorem unique (h : Heard look key level) (h' : Heard look key level')
    (once : ∀ a b, folded a = key → folded b = key → look a ≠ none → look b ≠ none → a = b) :
    level = level' := by
  by_cases hset : ∃ name, folded name = key ∧ look name ≠ none
  · obtain ⟨name, hk, hn⟩ := hset
    obtain ⟨value, hv⟩ := Option.ne_none_iff_exists'.mp hn
    have hother : ∀ other, folded other = key → look other ≠ none → other = name :=
      fun other ho hne => once other name ho hk hne hn
    rw [h.set hv hk hother, h'.set hv hk hother]
  · have hnone : ∀ name, folded name = key → look name = none :=
      fun name hk => Classical.byContradiction fun hn => hset ⟨name, hk, hn⟩
    rw [h.unset hnone, h'.unset hnone]

/-- The value that came last is heard, if it has the only spelling. -/
theorem last (look : String → Option Float32) {name : String} (value : Float32) (hk : folded name = key) :
    Heard (fun n => if n = name then some value else look n) key (Number.widen value) := by
  constructor
  · intro hnone
    have := hnone name hk
    simp at this
  · intro n v hv hn hother
    have := hother name hk (by simp)
    subst this
    simp at hv
    rw [hv]

/-- A value under another name is not heard. -/
theorem other (h : Heard look key level) {name : String} (value : Float32) (hk : folded name ≠ key) :
    Heard (fun n => if n = name then some value else look n) key level := by
  have same : ∀ {n}, folded n = key → (if n = name then some value else look n) = look n := by
    intro n hn
    rw [if_neg fun e : n = name => hk (e ▸ hn)]
  constructor
  · intro hnone
    exact h.unset fun n hn => by rw [← same hn]; exact hnone n hn
  · intro n v hv hn hother
    refine h.set (by rw [← same hn]; exact hv) hn fun m hm hne => hother m hm ?_
    rw [same hm]
    exact hne

end Heard

/-- `x` is as if each name had been set to what `look` gives it. -/
structure Tuned (look : String → Option Float32) (x : MixingInstance) : Prop where
  extra : ∀ name, x.extra.get? name =
    if folded name = "volume" ∨ folded name = "pitch" then none else look name
  volume : Heard look "volume" x.volume
  pitch : Heard look "pitch" x.pitch

namespace Tuned

variable {look : String → Option Float32} {x y : MixingInstance}

theorem congr (h : Tuned look x) (he : y.extra = x.extra) (hv : y.volume = x.volume) (hp : y.pitch = x.pitch) :
    Tuned look y :=
  ⟨he ▸ h.extra, hv ▸ h.volume, hp ▸ h.pitch⟩

theorem playsOn (h : Tuned look x) (hp : x.PlaysOn y) : Tuned look y := by
  rw [hp.rest]
  exact h.congr rfl rfl rfl

theorem setFloat (h : Tuned look x) (name : String) (value : Float32) :
    Tuned (fun n => if n = name then some value else look n) (x.setFloat name value) := by
  -- the place that a name other than the one set has in the extra parameters
  have others : (folded name = "volume" ∨ folded name = "pitch") → ∀ n, x.extra.get? n =
      if folded n = "volume" ∨ folded n = "pitch" then none
      else if n = name then some value else look n := by
    intro hname n
    rw [h.extra]
    split
    · rfl
    · rename_i hn
      rw [if_neg fun e : n = name => hn (e ▸ hname)]
  unfold MixingInstance.setFloat
  by_cases hv : folded name = "volume"
  · rw [if_pos hv]
    have hp : folded name ≠ "pitch" := by rw [hv]; decide
    exact ⟨others (.inl hv), .last look value hv, h.pitch.other value hp⟩
  by_cases hp : folded name = "pitch"
  · rw [if_neg hv, if_pos hp]
    exact ⟨others (.inr hp), h.volume.other value hv, .last look value hp⟩
  · rw [if_neg hv, if_neg hp]
    refine ⟨fun n => ?_, h.volume.other value hv, h.pitch.other value hp⟩
    dsimp only
    by_cases hn : n = name
    · subst hn
      rw [NameMap.get?_insert_self, if_neg (not_or.mpr ⟨hv, hp⟩), if_pos rfl]
    · rw [NameMap.get?_insert_of_ne _ _ hn, h.extra, if_neg hn]

/-- Of each name the last value counts. -/
theorem concat {writes : List (String × Float32)} (h : Tuned (ScriptedInstance.lastOf writes) x)
    (e : String × Float32) : Tuned (ScriptedInstance.lastOf (writes ++ [e])) (x.setFloat e.1 e.2) := by
  have hlast : ScriptedInstance.lastOf (writes ++ [e]) =
      fun n => if n = e.1 then some e.2 else ScriptedInstance.lastOf writes n := by
    funext n
    rw [ScriptedInstance.lastOf_concat]
    simp only [eq_comm]
  rw [hlast]
  exact h.setFloat e.1 e.2

/-- One write after the other. -/
theorem replay (h : Tuned (fun _ => none) x) (writes : List (String × Float32)) :
    Tuned (ScriptedInstance.lastOf writes) (writes.foldl (fun x e => x.setFloat e.1 e.2) x) := by
  induction writes using List.reverseRecOn with
  | nil => exact h
  | append_singleton writes e ih =>
    rw [List.foldl_append]
    exact ih.concat e

/-- A new instance that is told all that is remembered is tuned to it. -/
theorem dress (h : Tuned (fun _ => none) x) (p : Params) : Tuned p.float? (p.dress x) := by
  have hfloats := h.replay p.floats.entries
  have hlook : ScriptedInstance.lastOf p.floats.entries = p.float? :=
    funext fun n => ScriptedInstance.lastOf_eq_find p.floats.names_nodup n
  rw [hlook] at hfloats
  have hlabels : ∀ (l : List (String × String)) (y : MixingInstance), Tuned p.float? y →
      Tuned p.float? (l.foldl (fun x e => Playable.setLabel e.1 e.2 x) y) := by
    intro l y hy
    exact List.foldlRecOn (motive := Tuned p.float?) _ _ hy fun z hz e _ => hz.congr rfl rfl rfl
  exact hlabels _ _ hfloats

theorem fresh (c : Config) (event : String) : Tuned (fun _ => none) (Playable.fresh c event) := by
  refine ⟨fun name => ?_, ⟨fun _ => rfl, fun hv => by cases hv⟩, ⟨fun _ => rfl, fun hv => by cases hv⟩⟩
  rw [ite_self]
  rfl

theorem begun (h : Tuned look x) (hb : Begun x y) : Tuned look y := by
  obtain ⟨sound, props, rfl⟩ := hb
  exact h.congr rfl rfl rfl

end Tuned

end Soundstage
