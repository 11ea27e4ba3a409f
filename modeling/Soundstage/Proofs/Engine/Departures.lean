import Mathlib.Data.List.Basic
import Soundstage.Proofs.Bridge.Freed
import Soundstage.Proofs.Engine.Lawful

/-!
# Departures

An instance that goes away says farewell to its receiver. `Departed ids r r'` is what that comes to
for the distinct instances in `ids`, one after the other, if the bridge serves just those that have a
binding and the engine knows what the bindings have loaded: the bridge refuses nothing and frees each
binding once, and of the sounds just those of the bindings are given back.
-/

namespace Soundstage

open Backstage LawfulLoader

variable {L : Type} [Loader L] [LawfulLoader L]

/-- What the bridge answers when `i` goes away. -/
def Backstage.owed {L : Type} (s : Backstage L) (i : InstanceId) : List Answer :=
  (s.binding? i).elim [] fun b => closing i b.loaded

theorem Backstage.owed_congr {L : Type} {s s' : Backstage L} {ids : List InstanceId}
    (h : ∀ j ∈ ids, s'.binding? j = s.binding? j) : ids.flatMap s'.owed = ids.flatMap s.owed := by
  refine List.flatMap_congr fun j hj => ?_
  unfold owed
  rw [h j hj]

theorem Backstage.countP_bound_congr {L : Type} {s s' : Backstage L} {ids : List InstanceId}
    (h : ∀ j ∈ ids, s'.binding? j = s.binding? j) :
    (ids.countP fun j => (s'.binding? j).isSome) = ids.countP fun j => (s.binding? j).isSome :=
  List.countP_congr fun j hj => by rw [h j hj]

theorem Ledger.isLive_releaseLoaded {s : Backstage L} (h : Ledger s []) (i : InstanceId) (y : SoundId) :
    IsLive (s.releaseLoaded i ((s.binding? i).bind Binding.loaded)).loader y ↔
      IsLive s.loader y ∧ (s.binding? i).bind Binding.loaded ≠ some y := by
  cases ho : (s.binding? i).bind Binding.loaded with
  | none => simp [show s.releaseLoaded i none = s from rfl]
  | some x =>
    obtain ⟨b, hb, hx⟩ := Option.bind_eq_some_iff.mp ho
    have hlive : IsLive s.loader x := (h.live x).mpr (.inr ⟨i, b, hb, hx⟩)
    obtain ⟨l', hr⟩ := release_isOk hlive
    obtain ⟨-, hl'⟩ := release_ok h.sane hr
    have hloader : (s.releaseLoaded i (some x)).loader = l' := by
      rw [s.loader_releaseLoaded, Option.bind_some, hr]
      rfl
    rw [hloader, hl', Option.some_inj.ne]
    constructor
    · rintro ⟨hne, hy⟩
      exact ⟨hy, Ne.symm hne⟩
    · rintro ⟨hy, hne⟩
      exact ⟨Ne.symm hne, hy⟩

/-- The farewell of an instance that the bridge serves if there is a binding, and that says what that has
loaded. -/
theorem Backstage.heard_parting {s : Backstage L} {i : InstanceId} {receiver : Option Receiver} {p : Props}
    (hl : Ledger s []) (hserved : receiver = some .bridge ↔ s.binding? i ≠ none)
    (hp : p.sound = (s.binding? i).bind Binding.loaded) :
    let s' := receiver.elim s fun c => s.farewell c i p
    Heard i (s.owed i) s s' ∧ s'.bridge.freed = s.bridge.freed + (if (s.binding? i).isSome then 1 else 0) ∧
      s'.loader = (s.releaseLoaded i ((s.binding? i).bind Binding.loaded)).loader := by
  intro s'
  by_cases hr : receiver = some .bridge
  · obtain ⟨b, hb⟩ := Option.ne_none_iff_exists'.mp (hserved.mp hr)
    have hs' : s' = s.farewell .bridge i p := by simp only [s', hr]; rfl
    rw [hb] at hp
    obtain ⟨hheard, hloader⟩ := heard_farewell hl hb hp
    rw [hs', owed, hb]
    exact ⟨hheard, freed_farewell hl hb hp, hloader⟩
  · have hb : s.binding? i = none := Classical.byContradiction fun hb => hr (hserved.mpr hb)
    rw [owed, hb]
    cases receiver with
    | none => exact ⟨.refl i s, rfl, rfl⟩
    | some c =>
      have hc : c ≠ .bridge := fun e => hr (congrArg some e)
      obtain ⟨hheard, hloader⟩ := heard_farewell_other (s := s) (i := i) (p := p) c hc
      exact ⟨hheard, freed_farewell_other c hc, hloader⟩

/-- The instances in `ids` have left the rig, with their bindings and their sounds. -/
structure Departed {E X S : Type} [Staged E X S] (ids : List InstanceId) (r r' : Rig E L) : Prop where
  instances : ∀ j, r'.instance? j = if j ∈ ids then none else r.instance? j
  bindings : ∀ j, r'.binding? j = if j ∈ ids then none else r.binding? j
  answered : r'.answered = r.answered ++ ids.flatMap r.owed
  quiet : Quiet r.toBackstage r'.toBackstage
  freed : r'.bridge.freed = r.bridge.freed + ids.countP fun i => (r.binding? i).isSome
  live : ∀ y, IsLive r'.loader y ↔
    IsLive r.loader y ∧ ¬∃ i ∈ ids, (r.binding? i).bind Binding.loaded = some y

namespace Departed

variable {E X S : Type} [Staged E X S] {r r' r'' : Rig E L} {i : InstanceId} {ids : List InstanceId}

theorem nil (r : Rig E L) : Departed [] r r := by
  refine ⟨fun j => ?_, fun j => ?_, ?_, .refl _, rfl, fun y => ?_⟩ <;> simp

theorem single (hl : Ledger r.toBackstage []) (hinst : ∀ j, r'.instance? j = if j = i then none else r.instance? j)
    (hgone : r'.binding? i = none) (hheard : Heard i (r.owed i) r.toBackstage r'.toBackstage)
    (hfreed : r'.bridge.freed = r.bridge.freed + (if (r.binding? i).isSome then 1 else 0))
    (hloader : r'.loader = (r.releaseLoaded i ((r.binding? i).bind Binding.loaded)).loader) :
    Departed [i] r r' := by
  refine ⟨fun j => ?_, fun j => ?_, ?_, hheard.quiet, ?_, fun y => ?_⟩
  · rw [hinst]
    simp
  · by_cases hj : j = i
    · subst hj
      simp [hgone]
    · rw [hheard.others j hj]
      simp [hj]
  · rw [hheard.answered, List.flatMap_singleton]
  · rw [hfreed, List.countP_singleton]
  · rw [hloader, hl.isLive_releaseLoaded]
    simp

/-- The instances that go later do not notice that the first has gone. -/
theorem binding?_later (h : Departed [i] r r') (hi : i ∉ ids) : ∀ j ∈ ids, r'.binding? j = r.binding? j := by
  intro j hj
  rw [h.bindings, if_neg]
  rw [List.mem_singleton]
  exact fun e => hi (e ▸ hj)

theorem cons (h : Departed [i] r r') (h' : Departed ids r' r'') (hi : i ∉ ids) : Departed (i :: ids) r r'' := by
  have same := h.binding?_later hi
  refine ⟨fun j => ?_, fun j => ?_, ?_, h.quiet.trans h'.quiet, ?_, fun y => ?_⟩
  · rw [h'.instances, h.instances]
    by_cases hj : j = i <;> simp [hj]
  · rw [h'.bindings, h.bindings]
    by_cases hj : j = i <;> simp [hj]
  · rw [h'.answered, h.answered, owed_congr same]
    simp
  · rw [h'.freed, h.freed, countP_bound_congr same]
    simp only [List.countP_cons, List.countP_nil]
    omega
  · have hlater : (∃ j ∈ ids, (r'.binding? j).bind Binding.loaded = some y) ↔
        ∃ j ∈ ids, (r.binding? j).bind Binding.loaded = some y := by
      refine exists_congr fun j => and_congr_right fun hj => ?_
      rw [same j hj]
    rw [h'.live, h.live, hlater]
    simp [and_assoc]

/-- Instances go away one after the other; `P` is what the rig must keep meanwhile. -/
theorem foldl {destroy : Rig E L → InstanceId → Rig E L} {P : Rig E L → Prop}
    (hone : ∀ {r} i, P r → Departed [i] r (destroy r i) ∧ P (destroy r i)) (hids : ids.Nodup) (h : P r) :
    Departed ids r (ids.foldl destroy r) := by
  induction ids generalizing r with
  | nil => exact nil r
  | cons i ids ih =>
    obtain ⟨hi, hids⟩ := List.nodup_cons.mp hids
    obtain ⟨hfirst, hnext⟩ := hone i h
    exact hfirst.cons (ih hids hnext) hi

end Departed

end Soundstage
