import Mathlib.Data.List.Nodup
import Soundstage.Proofs.System.Moves

/-!
# Who owns what

`Orderly` is what holds of a system between any two requests, whatever the engine: handles stand in
the order of their instances and no instance has two, what a handle says of its instance is so, the
bridge has bindings of live instances only, and an instance that no emitter tracks was stopped and
given up. `Drift` covers what happens to a rig without the system's doing: instances may end and go
away, but none comes in and none changes hands. Every move is a drift, or gives instances up, or
shortens lists of handles, or lets one instance in; `Orderly.move` puts the four together.
-/

namespace Soundstage

open Playable Staged Function

/-- Only the end of an instance may have come closer. -/
def Status.Ages (a b : Status) : Prop := b = { a with stopped := b.stopped } ∧ (a.stopped = true → b.stopped = true)

namespace Status.Ages

variable {a b c : Status}

theorem refl (a : Status) : a.Ages a := ⟨rfl, id⟩

theorem of_eq (h : b = a) : a.Ages b := h ▸ refl a

theorem stopped (a : Status) : a.Ages { a with stopped := true } := ⟨rfl, fun _ => rfl⟩

theorem trans (h : a.Ages b) (h' : b.Ages c) : a.Ages c := by
  refine ⟨?_, fun ha => h'.2 (h.2 ha)⟩
  rw [h'.1, h.1]

theorem event (h : a.Ages b) : b.event = a.event := by rw [h.1]

theorem receiver (h : a.Ages b) : b.receiver = a.receiver := by rw [h.1]

theorem started (h : a.Ages b) : b.started = a.started := by rw [h.1]

theorem released (h : a.Ages b) : b.released = a.released := by rw [h.1]

end Status.Ages

/-- What happens to a rig without the system's doing. -/
structure Drift {E L X S : Type} [Loader L] [LawfulLoader L] [Staged E X S] [Playable X S] (r r' : Rig E L) :
    Prop where
  issued : r'.issued = r.issued
  ledger : Ledger r'.toBackstage []
  aged : ∀ {j y}, r'.instance? j = some y → ∃ x, r.instance? j = some x ∧ (status x).Ages (status y)
  unmade : ∀ {j}, r'.binding? j ≠ none → r.binding? j ≠ none
  left : ∀ {j x}, r'.binding? j ≠ none → r.instance? j = some x → (status x).receiver = some .bridge →
    r'.instance? j ≠ none

namespace Drift

variable {E L X S : Type} [Loader L] [LawfulLoader L] [Staged E X S] [Playable X S] {r r' r'' : Rig E L}

/-- Every instance is still there, and no binding came in. -/
theorem rewrite {f : InstanceId → X → X} (hissued : r'.issued = r.issued)
    (hinst : ∀ j, r'.instance? j = (r.instance? j).map (f j)) (hf : ∀ j x, (status x).Ages (status (f j x)))
    (hledger : Ledger r'.toBackstage []) (hunmade : ∀ {j}, r'.binding? j ≠ none → r.binding? j ≠ none) :
    Drift r r' := by
  refine ⟨hissued, hledger, fun {j y} hy => ?_, hunmade, fun {j x} _ hx _ => ?_⟩
  · rw [hinst, Option.map_eq_some_iff] at hy
    obtain ⟨x, hx, rfl⟩ := hy
    exact ⟨x, hx, hf j x⟩
  · rw [hinst, hx]
    simp

theorem of_wrote {f : InstanceId → X → X} (h : Ledger r.toBackstage []) (hw : Wrote f r r')
    (hf : ∀ j x, (status x).Ages (status (f j x))) : Drift r r' :=
  rewrite hw.issued hw.instances hf (hw.ledger h) fun {j} hb => hw.binding? j ▸ hb

theorem of_cleared {gone : InstanceId → Prop} (h : Cleared gone r r') : Drift r r' := by
  refine ⟨h.issued, h.ledger, fun {j y} hy => ⟨y, h.present hy, .refl _⟩, fun {j} hb hn => hb (h.unmade j hn),
    fun {j x} hb hx hr => ?_⟩
  by_cases hj : gone j
  · exact absurd (h.freed j x hj hx hr) hb
  · rw [h.left j hj, hx]; simp

theorem refl (h : Ledger r.toBackstage []) : Drift r r := of_wrote h (.refl r) fun _ _ => .refl _

/-- Of the moves, only those where instances change hands are more than a drift. -/
theorem of_move [Engine E L] [LawfulEngine E L X S] {v w : View E L} {d : Deed} (h : Ledger v.rig.toBackstage [])
    (hm : Move v d w) (hd : d.changesHands = false) : Drift v.rig w.rig := by
  cases hm with
  | calm hw => exact of_wrote h hw fun _ _ => .refl _
  | stop _ hw =>
    refine of_wrote h hw fun j x => ?_
    rw [status_onEach_stop]
    split
    · exact .stopped _
    · exact .refl _
  | place hw => exact of_wrote h hw fun j x => .of_eq (onEach_same (status_place _) x)
  | setFloat hw => exact of_wrote h hw fun j x => .of_eq (onEach_same (status_setFloat _ _) x)
  | setLabel hw => exact of_wrote h hw fun j x => .of_eq (onEach_same (status_setLabel _ _) x)
  | reap => exact refl h
  | forget _ => exact refl h
  | update => exact of_cleared (LawfulEngine.update_cleared v.rig h)
  | release _ _ => cases hd
  | post _ _ => cases hd

end Drift

/-- What a handle says of its instance. -/
structure Handle.Fits (h : Handle) (st : Status) : Prop where
  event : st.event = h.event
  started : st.started = true
  released : st.released = h.released
  heard : st.receiver.isSome = true
  fileBacked : st.receiver = some .bridge ↔ h.fileBacked = true

namespace Handle.Fits

variable {h : Handle} {a b : Status}

theorem ages (hf : h.Fits a) (hab : a.Ages b) : h.Fits b := by
  refine ⟨hab.event.trans hf.event, hab.started.trans hf.started, hab.released.trans hf.released, ?_, ?_⟩ <;>
    rw [hab.receiver]
  exacts [hf.heard, hf.fileBacked]

theorem mark {ids : List InstanceId} (hf : h.Fits a)
    (hb : b = if h.instanceId ∈ ids then { a with released := true } else a) : (h.mark ids).Fits b := by
  subst hb
  unfold Handle.mark
  split
  · exact ⟨hf.event, hf.started, rfl, hf.heard, hf.fileBacked⟩
  · exact hf

end Handle.Fits

/-- What holds between two requests. -/
structure Orderly {E L X S : Type} [Loader L] [LawfulLoader L] [Staged E X S] [Playable X S] (v : View E L) :
    Prop where
  ledger : Ledger v.rig.toBackstage []
  bound : ∀ {i}, v.rig.binding? i ≠ none → ∃ x, v.rig.instance? i = some x ∧ (status x).receiver = some .bridge
  issued : ∀ {i}, v.rig.instance? i ≠ none → i.val ≤ v.rig.issued
  tracked : ∀ {o h}, h ∈ v.handles o → h.instanceId.val ≤ v.rig.issued
  ascending : ∀ o, (v.handles o).Pairwise fun h g => h.instanceId.val < g.instanceId.val
  apart : ∀ {o p h g}, h ∈ v.handles o → g ∈ v.handles p → h.instanceId = g.instanceId → o = p
  fits : ∀ {o h x}, h ∈ v.handles o → v.rig.instance? h.instanceId = some x → h.Fits (status x)
  owned : ∀ {i x}, v.rig.instance? i = some x → (∃ o, i ∈ v.ids o) ∨
    (status x).released = true ∧ (status x).stopped = true

namespace Orderly

section

variable {E L X S : Type} [Loader L] [LawfulLoader L] [Staged E X S] [Playable X S]
  {v : View E L} {r : Rig E L} {o : Owner} {i : InstanceId} {x : X}

theorem nodup (h : Orderly v) (o : Owner) : (v.ids o).Nodup := by
  refine List.pairwise_map.mpr ((h.ascending o).imp fun {a b} hlt heq => ?_)
  rw [heq] at hlt
  exact Nat.lt_irrefl _ hlt

theorem binding?_next (h : Orderly v) : v.rig.binding? ⟨v.rig.issued + 1⟩ = none := by
  refine Classical.byContradiction fun hb => ?_
  obtain ⟨x, hx, -⟩ := h.bound hb
  exact Nat.not_succ_le_self _ (h.issued (by rw [hx]; simp))

theorem owner_unique (h : Orderly v) {p : Owner} (ho : i ∈ v.ids o) (hp : i ∈ v.ids p) : o = p := by
  obtain ⟨g, hg, rfl⟩ := List.mem_map.mp ho
  obtain ⟨k, hk, e⟩ := List.mem_map.mp hp
  exact h.apart hg hk e.symm

theorem le_issued (h : Orderly v) (hi : i ∈ v.ids o) : i.val ≤ v.rig.issued := by
  obtain ⟨g, hg, rfl⟩ := List.mem_map.mp hi
  exact h.tracked hg

theorem drift (h : Orderly v) (hd : Drift v.rig r) : Orderly (v.withRig r) := by
  refine ⟨hd.ledger, fun {i} hb => ?_, fun {i} hi => ?_, fun {o g} hg => ?_, h.ascending, h.apart,
    fun {o g y} hg hy => ?_, fun {i y} hy => ?_⟩
  · obtain ⟨x, hx, hr⟩ := h.bound (hd.unmade hb)
    obtain ⟨y, hy⟩ := Option.ne_none_iff_exists'.mp (hd.left hb hx hr)
    obtain ⟨x', hx', ha⟩ := hd.aged hy
    cases hx.symm.trans hx'
    exact ⟨y, hy, ha.receiver.trans hr⟩
  · obtain ⟨y, hy⟩ := Option.ne_none_iff_exists'.mp hi
    obtain ⟨x, hx, -⟩ := hd.aged hy
    rw [show (v.withRig r).rig.issued = _ from hd.issued]
    exact h.issued (by rw [hx]; simp)
  · rw [show (v.withRig r).rig.issued = _ from hd.issued]
    exact h.tracked hg
  · obtain ⟨x, hx, ha⟩ := hd.aged hy
    exact (h.fits hg hx).ages ha
  · obtain ⟨x, hx, ha⟩ := hd.aged hy
    rcases h.owned hx with ho | ⟨hr, hs⟩
    · exact .inl ho
    · exact .inr ⟨ha.released.trans hr, ha.2 hs⟩

theorem withParams (h : Orderly v) (o : Owner) (p : Params) : Orderly (v.withParams o p) :=
  ⟨h.ledger, h.bound, h.issued, h.tracked, h.ascending, h.apart, h.fits, h.owned⟩

/-- Where everybody is silent, every instance was stopped and given up. -/
theorem of_silent (h : Orderly v) (hs : ∀ o, Silent v.rig (v.handles o)) {i : InstanceId} {x : X}
    (hx : v.rig.instance? i = some x) : (status x).released = true ∧ (status x).stopped = true := by
  rcases h.owned hx with ⟨o, ho⟩ | hdone
  · obtain ⟨g, hg, rfl⟩ := List.mem_map.mp ho
    exact hs o g hg x hx
  · exact hdone

/-- Handles may be dropped once their instances are gone, or stopped and given up. -/
theorem drop (h : Orderly v) {w : View E L} (hr : w.rig = v.rig) (hs : ∀ o, (w.handles o).Sublist (v.handles o))
    (hd : ∀ o, ∀ g ∈ v.handles o, g ∉ w.handles o → ∀ x, v.rig.instance? g.instanceId = some x →
      (status x).released = true ∧ (status x).stopped = true) : Orderly w := by
  have hsub : ∀ {o g}, g ∈ w.handles o → g ∈ v.handles o := fun {o g} hg => (hs o).subset hg
  refine ⟨hr ▸ h.ledger, ?_, ?_, fun hg => ?_, fun o => (h.ascending o).sublist (hs o),
    fun hg hk => h.apart (hsub hg) (hsub hk), fun hg hx => ?_, fun {i x} hx => ?_⟩
  · rw [hr]; exact h.bound
  · rw [hr]; exact h.issued
  · rw [hr]; exact h.tracked (hsub hg)
  · rw [hr] at hx; exact h.fits (hsub hg) hx
  · rw [hr] at hx
    rcases h.owned hx with ⟨o, ho⟩ | hdone
    · obtain ⟨g, hg, rfl⟩ := List.mem_map.mp ho
      by_cases hw : g ∈ w.handles o
      · exact .inl ⟨o, List.mem_map_of_mem hw⟩
      · exact .inr (hd o g hg hw x hx)
    · exact .inr hdone

theorem handles_mark (h : Orderly v) {ids : List InstanceId} (hids : ids ⊆ v.ids o) (p : Owner) :
    update v.handles o ((v.handles o).map (Handle.mark ids)) p = (v.handles p).map (Handle.mark ids) := by
  by_cases hp : p = o
  · subst hp; simp
  · rw [update_of_ne hp]
    refine (Handle.map_mark_of_not_mem fun g hg hm => hp ?_).symm
    obtain ⟨k, hk, e⟩ := List.mem_map.mp (hids hm)
    exact h.apart hg hk e.symm

theorem release (h : Orderly v) {ids : List InstanceId} (hids : ids ⊆ v.ids o)
    (hw : Wrote (onEach ids Playable.release) v.rig r) :
    Orderly ((v.withRig r).withHandles o ((v.handles o).map (Handle.mark ids))) := by
  have hhs : ∀ p, ((v.withRig r).withHandles o ((v.handles o).map (Handle.mark ids))).handles p =
      (v.handles p).map (Handle.mark ids) := h.handles_mark hids
  have hmem : ∀ {p g}, g ∈ ((v.withRig r).withHandles o ((v.handles o).map (Handle.mark ids))).handles p →
      ∃ k ∈ v.handles p, k.mark ids = g := fun {p g} hg => List.mem_map.mp (hhs p ▸ hg)
  refine ⟨hw.ledger h.ledger, fun {i} hb => ?_, fun {i} hi => ?_, fun {p g} hg => ?_, fun p => ?_,
    fun {p q a b} ha hb e => ?_, fun {p g y} hg hy => ?_, fun {i y} hy => ?_⟩
  · obtain ⟨x, hx, hr⟩ := h.bound (hw.binding? i ▸ hb)
    exact ⟨_, hw.instance_of hx, (by rw [status_onEach_release]; split <;> exact hr)⟩
  · rw [show View.rig _ = r from rfl, hw.issued]
    refine h.issued fun hn => hi ?_
    exact (hw.instances i).trans (by rw [hn]; rfl)
  · obtain ⟨k, hk, rfl⟩ := hmem hg
    rw [show View.rig _ = r from rfl, hw.issued, Handle.instanceId_mark]
    exact h.tracked hk
  · rw [hhs, List.pairwise_map]
    simpa using h.ascending p
  · obtain ⟨a', ha', rfl⟩ := hmem ha
    obtain ⟨b', hb', rfl⟩ := hmem hb
    exact h.apart ha' hb' (by simpa using e)
  · obtain ⟨k, hk, rfl⟩ := hmem hg
    rw [Handle.instanceId_mark] at hy
    obtain ⟨x, hx, rfl⟩ := hw.source hy
    exact (h.fits hk hx).mark (status_onEach_release x)
  · obtain ⟨x, hx, rfl⟩ := hw.source hy
    rcases h.owned hx with ⟨p, hp⟩ | ⟨hr, hs⟩
    · refine .inl ⟨p, ?_⟩
      obtain ⟨k, hk, rfl⟩ := List.mem_map.mp hp
      exact List.mem_map.mpr ⟨k.mark ids, hhs p ▸ List.mem_map_of_mem hk, Handle.instanceId_mark ids k⟩
    · right
      rw [status_onEach_release]
      split
      · exact ⟨rfl, hs⟩
      · exact ⟨hr, hs⟩

theorem fits_entered {em : Emitter} {c : Cue} (he : em.Entered c i v.rig r) :
    ∃ x, r.instance? i = some x ∧ (c.handle i).Fits (status x) := by
  obtain ⟨x, hx, hi⟩ := he.own
  obtain ⟨before, hd⟩ := em.status_dressed (X := X) v.rig.setting c
  obtain ⟨stopped, hb⟩ := status_begun hx
  dsimp only at hb
  rw [hd] at hb
  refine ⟨_, hi, ?_⟩
  have hst : status (if c.keep = true then x else Playable.release x) =
      ⟨c.event, some (c.receiver em.entity), true, !c.keep, stopped⟩ := by
    cases c.keep <;> simp [hb]
  rw [hst]
  exact ⟨rfl, rfl, rfl, rfl, by simp [Cue.handle, Cue.receiver_eq_bridge]⟩

theorem post (h : Orderly v) {em : Emitter} {c : Cue} (he : em.Entered c i v.rig r) :
    Orderly ((v.withRig r).withHandles o (v.handles o ++ [c.handle i])) := by
  have hnew : ∀ {p g}, g ∈ v.handles p → g.instanceId.val < i.val := fun hg => by
    rw [he.id]
    exact Nat.lt_succ_of_le (h.tracked hg)
  have hmem : ∀ {p g}, g ∈ ((v.withRig r).withHandles o (v.handles o ++ [c.handle i])).handles p ↔
      g ∈ v.handles p ∨ p = o ∧ g = c.handle i := by
    intro p g
    rw [View.handles_withHandles]
    split
    · subst p; simp
    · simp [*]; rfl
  obtain ⟨x, hx, hfit⟩ := fits_entered he
  have hold : ∀ {j y}, r.instance? j = some y → j ≠ i → v.rig.instance? j = some y :=
    fun hy hj => (he.others _ hj).symm.trans hy
  refine ⟨he.ledger, fun {j} hb => ?_, fun {j} hj => ?_, fun {p g} hg => ?_, fun p => ?_,
    fun {p q a b} ha hb e => ?_, fun {p g y} hg hy => ?_, fun {j y} hy => ?_⟩
  · by_cases hj : j = i
    · subst hj
      exact ⟨x, hx, hfit.fileBacked.mpr (he.bound hb)⟩
    · have hb' : v.rig.binding? j ≠ none := he.kept j hj ▸ hb
      obtain ⟨y, hy, hr⟩ := h.bound hb'
      exact ⟨y, (he.others j hj).trans hy, hr⟩
  · rw [show View.rig _ = r from rfl, he.issued]
    by_cases hji : j = i
    · exact Nat.le_of_eq (hji ▸ congrArg InstanceId.val he.id)
    · exact Nat.le_succ_of_le (h.issued (he.others j hji ▸ hj))
  · rw [show View.rig _ = r from rfl, he.issued]
    rcases hmem.mp hg with hg | ⟨-, rfl⟩
    · exact Nat.le_succ_of_le (h.tracked hg)
    · exact Nat.le_of_eq (congrArg InstanceId.val he.id)
  · rw [View.handles_withHandles]
    split
    · subst p
      rw [List.pairwise_append]
      refine ⟨h.ascending o, List.pairwise_singleton _ _, fun a ha b hb => ?_⟩
      rw [List.mem_singleton.mp hb]
      exact hnew ha
    · exact h.ascending p
  · rcases hmem.mp ha with ha' | ⟨hp, rfl⟩ <;> rcases hmem.mp hb with hb' | ⟨hq, rfl⟩
    · exact h.apart ha' hb' e
    · exact absurd (e ▸ hnew ha') (Nat.lt_irrefl _)
    · exact absurd (e ▸ hnew hb') (Nat.lt_irrefl _)
    · rw [hp, hq]
  · rcases hmem.mp hg with hg | ⟨-, rfl⟩
    · exact h.fits hg (hold hy fun e => Nat.lt_irrefl _ (e ▸ hnew hg))
    · cases hx.symm.trans hy
      exact hfit
  · by_cases hj : j = i
    · exact .inl ⟨o, View.mem_ids.mpr ⟨c.handle i, hmem.mpr (.inr ⟨rfl, rfl⟩), hj.symm⟩⟩
    · rcases h.owned (hold hy hj) with ⟨p, hp⟩ | hdone
      · obtain ⟨g, hg, rfl⟩ := List.mem_map.mp hp
        exact .inl ⟨p, List.mem_map_of_mem (hmem.mpr (.inl hg))⟩
      · exact .inr hdone

end

section

variable {E L X S : Type} [Loader L] [LawfulLoader L] [Engine E L] [Staged E X S] [Playable X S]
  [LawfulEngine E L X S] {v w : View E L} {d : Deed}

theorem entered (h : Orderly v) {em : Emitter} {c : Cue} {i : InstanceId} {made begun r : Rig E L}
    (hp : em.Posted c i v.rig made begun r) : em.Entered c i v.rig r :=
  hp.entered h.ledger (hp.making.id ▸ h.binding?_next)

theorem move (h : Orderly v) (hm : Move v d w) : Orderly w := by
  cases hm with
  | calm hw => exact h.drift (.of_move h.ledger (.calm hw) rfl)
  | stop hids hw => exact h.drift (.of_move h.ledger (.stop hids hw) rfl)
  | place hw => exact h.drift (.of_move h.ledger (.place hw) rfl)
  | setFloat hw => exact (h.drift (.of_move h.ledger (.setFloat hw) rfl)).withParams _ _
  | setLabel hw => exact (h.drift (.of_move h.ledger (.setLabel hw) rfl)).withParams _ _
  | release hids hw =>
    refine h.release (fun i hi => ?_) hw
    obtain ⟨-, g, hg, rfl, -⟩ := hids i hi
    exact List.mem_map_of_mem hg
  | @reap o =>
    refine h.drop rfl (fun p => ?_) fun p g hg hout x hx => ?_ <;> rw [View.handles_withHandles] at *
    · split
      · subst p; exact List.filter_sublist
      · exact .refl _
    · refine absurd ?_ hout
      split
      · subst p
        rw [List.mem_filter, Rig.isValid_eq, hx]
        exact ⟨hg, rfl⟩
      · exact hg
  | @forget gone hs =>
    have hh : ∀ e, (v.without gone).handles (.entity e) = if gone e then [] else v.handles (.entity e) := fun _ => rfl
    refine h.drop rfl ?_ ?_
    · rintro (e | _)
      · rw [hh]
        split
        · exact List.nil_sublist _
        · exact .refl _
      · exact .refl _
    · rintro (e | _) g hg hout x hx
      · rw [hh] at hout
        split at hout
        · exact hs e ‹_› g hg x hx
        · exact absurd hg hout
      · exact absurd hg hout
  | post _ hp => exact h.post (h.entered hp)
  | update => exact h.drift (.of_move h.ledger .update rfl)

theorem moves (h : Orderly v) {ds : List Deed} (hm : Moves v ds w) : Orderly w :=
  hm.keeps (fun hm h => h.move hm) h

theorem plainly (h : Orderly v) (hm : Plainly v w) : Orderly w := by
  obtain ⟨ds, -, hm⟩ := hm
  exact h.moves hm

end

end Orderly

end Soundstage
