import Soundstage.Proofs.Emitter.Orders
import Soundstage.Proofs.System.Runs

/-!
# Accounts of what was given up

`Accounts es r r'` says that the orders `es` are a true account of what was given up on the way from `r` to `r'`: all of
them were carried out, none gives up an instance that was given up before, and just the instances that they give up
are those that came to be released. Accounts of two ways after each other are one account of the whole way
(`Accounts.trans`), so with one for each thing an emitter does there is one for every request.
-/

namespace Soundstage

open Playable Staged

theorem givenUp_stops (mode : StopMode) (ids : List InstanceId) : givenUp (stops mode ids) = [] := by
  simp [givenUp, stops]

theorem givenUp_releases (ids : List InstanceId) : givenUp (releases ids) = ids := by
  simp [givenUp, releases, List.filterMap_map]

/-- The orders `es` are a true account of what was given up on the way from `r` to `r'`. -/
structure Accounts {E L X S : Type} [Staged E X S] [Playable X S] (es : List Entry) (r r' : Rig E L) : Prop where
  granted : ∀ e ∈ es, e.2 = true
  issued : r.issued ≤ r'.issued
  once : (givenUp es).Nodup
  /-- What is given up was there and owned, or is new. -/
  owned : ∀ {i}, i ∈ givenUp es → r.issued < i.val ∨ ∃ x, r.instance? i = some x ∧ (status x).released = false
  made : ∀ {i}, i ∈ givenUp es → i.val ≤ r'.issued
  present : ∀ {j}, r'.instance? j ≠ none → r.instance? j ≠ none ∨ r.issued < j.val
  fate : ∀ {j y}, r'.instance? j = some y → ((status y).released = true ↔
    j ∈ givenUp es ∨ ∃ x, r.instance? j = some x ∧ (status x).released = true)

namespace Accounts

section

variable {E L X S : Type} [Staged E X S] [Playable X S] {es fs : List Entry} {r r' r'' : Rig E L}

theorem trans (hb : ∀ {j}, r.instance? j ≠ none → j.val ≤ r.issued) (h : Accounts es r r') (h' : Accounts fs r' r'') :
    Accounts (es ++ fs) r r'' := by
  have mem : ∀ {i}, i ∈ givenUp (es ++ fs) ↔ i ∈ givenUp es ∨ i ∈ givenUp fs := by simp [givenUp_append]
  refine ⟨fun e he => (List.mem_append.mp he).elim (h.granted e) (h'.granted e), Nat.le_trans h.issued h'.issued, ?_,
    fun hi => ?_, fun hi => ?_, fun {j} hj => ?_, fun {j z} hz => ?_⟩
  · -- what was given up before is neither new nor owned any more
    rw [givenUp_append, List.nodup_append]
    refine ⟨h.once, h'.once, fun i hi j hj he => ?_⟩
    subst he
    rcases h'.owned hj with hnew | ⟨y, hy, hr⟩
    · exact absurd (h.made hi) (Nat.not_le_of_lt hnew)
    · rw [(h.fate hy).mpr (.inl hi)] at hr
      cases hr
  · rcases mem.mp hi with hi | hi
    · exact h.owned hi
    · rcases h'.owned hi with hnew | ⟨y, hy, hr⟩
      · exact .inl (Nat.lt_of_le_of_lt h.issued hnew)
      · rcases h.present (by rw [hy]; simp) with hx | hnew
        · obtain ⟨x, hx⟩ := Option.ne_none_iff_exists'.mp hx
          refine .inr ⟨x, hx, Bool.eq_false_iff.mpr fun hr' => ?_⟩
          rw [(h.fate hy).mpr (.inr ⟨x, hx, hr'⟩)] at hr
          cases hr
        · exact .inl hnew
  · exact (mem.mp hi).elim (fun hi => Nat.le_trans (h.made hi) h'.issued) h'.made
  · rcases h'.present hj with hj | hnew
    · exact h.present hj
    · exact .inr (Nat.lt_of_le_of_lt h.issued hnew)
  · have hold : j ∈ givenUp es ∨ (∃ x, r.instance? j = some x ∧ (status x).released = true) → j.val ≤ r'.issued := by
      rintro (hj | ⟨x, hx, -⟩)
      · exact h.made hj
      · exact Nat.le_trans (hb (by rw [hx]; simp)) h.issued
    rw [h'.fate hz, mem, or_assoc, or_left_comm]
    refine or_congr_right ⟨fun ⟨y, hy, hr⟩ => (h.fate hy).mp hr, fun hj => ?_⟩
    rcases h'.present (by rw [hz]; simp) with hy | hnew
    · obtain ⟨y, hy⟩ := Option.ne_none_iff_exists'.mp hy
      exact ⟨y, hy, (h.fate hy).mpr hj⟩
    · exact absurd (hold hj) (Nat.not_le_of_lt hnew)

/-- Nothing was given up. -/
theorem still (hes : givenUp es = []) (hgranted : ∀ e ∈ es, e.2 = true) (hissued : r'.issued = r.issued)
    (hold : ∀ {j y}, r'.instance? j = some y →
      ∃ x, r.instance? j = some x ∧ (status y).released = (status x).released) : Accounts es r r' := by
  refine ⟨hgranted, Nat.le_of_eq hissued.symm, ?_, fun hi => ?_, fun hi => ?_, fun {j} hj => ?_, fun {j y} hy => ?_⟩
  · rw [hes]
    exact List.nodup_nil
  · rw [hes] at hi
    cases hi
  · rw [hes] at hi
    cases hi
  · obtain ⟨y, hy⟩ := Option.ne_none_iff_exists'.mp hj
    obtain ⟨x, hx, -⟩ := hold hy
    exact .inl (by rw [hx]; simp)
  · obtain ⟨x, hx, hr⟩ := hold hy
    simp [hes, hx, hr]

theorem of_wrote {f : InstanceId → X → X} (hw : Wrote f r r')
    (hf : ∀ j x, (status (f j x)).released = (status x).released) : Accounts [] r r' := by
  refine .still rfl (fun e he => absurd he List.not_mem_nil) hw.issued fun {j y} hy => ?_
  obtain ⟨x, hx, rfl⟩ := hw.source hy
  exact ⟨x, hx, hf j x⟩

theorem calm (hw : Wrote (fun _ x => x) r r') : Accounts [] r r' := .of_wrote hw fun _ _ => rfl

theorem refl (r : Rig E L) : Accounts [] r r := .calm (.refl r)

theorem of_stop {s : S} {mode : StopMode} {ids : List InstanceId} (hw : Wrote (onEach ids (Playable.stop s mode)) r r')
    (told : List InstanceId) : Accounts (stops mode told) r r' := by
  refine .still (givenUp_stops mode told) (fun e he => ?_) hw.issued fun {j y} hy => ?_
  · obtain ⟨i, -, rfl⟩ := List.mem_map.mp he
    rfl
  · obtain ⟨x, hx, rfl⟩ := hw.source hy
    refine ⟨x, hx, ?_⟩
    rw [status_onEach_stop]
    split <;> rfl

theorem of_release {ids : List InstanceId} (hw : Wrote (onEach ids Playable.release) r r') (hnd : ids.Nodup)
    (hb : ∀ {j}, r.instance? j ≠ none → j.val ≤ r.issued)
    (howned : ∀ i ∈ ids, ∃ x, r.instance? i = some x ∧ (status x).released = false) :
    Accounts (releases ids) r r' := by
  refine ⟨fun e he => ?_, Nat.le_of_eq hw.issued.symm, ?_, fun hi => ?_, fun hi => ?_, fun {j} hj => ?_,
    fun {j y} hy => ?_⟩
  · obtain ⟨i, -, rfl⟩ := List.mem_map.mp he
    rfl
  · rwa [givenUp_releases]
  · exact .inr (howned _ (givenUp_releases ids ▸ hi))
  · obtain ⟨x, hx, -⟩ := howned _ (givenUp_releases ids ▸ hi)
    rw [hw.issued]
    exact hb (by rw [hx]; simp)
  · rw [← Option.isSome_iff_ne_none, hw.isSome_iff, Option.isSome_iff_ne_none] at hj
    exact .inl hj
  · obtain ⟨x, hx, rfl⟩ := hw.source hy
    rw [givenUp_releases, status_onEach_release]
    split <;> simp [*]

end

variable {E L X S : Type} [Loader L] [LawfulLoader L] [Staged E X S] [Playable X S]

theorem of_drift {r r' : Rig E L} (hd : Drift r r') : Accounts [] r r' := by
  refine .still rfl (fun e he => absurd he List.not_mem_nil) hd.issued fun {j y} hy => ?_
  obtain ⟨x, hx, ha⟩ := hd.aged hy
  exact ⟨x, hx, ha.released⟩

/-- What was not kept was given up when it was made. -/
theorem of_entered {v : View E L} (h : Orderly v) {em : Emitter} {c : Cue} {i : InstanceId} {r : Rig E L}
    (he : em.Entered c i v.rig r) : Accounts (c.handle i).orders v.rig r := by
  have hnew : v.rig.issued < i.val := by
    rw [he.id]
    exact Nat.lt_succ_self _
  have hnone : v.rig.instance? i = none := Classical.byContradiction fun hx => Nat.not_le_of_lt hnew (h.issued hx)
  have hgiven : givenUp (c.handle i).orders = if c.keep then [] else [i] := by
    obtain ⟨event, file, keep⟩ := c
    cases keep
    · exact givenUp_releases [i]
    · rfl
  obtain ⟨x, hx, hfit⟩ := Orderly.fits_entered he
  have hmem : ∀ {j}, j ∈ givenUp (c.handle i).orders ↔ j = i ∧ c.keep = false := fun {j} => by
    rw [hgiven]
    cases c.keep <;> simp
  refine ⟨fun e he => ?_, ?_, ?_, fun hj => ?_, fun hj => ?_, fun {j} hj => ?_, fun {j y} hy => ?_⟩
  · unfold Handle.orders at he
    split at he
    · obtain ⟨k, -, rfl⟩ := List.mem_map.mp he
      rfl
    · cases he
  · rw [he.issued]
    exact Nat.le_succ _
  · rw [hgiven]
    split <;> simp
  · rw [(hmem.mp hj).1]
    exact .inl hnew
  · rw [(hmem.mp hj).1, he.issued]
    exact Nat.le_of_eq (congrArg InstanceId.val he.id)
  · by_cases hji : j = i
    · exact .inr (hji ▸ hnew)
    · exact .inl (he.others j hji ▸ hj)
  · rw [hmem]
    by_cases hji : j = i
    · subst hji
      cases hx.symm.trans hy
      rw [hfit.released, hnone]
      simp [Cue.handle]
    · rw [he.others j hji] at hy
      simp [hji, hy]

/-! ### What an emitter does -/

/-- What an emitter's handle says was not given up was not. -/
theorem owned_of_mem {v : View E L} (h : Orderly v) {o : Owner} {em : Emitter} (hv : v.Reads o em) {g : Handle}
    (hg : g ∈ em.handles) (hrel : g.released = false) (hlive : v.rig.instance? g.instanceId ≠ none) :
    ∃ x, v.rig.instance? g.instanceId = some x ∧ (status x).released = false := by
  obtain ⟨x, hx⟩ := Option.ne_none_iff_exists'.mp hlive
  exact ⟨x, hx, (h.fits (hv.handles ▸ hg) hx).released.trans hrel⟩

variable [Engine E L] [LawfulEngine E L X S] {v : View E L} {o : Owner} {em : Emitter}

theorem update (h : Orderly v) : Accounts [] v.rig v.rig.update := .of_drift (.of_move h.ledger .update rfl)

theorem play (h : Orderly v) (em : Emitter) (c : Cue) :
    Accounts (postOrders (em.play c v.rig).1) v.rig (em.play c v.rig).2.2 := by
  rcases em.play_cases c v.rig with ⟨r', hp, hw⟩ | ⟨i, r₀, made, begun, r', hw, hp, hposted⟩ <;> rw [hp]
  · exact .calm hw
  · have h₀ : Orderly (v.withRig r₀) := h.move (.calm hw)
    exact (Accounts.calm hw).trans h.issued (.of_entered h₀ (h₀.entered hposted))

theorem setFloat (h : Orderly v) (hv : v.Reads o em) (name : String) (value : Float32) :
    Accounts [] v.rig (em.setFloat name value v.rig).2 :=
  .of_wrote (em.setFloat_wrote name value (hv.ids ▸ h.nodup o) v.rig) fun _ x =>
    congrArg Status.released (onEach_same (status_setFloat _ _) x)

theorem setLabel (h : Orderly v) (hv : v.Reads o em) (name label : String) :
    Accounts [] v.rig (em.setLabel name label v.rig).2 :=
  .of_wrote (em.setLabel_wrote name label (hv.ids ▸ h.nodup o) v.rig) fun _ x =>
    congrArg Status.released (onEach_same (status_setLabel _ _) x)

theorem tick (h : Orderly v) (hv : v.Reads o em) (position : Vec3) : Accounts [] v.rig (em.tick position v.rig).2.2 :=
  .of_wrote (em.tick_wrote position (hv.ids ▸ h.nodup o) v.rig) fun _ x =>
    congrArg Status.released (onEach_same (status_place _) x)

theorem stop (em : Emitter) (event : String) (mode : StopMode) (told : List InstanceId) (r : Rig E L) :
    Accounts (stops mode told) r (em.stop event mode r).2 := by
  obtain ⟨hs, -, -, hw⟩ := em.stop_wrote event mode r
  exact .of_stop hw told

theorem stopAll (h : Orderly v) (hv : v.Reads o em) (mode : StopMode) (told : List InstanceId) :
    Accounts (stops mode told) v.rig (em.stopAll mode v.rig).2 :=
  .of_stop (em.stopAll_wrote mode (hv.ids ▸ h.nodup o) v.rig) told

theorem releaseKept (h : Orderly v) (hv : v.Reads o em) :
    Accounts (releases (Emitter.kept em.handles v.rig)) v.rig (em.releaseKept v.rig).2.2 := by
  have hnd := hv.ids ▸ h.nodup o
  obtain ⟨hw, -⟩ := em.releaseKept_spec hnd v.rig
  refine .of_release hw (hnd.sublist (Emitter.kept_sublist em.handles v.rig)) h.issued fun i hi => ?_
  obtain ⟨hlive, g, hg, rfl, hrel⟩ := Plainly.mem_kept hi
  exact owned_of_mem h hv hg hrel hlive

/-- The instance is given up just if the emitter's own handle says that it was not before. -/
theorem stopHandle (h : Orderly v) (hv : v.Reads o em) (handle : Handle) (mode : StopMode) :
    Accounts (em.handleOrders handle mode v.rig) v.rig (em.stopHandle handle mode v.rig).2.2 := by
  have hs := Emitter.stopHandle_stopped (hv.ids ▸ h.nodup o) handle mode v.rig
  have orders : ∀ {g}, g ∈ em.handles → g.instanceId = handle.instanceId →
      v.rig.instance? handle.instanceId ≠ none → em.handleOrders handle mode v.rig =
        stops mode [handle.instanceId] ++ if g.released then [] else releases [handle.instanceId] :=
    fun hg hi hlive => Emitter.handleOrders_of_mem (hv.ids ▸ h.nodup o) hg hi mode hlive
  generalize em.stopHandle handle mode v.rig = c at hs ⊢
  cases hs with
  | nothing hn =>
    rw [Emitter.handleOrders_of_absent mode hn]
    exact .refl _
  | stopped hg hi hrel hlive hw =>
    rw [orders hg hi hlive, if_pos hrel, List.append_nil]
    exact .of_stop hw _
  | @released g r' r'' hg hi hrel hlive hw hw' =>
    rw [orders hg hi hlive, if_neg (by simp [hrel])]
    have hr' : ∀ {j}, r'.instance? j ≠ none → j.val ≤ r'.issued := fun {j} hj => by
      rw [← Option.isSome_iff_ne_none, hw.isSome_iff, Option.isSome_iff_ne_none] at hj
      rw [hw.issued]
      exact h.issued hj
    refine (Accounts.of_stop hw _).trans h.issued (.of_release hw' (List.nodup_singleton _) hr' fun i hmem => ?_)
    cases List.mem_singleton.mp hmem
    obtain ⟨x, hx, hrel'⟩ := owned_of_mem h hv hg hrel (hi ▸ hlive)
    refine ⟨_, hw.instance_of (hi ▸ hx), ?_⟩
    rw [status_onEach_stop]
    split <;> exact hrel'

end Accounts

end Soundstage
