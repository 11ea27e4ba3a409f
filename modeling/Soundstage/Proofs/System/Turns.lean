import Soundstage.Proofs.System.Orderly

/-!
# What an emitter does, as moves

An emitter that acts on the rig of a view takes its owner from one view to the next: `View.put` is
the view with what the emitter has become and the rig it leaves behind. Each operation of an emitter
is a run of moves to that view. All moves but posts and parameters are plain: they make nothing
new, so of them it never matters which there were.
-/

namespace Soundstage

open Playable Staged Function

namespace View

variable {E L : Type} {v : View E L} {o : Owner} {em em' : Emitter} {r r' : Rig E L}

/-- What `v` shows of its owner `o` is `em`. -/
structure Reads (v : View E L) (o : Owner) (em : Emitter) : Prop where
  handles : em.handles = v.handles o
  params : em.params = v.params o

/-- The view after `em` has acted for `o`. -/
def put (v : View E L) (o : Owner) (em : Emitter) (r : Rig E L) : View E L :=
  ⟨r, update v.handles o em.handles, update v.params o em.params⟩

@[simp]
theorem rig_put : (v.put o em r).rig = r := rfl

@[simp]
theorem handles_put_self : (v.put o em r).handles o = em.handles := update_self ..

theorem handles_put_of_ne {p : Owner} (h : p ≠ o) : (v.put o em r).handles p = v.handles p := update_of_ne h ..

theorem reads_put : (v.put o em r).Reads o em := by
  constructor <;> simp [put]

@[simp]
theorem put_put : (v.put o em r).put o em' r' = v.put o em' r' := by simp [put]

theorem without_put (v : View E L) (em : Emitter) {gone : EntityId → Bool} {e : EntityId} (h : gone e = true) :
    ((v.put (.entity e) em r).withRig r').without gone = (v.withRig r').without gone := by
  have hne : ∀ e', ¬gone e' = true → Owner.entity e' ≠ .entity e := by
    rintro _ hn ⟨⟩
    exact hn h
  unfold without withRig put
  congr 1 <;> funext p <;> rcases p with e' | _ <;> dsimp only
  · split
    · rfl
    · exact update_of_ne (hne e' ‹_›) ..
  · exact update_of_ne (by simp) ..
  · split
    · rfl
    · exact update_of_ne (hne e' ‹_›) ..
  · exact update_of_ne (by simp) ..

namespace Reads

theorem ids (h : v.Reads o em) : v.ids o = em.handles.map Handle.instanceId := congrArg _ h.handles.symm

/-- There is nothing to forget of an entity without an emitter. -/
theorem without_eq {e : EntityId} (h : v.Reads (.entity e) (.ofEntity e)) : v.without (· = e) = v := by
  obtain ⟨hh, hp⟩ := h
  unfold without
  congr 1 <;> funext o <;> rcases o with e' | _ <;> dsimp only
  · by_cases he : e' = e
    · subst he; simp [← hh, Emitter.ofEntity]
    · simp [he]
  · by_cases he : e' = e
    · subst he; simp [← hp, Emitter.ofEntity]
    · simp [he]

theorem withRig_eq (h : v.Reads o em) : v.withRig r = v.put o em r := by
  simp [withRig, put, h.handles, h.params]

theorem withHandles_eq (h : v.Reads o em) (hs : List Handle) :
    (v.withRig r).withHandles o hs = v.put o { em with handles := hs } r := by
  simp [withRig, withHandles, put, h.params]

theorem withParams_eq (h : v.Reads o em) (p : Params) :
    (v.withRig r).withParams o p = v.put o { em with params := p } r := by
  simp [withRig, withParams, put, h.handles]

end Reads

end View

/-- What was stopped or given up stays so as long as it is there, and nothing comes in. -/
def Fades {E L X S : Type} [Staged E X S] [Playable X S] (r r' : Rig E L) : Prop :=
  ∀ j y, r'.instance? j = some y → ∃ x, r.instance? j = some x ∧
    ((status x).released = true → (status y).released = true) ∧
      ((status x).stopped = true → (status y).stopped = true)

namespace Fades

variable {E L X S : Type} [Staged E X S] [Playable X S] {r r' r'' : Rig E L}

theorem refl (r : Rig E L) : Fades r r := fun _ y hy => ⟨y, hy, id, id⟩

theorem trans (h : Fades r r') (h' : Fades r' r'') : Fades r r'' := by
  intro j y hy
  obtain ⟨x, hx, hr, hs⟩ := h' j y hy
  obtain ⟨w, hw, hr', hs'⟩ := h j x hx
  exact ⟨w, hw, fun h => hr (hr' h), fun h => hs (hs' h)⟩

theorem of_drift [Loader L] [LawfulLoader L] (h : Drift r r') : Fades r r' := by
  intro j y hy
  obtain ⟨x, hx, ha⟩ := h.aged hy
  exact ⟨x, hx, fun h => ha.released.trans h, ha.2⟩

theorem of_wrote {f : InstanceId → X → X} (hw : Wrote f r r')
    (hr : ∀ j x, (status x).released = true → (status (f j x)).released = true)
    (hs : ∀ j x, (status x).stopped = true → (status (f j x)).stopped = true) : Fades r r' := by
  intro j y hy
  obtain ⟨x, hx, rfl⟩ := hw.source hy
  exact ⟨x, hx, hr j x, hs j x⟩

theorem silent (h : Fades r r') {hs : List Handle} (hh : Silent r hs) : Silent r' hs := by
  intro g hg y hy
  obtain ⟨x, hx, hr, hs⟩ := h _ y hy
  exact ⟨hr (hh g hg x hx).1, hs (hh g hg x hx).2⟩

end Fades

namespace Plainly

theorem calm {E L X S : Type} [Loader L] [Engine E L] [Staged E X S] [Playable X S] {v : View E L} {o : Owner}
    {em : Emitter} {r : Rig E L} (hv : v.Reads o em) (hw : Wrote (fun _ x => x) v.rig r) : Plainly v (v.put o em r) :=
  hv.withRig_eq ▸ single (.calm hw) rfl

variable {E L X S : Type} [Loader L] [LawfulLoader L] [Engine E L] [Staged E X S] [Playable X S]
  [LawfulEngine E L X S] {v w : View E L} {o : Owner} {em : Emitter}

theorem stop (hv : v.Reads o em) (event : String) (mode : StopMode) :
    Plainly v (v.put o em (em.stop event mode v.rig).2) := by
  obtain ⟨hs, hsub, -, hw⟩ := em.stop_wrote event mode v.rig
  refine hv.withRig_eq ▸ single (.stop (o := o) ?_ hw) rfl
  rw [hv.ids]
  exact List.map_subset _ hsub

theorem stopAll (h : Orderly v) (hv : v.Reads o em) (mode : StopMode) :
    Plainly v (v.put o em (em.stopAll mode v.rig).2) := by
  have hw := em.stopAll_wrote mode (hv.ids ▸ h.nodup o) v.rig
  rw [← hv.ids] at hw
  exact hv.withRig_eq ▸ single (.stop (List.Subset.refl _) hw) rfl

theorem mem_kept {hs : List Handle} {r : Rig E L} {i : InstanceId} (h : i ∈ Emitter.kept hs r) :
    r.instance? i ≠ none ∧ ∃ g ∈ hs, g.instanceId = i ∧ g.released = false := by
  obtain ⟨g, hg, rfl⟩ := List.mem_map.mp h
  obtain ⟨hg, hk⟩ := List.mem_filter.mp hg
  rw [Bool.and_eq_true, Bool.not_eq_true'] at hk
  exact ⟨Rig.present hk.2, g, hg, rfl, hk.1⟩

theorem releaseKept (h : Orderly v) (hv : v.Reads o em) :
    Plainly v (v.put o (em.releaseKept v.rig).2.1 (em.releaseKept v.rig).2.2) := by
  obtain ⟨hw, he⟩ := em.releaseKept_spec (hv.ids ▸ h.nodup o) v.rig
  rw [he, ← hv.withHandles_eq, hv.handles]
  rw [hv.handles] at hw
  exact single (.release (fun i hi => mem_kept hi) hw) rfl

theorem stopHandle (h : Orderly v) (hv : v.Reads o em) (handle : Handle) (mode : StopMode) :
    Plainly v (v.put o (em.stopHandle handle mode v.rig).2.1 (em.stopHandle handle mode v.rig).2.2) := by
  have hin : ∀ {g : Handle}, g ∈ em.handles → [g.instanceId] ⊆ v.ids o := fun hg => by
    rw [hv.ids]
    simpa using ⟨_, hg, rfl⟩
  have hs := Emitter.stopHandle_stopped (hv.ids ▸ h.nodup o) handle mode v.rig
  generalize em.stopHandle handle mode v.rig = c at hs ⊢
  cases hs with
  | nothing => exact calm hv (.refl _)
  | @stopped g r' hg hi _ _ hw => exact hv.withRig_eq ▸ single (.stop (hi ▸ hin hg) hw) rfl
  | @released g r' r'' hg hi hrel hlive hw hw' =>
    refine (single (.stop (hi ▸ hin hg) hw) rfl).trans ?_
    have hv' : (v.withRig r').Reads o em := ⟨hv.handles, hv.params⟩
    refine (show _ = v.put o _ r'' from hv'.withHandles_eq _) ▸ hv'.handles ▸ single (.release ?_ hw') rfl
    intro i hm
    rw [List.mem_singleton.mp hm]
    refine ⟨?_, g, hv.handles ▸ hg, hi, hrel⟩
    rw [← Option.isSome_iff_ne_none] at hlive ⊢
    rw [← hlive]
    exact hw.isSome_iff _

theorem tick (h : Orderly v) (hv : v.Reads o em) (position : Vec3) :
    Plainly v (v.put o (em.tick position v.rig).2.1 (em.tick position v.rig).2.2) := by
  have hw := em.tick_wrote position (hv.ids ▸ h.nodup o) v.rig
  rw [← hv.ids] at hw
  have same : (fun h : Handle => (em.tick position v.rig).2.2.isValid h.instanceId) =
      fun h => v.rig.isValid h.instanceId := funext fun h => hw.isValid h.instanceId
  have hr := Move.reap (v := v.withRig (em.tick position v.rig).2.2) (o := o)
  refine (single (.place hw) rfl).trans (single (d := .reap o) ?_ rfl)
  rw [Emitter.tick_emitter, hv.handles, ← same]
  have hv' : v.Reads o (em.setPosition position) := ⟨hv.handles, hv.params⟩
  exact (show _ = v.put o _ _ from hv'.withHandles_eq _) ▸ hr

/-! ### Silence -/

theorem fades_move (h : Orderly v) {d : Deed} (hm : Move v d w) (hp : d.isPlain = true) : Fades v.rig w.rig := by
  cases hc : d.changesHands with
  | false => exact .of_drift (.of_move h.ledger hm hc)
  | true =>
    cases hm with
    | release _ hw =>
      refine .of_wrote hw (fun j x hr => ?_) (fun j x hs => ?_) <;> rw [status_onEach_release] <;> split
      exacts [rfl, hr, hs, hs]
    | post _ _ => cases hp
    | _ => cases hc

theorem fades (h : Orderly v) (hm : Plainly v w) : Fades v.rig w.rig := by
  obtain ⟨ds, hp, hm⟩ := hm
  induction hm with
  | nil => exact .refl _
  | cons hm _ ih =>
    exact (fades_move h hm (hp _ (List.mem_cons_self ..))).trans
      (ih (h.move hm) fun d hd => hp d (List.mem_cons_of_mem _ hd))

/-- An emitter that is quieted has nothing left to stop or to give up. -/
theorem quiet (h : Orderly v) (hv : v.Reads o em) :
    Plainly v (v.put o (System.quiet em v.rig).1 (System.quiet em v.rig).2) ∧
      Silent (System.quiet em v.rig).2 (System.quiet em v.rig).1.handles := by
  have hstop := stopAll h hv .immediate
  have hw := em.stopAll_wrote .immediate (hv.ids ▸ h.nodup o) v.rig
  have h₁ := h.plainly hstop
  have hv₁ : (v.put o em (em.stopAll .immediate v.rig).2).Reads o em := View.reads_put
  unfold System.quiet
  generalize (em.stopAll .immediate v.rig) = c at hstop hw h₁ hv₁ ⊢
  obtain ⟨n, r₁⟩ := c
  dsimp only at hstop hw h₁ hv₁ ⊢
  have hgive := releaseKept h₁ hv₁
  have h₂ := h₁.plainly hgive
  obtain ⟨hw', he⟩ := em.releaseKept_spec (hv₁.ids ▸ h₁.nodup o) r₁
  rw [View.put_put] at hgive h₂
  change Plainly _ (v.put o (em.releaseKept r₁).2.1 (em.releaseKept r₁).2.2) at hgive
  change Orderly (v.put o (em.releaseKept r₁).2.1 (em.releaseKept r₁).2.2) at h₂
  generalize em.releaseKept r₁ = c at hgive h₂ hw' he ⊢
  obtain ⟨m, em', r₂⟩ := c
  dsimp only at hgive h₂ hw' he ⊢
  refine ⟨hstop.trans hgive, fun g hg y hy => ?_⟩
  have hin : g ∈ (v.put o em' r₂).handles o := by simpa [View.put] using hg
  have hfit := h₂.fits hin hy
  subst he
  obtain ⟨k, hk, rfl⟩ := List.mem_map.mp hg
  rw [Handle.instanceId_mark] at hy
  obtain ⟨x₁, hx₁, rfl⟩ := hw'.source hy
  obtain ⟨x, hx, rfl⟩ := hw.source hx₁
  constructor
  · -- the handle says so: it was released before, or is marked now
    rw [hfit.released]
    unfold Handle.mark
    split
    · rfl
    · rename_i hout
      refine Classical.byContradiction fun hrel => hout (List.mem_map_of_mem (List.mem_filter.mpr ⟨hk, ?_⟩))
      rw [Bool.not_eq_true] at hrel
      rw [hrel, Rig.isValid_eq, hx₁]
      rfl
  · have hout : k.instanceId ∈ em.handles.map Handle.instanceId := List.mem_map_of_mem hk
    rw [status_onEach_release, status_onEach_stop, if_pos hout]
    split <;> rfl

end Plainly

namespace Moves

theorem forget {E L X S : Type} [Loader L] [Engine E L] [Staged E X S] [Playable X S] {v : View E L} {em : Emitter}
    {e : EntityId} {r r' : Rig E L} (hs : Silent r' em.handles) :
    Moves ((v.put (.entity e) em r).withRig r') [.forget (· = e)] ((v.withRig r').without (· = e)) := by
  rw [← View.without_put v em (e := e) (r := r) (decide_eq_true rfl)]
  refine single (.forget fun e' he g hg x hx => ?_)
  rw [of_decide_eq_true he] at hg
  exact hs g (View.handles_put_self ▸ hg) x hx

variable {E L X S : Type} [Loader L] [LawfulLoader L] [Engine E L] [Staged E X S] [Playable X S]
  [LawfulEngine E L X S] {v : View E L} {o : Owner} {em : Emitter}

theorem setFloat (h : Orderly v) (hv : v.Reads o em) (name : String) (value : Float32) :
    Moves v [.setFloat o name value] (v.put o (em.setFloat name value v.rig).1 (em.setFloat name value v.rig).2) := by
  have hw := em.setFloat_wrote name value (hv.ids ▸ h.nodup o) v.rig
  rw [← hv.ids] at hw
  exact (show _ = v.put o { em with params := em.params.setFloat name value } _ from hv.withParams_eq _) ▸
    hv.params ▸ single (.setFloat hw)

theorem setLabel (h : Orderly v) (hv : v.Reads o em) (name label : String) :
    Moves v [.setLabel o name label] (v.put o (em.setLabel name label v.rig).1 (em.setLabel name label v.rig).2) := by
  have hw := em.setLabel_wrote name label (hv.ids ▸ h.nodup o) v.rig
  rw [← hv.ids] at hw
  exact (show _ = v.put o { em with params := em.params.setLabel name label } _ from hv.withParams_eq _) ▸
    hv.params ▸ single (.setLabel hw)

theorem play (hv : v.Reads o em) (c : Cue) : ∃ w, Plainly v w ∧
    Moves w ((em.play c v.rig).1.map (Deed.post o)).toList (v.put o (em.play c v.rig).2.1 (em.play c v.rig).2.2) := by
  rcases em.play_cases c v.rig with ⟨r', hp, hw⟩ | ⟨i, r₀, made, begun, r', hw, hp, hposted⟩ <;> rw [hp]
  · exact ⟨_, .calm hv hw, .nil⟩
  · refine ⟨_, .single (.calm hw) rfl, ?_⟩
    have hv' : (v.withRig r₀).Reads o em := ⟨hv.handles, hv.params⟩
    exact (show _ = v.put o { em with handles := em.handles ++ [c.handle i] } r' from hv'.withHandles_eq _) ▸
      hv'.handles ▸ single (.post hv'.params hposted)

end Moves

end Soundstage
