import Mathlib.Data.List.Basic
import Soundstage.Proofs.Emitter.Acts
import Soundstage.Proofs.Engine.Touches
import Soundstage.System

/-!
# Errands

What an emitter does with a rig when it is ticked or quieted is an errand about its own instances: these decide what it
does, answers and logs, and nothing else changes (`Errand`). Two errands that are about different instances can be run
in either order, and all that shows is the order of the lines in the journal (`Errand.comm`).
-/

namespace Soundstage

open Staged

/-- All behind the stage but the journal. -/
def Backstage.unlogged {L : Type} (s : Backstage L) : Backstage L := { s with journal := [] }

variable {E L X S : Type} [Staged E X S]

/-- The rigs differ in the order of the lines in their journals at most. -/
structure Rig.Alike (r r' : Rig E L) : Prop where
  same : r' = { r with journal := r'.journal }
  journal : r'.journal.Perm r.journal

/-- It is about the instances in `ids` alone that `f` asks, that it changes something and logs lines. -/
structure Errand {α : Type} [Fixture E] (ids : List InstanceId) (f : Rig E L → α × Rig E L) : Prop where
  inPlace : ∀ r, InPlace ids r.engine (f r).2.engine
  backstage : ∀ r, (f r).2.unlogged = r.unlogged
  same : ∀ {r r'}, SameOn ids r.engine r'.engine → (f r').1 = (f r).1 ∧ SameOn ids (f r).2.engine (f r').2.engine ∧
    ∃ lines, (f r).2.journal = r.journal ++ lines ∧ (f r').2.journal = r'.journal ++ lines

namespace Rig.Alike

variable {r r' r'' : Rig E L}

theorem refl (r : Rig E L) : Alike r r := ⟨rfl, .refl _⟩

theorem trans (h : Alike r r') (h' : Alike r' r'') : Alike r r'' := by
  refine ⟨?_, h'.journal.trans h.journal⟩
  rw [h'.same, h.same]

theorem of_eq (he : r'.engine = r.engine) (hb : r'.unlogged = r.unlogged) (hj : r'.journal.Perm r.journal) :
    Alike r r' := by
  have hboth : r'.toBackstage = { r.toBackstage with journal := r'.journal } :=
    congrArg (fun s : Backstage L => { s with journal := r'.journal }) hb
  exact ⟨congrArg₂ Rig.mk hboth he, hj⟩

theorem engine (h : Alike r r') : r'.engine = r.engine := by rw [h.same]

theorem backstage (h : Alike r r') : r'.unlogged = r.unlogged := by rw [h.same]; rfl

end Rig.Alike

namespace Errand

variable [Fixture E] {α β : Type} {ids ids' : List InstanceId}

/-! ### What errands are made of -/

theorem pure (ids : List InstanceId) (a : α) : Errand ids fun r : Rig E L => (a, r) :=
  ⟨fun _ => .refl _ _, fun _ => rfl, fun h => ⟨rfl, h, [], by simp, by simp⟩⟩

theorem say (ids : List InstanceId) (level : Level) (text : String) :
    Errand ids fun r : Rig E L => ((), r.say level text) :=
  ⟨fun _ => .refl _ _, fun _ => rfl, fun h => ⟨rfl, h, [⟨level, text⟩], rfl, rfl⟩⟩

theorem congr {f g : Rig E L → α × Rig E L} (hf : Errand ids f) (h : ∀ r, g r = f r) : Errand ids g :=
  (funext h : g = f) ▸ hf

theorem look {v : Rig E L → α} (hv : ∀ {r r'}, SameOn ids r.engine r'.engine → v r' = v r) :
    Errand ids fun r => (v r, r) :=
  ⟨fun _ => .refl _ _, fun _ => rfl, fun h => ⟨hv h, h, [], by simp, by simp⟩⟩

theorem bind {f : Rig E L → α × Rig E L} {g : α → Rig E L → β × Rig E L} (hf : Errand ids f)
    (hg : ∀ a, Errand ids (g a)) : Errand ids fun r => g (f r).1 (f r).2 := by
  refine ⟨fun r => (hf.inPlace r).trans ((hg _).inPlace _), fun r => ?_, fun {r r'} h => ?_⟩
  · rw [(hg _).backstage, hf.backstage]
  · obtain ⟨ha, h₁, lines, hl, hl'⟩ := hf.same h
    rw [ha]
    obtain ⟨hb, h₂, more, hm, hm'⟩ := (hg (f r).1).same h₁
    exact ⟨hb, h₂, lines ++ more, by rw [hm, hl, List.append_assoc], by rw [hm', hl', List.append_assoc]⟩

theorem map {f : Rig E L → α × Rig E L} (hf : Errand ids f) (g : α → β) : Errand ids fun r => (g (f r).1, (f r).2) :=
  hf.bind fun a => pure ids (g a)

theorem ite {c : Rig E L → Bool} {f g : Rig E L → α × Rig E L}
    (hc : ∀ {r r'}, SameOn ids r.engine r'.engine → c r' = c r) (hf : Errand ids f) (hg : Errand ids g) :
    Errand ids fun r => if c r then f r else g r :=
  (look hc).bind (g := fun b r => if b then f r else g r) fun b => by
    cases b
    · exact hg
    · exact hf

theorem act {i : InstanceId} {op : E → Except AudioError E} (h : Touches i op) (hi : i ∈ ids) :
    Errand ids fun r : Rig E L => r.act op := by
  have hsub : [i] ⊆ ids := fun j hj => List.mem_singleton.mp hj ▸ hi
  refine ⟨fun r => ?_, fun r => ?_, fun {r r'} hr => ?_⟩
  · unfold Rig.act
    split
    · exact (h.inPlace ‹_›).mono hsub
    · exact .refl _ _
  · unfold Rig.act
    split <;> rfl
  · have hsame := h.same (hr.mono hsub)
    unfold Rig.act
    cases he : op r.engine with
    | error err =>
      cases he' : op r'.engine with
      | ok e' => rw [he, he'] at hsame; cases hsame
      | error err' =>
        rw [he, he'] at hsame
        cases hsame
        exact ⟨rfl, hr, [], by simp, by simp⟩
    | ok e =>
      cases he' : op r'.engine with
      | error err' => rw [he, he'] at hsame; cases hsame
      | ok e' =>
        rw [he, he'] at hsame
        have hown : (instances e').get? i = (instances e).get? i := Except.ok.inj hsame
        have hp := h.inPlace he
        have hp' := h.inPlace he'
        refine ⟨rfl, ⟨hp'.rest.trans (hr.rest.trans hp.rest.symm), fun {j} hj => ?_⟩, [], by simp, by simp⟩
        by_cases hji : j ∈ [i]
        · rw [List.mem_singleton.mp hji]
          exact hown
        · exact (hp'.others hji).trans ((hr.own hj).trans (hp.others hji).symm)

/-- Whether a call went through; a refusal is logged. -/
def heed (complaint : AudioError → String) (result : Except AudioError Unit) (r : Rig E L) : Bool × Rig E L :=
  match result with
  | .ok _ => (true, r)
  | .error e => (false, r.say .debug (complaint e))

theorem heed_errand (ids : List InstanceId) (complaint : AudioError → String) (result : Except AudioError Unit) :
    Errand ids (heed complaint result : Rig E L → Bool × Rig E L) := by
  cases result with
  | ok _ => exact pure ids true
  | error e => exact (say ids .debug (complaint e)).map fun _ => false

theorem order {i : InstanceId} {op : E → Except AudioError E} (h : Touches i op) (hi : i ∈ ids)
    (complaint : AudioError → String) : Errand ids fun r : Rig E L => match r.act op with
      | (.ok (), r) => (true, r)
      | (.error e, r) => (false, r.say .debug (complaint e)) := by
  refine ((act h hi).bind fun result => heed_errand ids complaint result).congr fun r => ?_
  obtain ⟨_ | _, r'⟩ := r.act op <;> rfl

theorem attempt {i : InstanceId} {op : E → Except AudioError E} (h : Touches i op) (hi : i ∈ ids)
    (complaint : AudioError → String) : Errand ids fun r : Rig E L => ((), r.attempt op complaint) := by
  refine ((order (L := L) h hi complaint).map fun _ => ()).congr fun r => ?_
  unfold Rig.act Rig.attempt
  cases op r.engine <;> rfl

theorem foldl {γ : Type} {step : Rig E L → γ → Rig E L} {l : List γ}
    (h : ∀ a ∈ l, Errand ids fun r => ((), step r a)) : Errand ids fun r => ((), l.foldl step r) := by
  induction l with
  | nil => exact pure ids ()
  | cons a rest ih =>
    exact (h a (List.mem_cons_self ..)).bind fun _ => ih fun b hb => h b (List.mem_cons_of_mem _ hb)

/-! ### Errands side by side -/

/-- The order of the lines in the journal makes no difference to an errand. -/
theorem alike {f : Rig E L → α × Rig E L} (hf : Errand ids f) {r r' : Rig E L} (h : r.Alike r') :
    (f r').1 = (f r).1 ∧ (f r).2.Alike (f r').2 := by
  obtain ⟨ha, hsame, lines, hl, hl'⟩ := hf.same (SameOn.of_eq h.engine)
  have hp := hf.inPlace r
  have hp' := hf.inPlace r'
  rw [h.engine] at hp'
  refine ⟨ha, .of_eq (Fixture.ext_get? hsame.rest (hp'.keys.trans hp.keys.symm) fun j => ?_) ?_ ?_⟩
  · by_cases hj : j ∈ ids
    · exact hsame.own hj
    · rw [hp'.others hj, hp.others hj]
  · rw [hf.backstage, hf.backstage, h.backstage]
  · rw [hl, hl']
    exact h.journal.append_right lines

theorem comm {f : Rig E L → α × Rig E L} {g : Rig E L → β × Rig E L} (hf : Errand ids f) (hg : Errand ids' g)
    (hd : ids.Disjoint ids') (r : Rig E L) :
    (f (g r).2).1 = (f r).1 ∧ (g (f r).2).1 = (g r).1 ∧ (g (f r).2).2.Alike (f (g r).2).2 := by
  have hfp := hf.inPlace r
  have hgp := hg.inPlace r
  -- neither notices that the other has been at work
  obtain ⟨ha, hfs, lines, hl, hl'⟩ := hf.same (hgp.sameOn hd)
  obtain ⟨hb, hgs, more, hm, hm'⟩ := hg.same (hfp.sameOn fun _ hj hj' => hd hj' hj)
  have hfp' := hf.inPlace (g r).2
  have hgp' := hg.inPlace (f r).2
  refine ⟨ha, hb, .of_eq (Fixture.ext_get? ?_ ?_ fun j => ?_) ?_ ?_⟩
  · rw [hfp'.rest, hgp.rest, hgp'.rest, hfp.rest]
  · rw [hfp'.keys, hgp.keys, hgp'.keys, hfp.keys]
  · by_cases hj : j ∈ ids
    · rw [hfs.own hj, hgp'.others (hd hj)]
    · rw [hfp'.others hj]
      by_cases hj' : j ∈ ids'
      · exact (hgs.own hj').symm
      · rw [hgp.others hj', hgp'.others hj', hfp.others hj]
  · rw [hf.backstage, hg.backstage, hg.backstage, hf.backstage]
  · rw [hl', hm', hl, hm, List.append_assoc, List.append_assoc]
    exact List.perm_append_comm.append_left r.journal

end Errand

/-! ### The errands of an emitter -/

namespace Emitter

variable [Loader L] [Engine E L] [Fixture E] [DiscreetEngine E] {ids : List InstanceId} {hs : List Handle}

theorem isValid_same {r r' : Rig E L} (h : SameOn ids r.engine r'.engine) {i : InstanceId} (hi : i ∈ ids) :
    r'.isValid i = r.isValid i :=
  DiscreetEngine.isValid i (h.mono fun _ hj => List.mem_singleton.mp hj ▸ hi)

theorem stopInstance_errand {i : InstanceId} (hi : i ∈ ids) (mode : StopMode) :
    Errand ids (stopInstance i mode : Rig E L → Bool × Rig E L) :=
  .order (DiscreetEngine.stop i mode) hi _

theorem releaseHandle_errand {i : InstanceId} (hi : i ∈ ids) :
    Errand ids (releaseHandle i : Rig E L → Bool × Rig E L) :=
  .order (DiscreetEngine.release i) hi _

theorem moveHandle_errand (em : Emitter) {h : Handle} (hh : h.instanceId ∈ ids) :
    Errand ids fun r : Rig E L => ((), em.moveHandle r h) := by
  have hplace : Errand ids fun r : Rig E L => ((), em.place h.instanceId r) :=
    .attempt (DiscreetEngine.setAttributes h.instanceId em.attributes) hh _
  refine (Errand.ite (c := fun r => !r.isValid h.instanceId) (fun hs => congrArg not (isValid_same hs hh))
    (.pure ids ()) hplace).congr fun r => ?_
  unfold moveHandle
  split <;> rfl

theorem stopEach_errand (mode : StopMode) (hsub : ∀ h ∈ hs, h.instanceId ∈ ids) :
    Errand ids (stopEach mode hs : Rig E L → Nat × Rig E L) := by
  induction hs with
  | nil => exact .pure ids 0
  | cons h rest ih =>
    have hh := hsub h (List.mem_cons_self ..)
    have hrest : Errand ids (stopEach mode rest : Rig E L → Nat × Rig E L) :=
      ih fun g hg => hsub g (List.mem_cons_of_mem _ hg)
    exact .ite (fun hs => congrArg not (isValid_same hs hh)) hrest
      ((stopInstance_errand hh mode).bind fun stopped => hrest.map fun n => if stopped then n + 1 else n)

/-- The answer is the number of the instances given up, and the handles. -/
theorem releaseEach_errand (hsub : ∀ h ∈ hs, h.instanceId ∈ ids) :
    Errand ids fun r : Rig E L => (((releaseEach hs r).1, (releaseEach hs r).2.1), (releaseEach hs r).2.2) := by
  induction hs with
  | nil => exact .pure ids (0, [])
  | cons h rest ih =>
    have hh := hsub h (List.mem_cons_self ..)
    have hrest := ih fun g hg => hsub g (List.mem_cons_of_mem _ hg)
    have hskip := hrest.map fun c => (c.1, h :: c.2)
    have hgive := (releaseHandle_errand hh).bind fun released =>
      hrest.map fun c => if released then (c.1 + 1, { h with released := true } :: c.2) else (c.1, h :: c.2)
    refine (Errand.ite (c := fun r => h.released || !r.isValid h.instanceId)
      (fun hs => by rw [isValid_same hs hh]) hskip hgive).congr fun r => ?_
    rw [releaseEach]
    split
    · rfl
    · dsimp only
      split <;> rfl

/-! ### Ticks and quiet -/

/-- The last of a tick: the handles of instances that are gone are forgotten. -/
def reap (em : Emitter) (dead : List InstanceId) (r : Rig E L) : (Nat × Emitter) × Rig E L :=
  if dead.isEmpty then ((0, em), r)
  else
    ((dead.length, { em with handles := em.handles.filter fun h => !dead.contains h.instanceId }),
      r.say .trace ("Audio: " ++ em.entity.text ++ " reaped " ++ toString dead.length ++ " finished instance(s)"))

omit [Loader L] [Engine E L] [DiscreetEngine E] in
theorem reap_errand (ids dead : List InstanceId) (em : Emitter) :
    Errand ids (em.reap dead : Rig E L → (Nat × Emitter) × Rig E L) :=
  .ite (c := fun _ => dead.isEmpty) (fun _ => rfl) (.pure ids (0, em)) ((Errand.say ids _ _).map fun _ => _)

/-- The answer is the number of the handles that were forgotten, and the emitter. -/
theorem tick_errand (em : Emitter) (position : Vec3) : Errand (em.handles.map Handle.instanceId)
    fun r : Rig E L => (((em.tick position r).1, (em.tick position r).2.1), (em.tick position r).2.2) := by
  have hin : ∀ h ∈ em.handles, h.instanceId ∈ em.handles.map Handle.instanceId := fun h hh =>
    List.mem_map_of_mem hh
  have hdead : ∀ {r r' : Rig E L}, SameOn (em.handles.map Handle.instanceId) r.engine r'.engine →
      (em.setPosition position).dead r' = (em.setPosition position).dead r := by
    intro r r' hs
    refine congrArg (List.map Handle.instanceId) (List.filter_congr fun h hh => ?_)
    rw [isValid_same hs (hin h hh)]
  have hmove : Errand (em.handles.map Handle.instanceId) fun r : Rig E L =>
      ((), em.handles.foldl (em.setPosition position).moveHandle r) :=
    .foldl fun h hh => moveHandle_errand _ (hin h hh)
  -- who is gone is found out before anything is moved
  have htick := (Errand.look hdead).bind fun dead => hmove.bind fun _ =>
    reap_errand (em.handles.map Handle.instanceId) dead (em.setPosition position)
  refine htick.congr fun r => ?_
  unfold tick reap
  dsimp only
  split <;> rfl

theorem quiet_errand (em : Emitter) : Errand (em.handles.map Handle.instanceId)
    fun r : Rig E L => System.quiet em r :=
  (stopEach_errand .immediate fun _ => List.mem_map_of_mem).bind fun _ =>
    (releaseEach_errand fun _ => List.mem_map_of_mem).map fun c => { em with handles := c.2 }

end Emitter

end Soundstage
