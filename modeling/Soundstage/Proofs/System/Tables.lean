import Soundstage.Proofs.System.Conduct
import Soundstage.Proofs.System.Origins
import Soundstage.Proofs.System.Teardown

/-!
# Handle tables

The handles that an owner tracks are told by the history alone: those that it was given, oldest first,
without the ones that some later turn has not spared (`Turn.kept`). Instances are numbered upwards,
and one that is gone stays away (`Succeeds`), so a handle that is left always means the instance that
it was given for. Both are shown for any engine whose events are drifts, and hold of the two that
there are (`handle_tables_exact`).
-/

namespace Soundstage

open Playable Staged Function

/-- Instances may have come in, numbered upwards, but none has come back. -/
structure Succeeds {E L X S : Type} [Staged E X S] (r r' : Rig E L) : Prop where
  issued : r.issued ≤ r'.issued
  gone : ∀ i, i.val ≤ r.issued → r.instance? i = none → r'.instance? i = none

namespace Succeeds

section

variable {E L X S : Type} [Staged E X S] {r r' r'' : Rig E L}

theorem refl (r : Rig E L) : Succeeds r r := ⟨Nat.le_refl _, fun _ _ => id⟩

theorem trans (h : Succeeds r r') (h' : Succeeds r' r'') : Succeeds r r'' :=
  ⟨Nat.le_trans h.issued h'.issued,
    fun i hi hn => h'.gone i (Nat.le_trans hi h.issued) (h.gone i hi hn)⟩

theorem of_drift [Loader L] [LawfulLoader L] [Playable X S] (h : Drift r r') : Succeeds r r' := by
  refine ⟨Nat.le_of_eq h.issued.symm, fun i _ hn => Classical.byContradiction fun hi => ?_⟩
  obtain ⟨y, hy⟩ := Option.ne_none_iff_exists'.mp hi
  obtain ⟨x, hx, -⟩ := h.aged hy
  rw [hn] at hx
  cases hx

end

variable {E L X S V : Type} [Loader L] [LawfulLoader L] [Engine E L] [Staged E X S] [Playable X S]
  [LawfulEngine E L X S]

theorem move {v w : View E L} {d : Deed} (ho : Orderly v) (hm : Move v d w) : Succeeds v.rig w.rig := by
  cases hc : d.changesHands with
  | false => exact .of_drift (.of_move ho.ledger hm hc)
  | true =>
    cases hm with
    | release _ hw =>
      refine ⟨Nat.le_of_eq hw.issued.symm, fun i _ hn => ?_⟩
      exact (hw.instances i).trans (by rw [hn]; rfl)
    | post _ hp =>
      have he := ho.entered hp
      refine ⟨Nat.le_of_lt (he.issued ▸ Nat.lt_succ_self _), fun j hj hn => ?_⟩
      exact (he.others j (he.ne_of_le hj)).trans hn
    | _ => cases hc

theorem run {happen : V → Rig E L → Rig E L} {s : System E L}
    (hd : ∀ v (r : Rig E L), Ledger r.toBackstage [] → Drift r (happen v r)) (ho : Orderly s.view)
    (turns : List (Turn V)) : Succeeds s.rig (Turn.run happen turns s).rig :=
  ho.run_keeps (P := fun w => Succeeds s.rig w.rig) hd (fun ho hm h => h.trans (move ho hm))
    (fun e ho h => h.trans (.of_drift (hd e _ ho.ledger))) (refl _) turns

end Succeeds

section

variable {E L X S : Type} [Loader L] [LawfulLoader L] [Engine E L] [Staged E X S] [Playable X S]
  [LawfulEngine E L X S] {v w : View E L} {d : Deed}

theorem issued_move (ho : Orderly v) (hm : Move v d w) (hd : ∀ o g, d ≠ .post o g) : w.rig.issued = v.rig.issued := by
  cases hc : d.changesHands with
  | false => exact (Drift.of_move ho.ledger hm hc).issued
  | true =>
    cases hm with
    | release _ hw => exact hw.issued
    | post _ _ => exact absurd rfl (hd _ _)
    | _ => cases hc

theorem issued_post {o : Owner} {g : Handle} (ho : Orderly v) (hm : Move v (.post o g) w) :
    g.instanceId = ⟨v.rig.issued + 1⟩ ∧ w.rig.issued = v.rig.issued + 1 := by
  cases hm with
  | post _ hp =>
    have he := ho.entered hp
    exact ⟨he.id, he.issued⟩

/-- A request makes an instance and answers its handle, or neither. -/
theorem issued_perform {s : System E L} (ho : Orderly s.view) (q : Request) :
    (q.perform s).1 = none ∧ (q.perform s).2.rig.issued = s.rig.issued ∨
      ∃ g, (q.perform s).1 = some g ∧ g.instanceId = ⟨s.rig.issued + 1⟩ ∧
        (q.perform s).2.rig.issued = s.rig.issued + 1 := by
  obtain ⟨w, ds, hds, hnopost, hend⟩ := q.posting ho
  obtain ⟨how, hw⟩ := hds.keeps_among (P := fun v => Orderly v ∧ v.rig.issued = s.rig.issued)
    (fun hd hm ⟨ho, h⟩ => ⟨ho.move hm, (issued_move ho hm hd).trans h⟩) hnopost ⟨ho, rfl⟩
  rcases hend with ⟨ha, rfl⟩ | ⟨o, g, ha, hm⟩
  · exact .inl ⟨ha, hw⟩
  · obtain ⟨hid, hissued⟩ := issued_post how hm
    rw [hw] at hid hissued
    exact .inr ⟨g, ha, hid, hissued⟩

theorem issued_answer {s : System E L} (ho : Orderly s.view) {q : Request} {g : Handle} (hg : (q.perform s).1 = some g) :
    g.instanceId.val = s.rig.issued + 1 ∧ (q.perform s).2.rig.issued = s.rig.issued + 1 := by
  rcases issued_perform ho q with ⟨hn, -⟩ | ⟨g', hg', hid, hissued⟩
  · rw [hn] at hg
    cases hg
  · cases hg.symm.trans hg'
    exact ⟨congrArg InstanceId.val hid, hissued⟩

end

namespace Turn

variable {E L V : Type} [Loader L] [Engine E L]

/-- Whether each turn after `before` leaves a handle of `i` to `o`. -/
def lasts (run : List (Turn V) → System E L) (o : Owner) (i : InstanceId) (before : List (Turn V)) :
    List (Turn V) → Bool
  | [] => true
  | t :: rest => t.spares o i (run (before ++ [t])).rig && lasts run o i (before ++ [t]) rest

/-- The handles that `o` is given in the turns after `before` and that last, oldest first. -/
def kept (run : List (Turn V) → System E L) (o : Owner) (before : List (Turn V)) : List (Turn V) → List Handle
  | [] => []
  | t :: rest =>
    ((t.posted o (run before)).toList.filter fun g => lasts run o g.instanceId (before ++ [t]) rest) ++
      kept run o (before ++ [t]) rest

theorem origins_run {X S : Type} [LawfulLoader L] [Staged E X S] [Playable X S] [LawfulEngine E L X S]
    {happen : V → Rig E L → Rig E L} (run : List (Turn V) → System E L)
    (hrun : ∀ before t, run (before ++ [t]) = t.take happen (run before)) (ho : ∀ turns, Orderly (run turns).view)
    (o : Owner) (before turns : List (Turn V)) : (run (before ++ turns)).view.origins o =
      (((run before).view.origins o).filter fun g => lasts run o g.instanceId before turns) ++
        (kept run o before turns).map Handle.origin := by
  induction turns generalizing before with
  | nil =>
    unfold lasts kept
    rw [List.filter_true, List.append_nil]
    exact (List.append_nil _).symm
  | cons t rest ih =>
    have hlater := ih (before ++ [t])
    rw [List.append_assoc, List.singleton_append] at hlater
    have htake : (run (before ++ [t])).view.origins o =
        ((run before).view.origins o).filter (fun g => t.spares o g.instanceId (run (before ++ [t])).rig) ++
          (t.posted o (run before)).toList.map Handle.origin := by
      rw [hrun]
      exact origins_take (ho before) t o
    rw [hlater, htake, List.filter_append, List.filter_filter, kept, List.map_append,
      Handle.map_origin_filter _ fun i => lasts run o i (before ++ [t]) rest, List.append_assoc]
    congr 1
    refine List.filter_congr fun g _ => ?_
    rw [lasts, Bool.and_comm]

end Turn

/-- What holds of the handle tables after each turn of a run. -/
structure Tabled {E L X S V : Type} [Loader L] [Engine E L] [Staged E X S] [Playable X S]
    (run : List (Turn V) → System E L) (turns : List (Turn V)) : Prop where
  /-- An instance that was valid and is no more never is again. -/
  gone : ∀ {before between after i}, turns = before ++ between ++ after → (run before).rig.isValid i = true →
    (run (before ++ between)).rig.isValid i = false → (run turns).rig.isValid i = false
  /-- A request makes an instance and answers its handle, or neither. -/
  made : ∀ q : Request, (q.perform (run turns)).1 = none ∧
      (q.perform (run turns)).2.rig.issued = (run turns).rig.issued ∨
    ∃ g, (q.perform (run turns)).1 = some g ∧ g.instanceId = ⟨(run turns).rig.issued + 1⟩ ∧
      (q.perform (run turns)).2.rig.issued = (run turns).rig.issued + 1
  /-- What is posted has a number that no instance has had. -/
  unused : ∀ {before after} {q : Request} {g : Handle}, turns = before ++ after →
    (q.perform (run turns)).1 = some g → (run before).rig.isValid g.instanceId = false
  numbered : ∀ {before after} {q p : Request} {g h : Handle}, turns = before ++ .request p :: after →
    (q.perform (run turns)).1 = some g → (p.perform (run before)).1 = some h → h.instanceId.val < g.instanceId.val
  ascending : ∀ o, ((run turns).handlesOf o).Pairwise fun g h => g.instanceId.val < h.instanceId.val
  apart : ∀ {o p g h}, g ∈ (run turns).handlesOf o → h ∈ (run turns).handlesOf p → g.instanceId = h.instanceId → o = p
  /-- The handles that an owner tracks are those that it was given and that no turn has taken away. -/
  exact : ∀ o, ((run turns).handlesOf o).map Handle.origin = (Turn.kept run o [] turns).map Handle.origin
  fits : ∀ {o h}, h ∈ (run turns).handlesOf o → (run turns).rig.isValid h.instanceId = true →
    Engine.eventOf (run turns).rig.engine h.instanceId = some h.event ∧
    ∃ x, (run turns).rig.instance? h.instanceId = some x ∧ (status x).started = true ∧
      (status x).receiver.isSome = true ∧ (status x).released = h.released

theorem Tabled.of_drifts {E L X S V : Type} [Loader L] [LawfulLoader L] [Engine E L] [Staged E X S] [Playable X S]
    [LawfulEngine E L X S] {happen : V → Rig E L → Rig E L} {s : System E L}
    (hd : ∀ v (r : Rig E L), Ledger r.toBackstage [] → Drift r (happen v r)) (hs : Orderly s.view)
    (hempty : ∀ o, s.view.origins o = []) (turns : List (Turn V)) :
    Tabled (fun turns => Turn.run happen turns s) turns := by
  have ho : ∀ turns, Orderly (Turn.run happen turns s).view := hs.run hd
  have later : ∀ before after, Succeeds (Turn.run happen before s).rig (Turn.run happen (before ++ after) s).rig := by
    intro before after
    rw [Turn.run_append]
    exact .run hd (ho before) after
  refine ⟨?_, issued_perform (ho turns), ?_, ?_, (ho turns).ascending, (ho turns).apart, fun o => ?_,
    fun {o h} hh hv => ?_⟩
  · rintro before between after i rfl hv hn
    have hissued : i.val ≤ (Turn.run happen before s).rig.issued := (ho before).issued (Rig.present hv)
    rw [Rig.isValid_eq_false] at hn ⊢
    exact (later (before ++ between) after).gone i (Nat.le_trans hissued (later before between).issued) hn
  · rintro before after q g rfl hg
    have hid := (issued_answer (ho _) hg).1
    have hle := (later before after).issued
    refine Bool.eq_false_iff.mpr fun hv => ?_
    have hold : g.instanceId.val ≤ (Turn.run happen before s).rig.issued := (ho before).issued (Rig.present hv)
    omega
  · rintro before after q p g h rfl hg hh
    obtain ⟨hid, hissued⟩ := issued_answer (ho before) hh
    have hstep : Turn.run happen (before ++ [.request p]) s = (p.perform (Turn.run happen before s)).2 :=
      Turn.run_append ..
    have hle := (later (before ++ [.request p]) after).issued
    rw [List.append_assoc, List.singleton_append, hstep] at hle
    have hid' := (issued_answer (ho _) hg).1
    omega
  · have horigins := Turn.origins_run (fun turns => Turn.run happen turns s)
      (fun before t => Turn.run_append happen before [t] s) ho o [] turns
    rw [show (Turn.run happen [] s).view.origins o = [] from hempty o] at horigins
    exact horigins
  · obtain ⟨x, hx⟩ := Option.ne_none_iff_exists'.mp (Rig.present hv)
    have hfit := (ho turns).fits hh hx
    refine ⟨?_, x, hx, hfit.started, hfit.heard, hfit.released⟩
    rw [LawfulEngine.eventOf_eq, show (instances _).get? h.instanceId = some x from hx]
    exact congrArg some hfit.event

/-- The handle tables are exact in every run of a system, whichever of the two engines it has. -/
theorem handle_tables_exact :
    (∀ events config files disk turns, Tabled (scriptedRun events config files disk) turns) ∧
    ∀ own device config disk turns, Tabled (mixingRun own device config disk) turns := by
  constructor
  · intro events config files disk turns
    refine .of_drifts ScriptedEvent.drift (scriptedRun_orderly events config files disk []) (fun o => ?_) turns
    cases o <;> rfl
  · intro own device config disk turns
    refine .of_drifts MixingEvent.drift (mixingRun_orderly own device config disk []) (fun o => ?_) turns
    cases o <;> rfl

end Soundstage
