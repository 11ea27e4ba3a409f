import Soundstage.Proofs.System.Booking
import Soundstage.Proofs.System.Conduct
import Soundstage.Proofs.System.Teardown

/-!
# Ownership is given up once

The orders of a run account for the run: no instance is given up twice, and what was given up is what the engine
has as released. What comes of stopping by handle is told by the emitter alone, as the caller's handle only says
which instance is meant (`StopsHandle`). Both are shown for any engine whose events are drifts, and hold of the two
that there are (`ownership_given_up_once`).
-/

namespace Soundstage

open Playable Staged

/-! ### Runs -/

/-- What befalls a rig befalls it with a record just so, and makes no orders. -/
def Recorded.around {E L V : Type} (happen : V → Rig E L → Rig E L) (v : V) (r : Rig (Recorded E) L) :
    Rig (Recorded E) L :=
  (within r fun inside => ((), happen v inside)).2

namespace Turn

variable {E L X S V : Type} [Loader L] [LawfulLoader L] [Engine E L] [Staged E X S] [Playable X S]
  [LawfulEngine E L X S] {s : System E L} {happen : V → Rig E L → Rig E L}

theorem take_booked (hd : ∀ v (r : Rig E L), Ledger r.toBackstage [] → Drift r (happen v r)) (h : Orderly s.view)
    (t : Turn V) (es : List Entry) : Booked es s.rig (t.take happen s).rig (t.take happen s).recorded
      (t.take (Recorded.around happen) (s.recorded es)) := by
  cases t with
  | request q => exact (q.booked h es).map Prod.snd
  | event v => exact .silent (.of_drift (hd v s.rig h.ledger)) rfl

theorem run_booked (hd : ∀ v (r : Rig E L), Ledger r.toBackstage [] → Drift r (happen v r)) (h : Orderly s.view)
    (turns : List (Turn V)) (es : List Entry) : Booked es s.rig (run happen turns s).rig (run happen turns s).recorded
      (run (Recorded.around happen) turns (s.recorded es)) := by
  induction turns generalizing s es with
  | nil => exact .silent (.refl _) rfl
  | cons t rest ih =>
    obtain ⟨more, ha, he⟩ := take_booked hd h t es
    unfold run at ih ⊢
    rw [List.foldl_cons, List.foldl_cons, he]
    exact .after h.issued ha (ih (h.take hd t) (es ++ more))

end Turn

/-! ### Stopping by handle -/

/-- The orders that a system has taken down. -/
def System.orders {E L : Type} (t : System (Recorded E) L) : List Entry := t.rig.engine.entries

/-- One instance of an entity was stopped, and given up unless it had been. -/
structure Retired {E L X S : Type} [Staged E X S] [Playable X S] (entity : EntityId) (i : InstanceId) (mode : StopMode)
    (t t' : System (Recorded E) L) : Prop where
  orders : t'.orders = t.orders ++ (stops mode [i] ++ if i ∈ givenUp t.orders then [] else releases [i])
  done : ∃ x, t'.rig.plain.instance? i = some x ∧ (status x).stopped = true ∧ (status x).released = true
  instances : ∀ j, j ≠ i → t'.rig.plain.instance? j = t.rig.plain.instance? j
  backstage : t'.rig.toBackstage = t.rig.toBackstage
  emitter : t'.emitter? entity =
    (t.emitter? entity).map fun em => { em with handles := em.handles.map (Handle.mark [i]) }
  others : ∀ o, o ≠ .entity entity → t'.emitterOf o = t.emitterOf o

/-- What comes of stopping by handle. -/
structure StopsHandle {E L X S : Type} [Loader L] [Engine E L] [Staged E X S] [Playable X S] (entity : EntityId)
    (handle : Handle) (mode : StopMode) (t : System (Recorded E) L) : Prop where
  answer : (t.stopHandle entity handle mode).1 = true ↔
    t.Tracks (.entity entity) handle.instanceId ∧ t.rig.isValid handle.instanceId = true
  retired : (t.stopHandle entity handle mode).1 = true →
    Retired entity handle.instanceId mode t (t.stopHandle entity handle mode).2
  otherwise : (t.stopHandle entity handle mode).1 = false → (t.stopHandle entity handle mode).2 = t

/-- The instance was rewritten by `f`, and nothing else in the engine. -/
theorem Retired.of_wrote {E L X S : Type} [Staged E X S] [Playable X S] {s : System E L} {entity : EntityId}
    {em : Emitter} {i : InstanceId} {mode : StopMode} {x : X} {f : X → X} {r : Rig E L} {es more : List Entry}
    (he : s.emitter? entity = some em)
    (hmore : more = stops mode [i] ++ if i ∈ givenUp es then [] else releases [i]) (hx : s.rig.instance? i = some x)
    (hw : Wrote (onEach [i] f) s.rig r) (hf : (status (f x)).stopped = true ∧ (status (f x)).released = true)
    (hback : r.toBackstage = s.rig.toBackstage) : Retired entity i mode (s.recorded es)
      ({ s with rig := r }.withEmitter { em with handles := em.handles.map (Handle.mark [i]) } entity |>.recorded
        (es ++ more)) := by
  refine ⟨congrArg (es ++ ·) hmore, ⟨f x, hw.own hx, hf⟩, fun j hj => hw.others (by simpa using hj), hback, ?_,
    fun o ho => ?_⟩
  · rw [System.emitter?_recorded, System.emitter?_recorded, he]
    exact Table.get?_insert_self ..
  · have hother := System.emitterOf_withEmitter { s with rig := r }
      { em with handles := em.handles.map (Handle.mark [i]) } entity o
    rw [if_neg ho] at hother
    cases o <;> exact hother

theorem StopsHandle.of_nothing {E L X S : Type} [Loader L] [Engine E L] [Staged E X S] [Playable X S]
    {t : System (Recorded E) L} {entity : EntityId} {handle : Handle} {mode : StopMode}
    (hno : t.Tracks (.entity entity) handle.instanceId → t.rig.isValid handle.instanceId = false)
    (h : t.stopHandle entity handle mode = (false, t)) : StopsHandle entity handle mode t := by
  refine ⟨⟨fun ht => ?_, fun ⟨ht, hv⟩ => ?_⟩, fun ht => ?_, fun _ => by rw [h]⟩
  · rw [h] at ht
    cases ht
  · rw [hno ht] at hv
    cases hv
  · rw [h] at ht
    cases ht

theorem StopsHandle.of_retired {E L X S : Type} [Loader L] [Engine E L] [Staged E X S] [Playable X S]
    {t t' : System (Recorded E) L} {entity : EntityId} {handle : Handle} {mode : StopMode}
    (hyes : t.Tracks (.entity entity) handle.instanceId ∧ t.rig.isValid handle.instanceId = true)
    (h : t.stopHandle entity handle mode = (true, t')) (hr : Retired entity handle.instanceId mode t t') :
    StopsHandle entity handle mode t := by
  refine ⟨⟨fun _ => hyes, fun _ => by rw [h]⟩, fun _ => by rw [h]; exact hr, fun ht => ?_⟩
  rw [h] at ht
  cases ht

/-- Handles that say already that these instances were given up are left alone. -/
theorem Handle.map_mark_of_released {ids : List InstanceId} {hs : List Handle}
    (h : ∀ g ∈ hs, g.instanceId ∈ ids → g.released = true) : hs.map (mark ids) = hs := by
  refine (List.map_congr_left fun g hg => ?_).trans (List.map_id hs)
  unfold mark
  split
  · rw [← h g hg ‹_›]
    rfl
  · rfl

section

variable {E L X S : Type} [Loader L] [LawfulLoader L] [Engine E L] [Staged E X S] [Playable X S]
  [LawfulEngine E L X S]

namespace Emitter

variable {i : InstanceId} {r : Rig E L}

include X S

/-- Nothing is logged when an emitter stops by handle. -/
theorem stopHandle_backstage (em : Emitter) (handle : Handle) (mode : StopMode) (r : Rig E L) :
    (em.stopHandle handle mode r).2.2.toBackstage = r.toBackstage := by
  unfold stopHandle
  cases em.handle? handle.instanceId with
  | none => rfl
  | some owned =>
    dsimp only
    split
    · rfl
    · rename_i hv
      replace hv : r.isValid owned.instanceId = true := by simpa using hv
      have hstop := stopInstance_backstage mode (Rig.present hv)
      have hw := stopInstance_wrote owned.instanceId mode r
      generalize stopInstance owned.instanceId mode r = c at hstop hw ⊢
      obtain ⟨_ | _, r'⟩ := c
      · exact hstop
      · have hgive := releaseHandle_backstage (Rig.present ((hw.isValid _).trans hv))
        dsimp only at hstop hgive ⊢
        split
        · exact hstop
        · generalize releaseHandle owned.instanceId r' = c at hgive ⊢
          obtain ⟨_ | _, r''⟩ := c <;> exact hgive.trans hstop

end Emitter

namespace System

variable {s : System E L} {entity : EntityId} {em : Emitter} {mode : StopMode}

theorem withEmitter_self {E L : Type} {s : System E L} (he : s.emitter? entity = some em) :
    s.withEmitter em entity = s := by
  unfold withEmitter
  rw [Table.insert_eq_self he]

include X S in
theorem stopHandle_recorded {handle : Handle} {c : Bool × Emitter × Rig E L} (he : s.emitter? entity = some em)
    (hc : em.stopHandle handle mode s.rig = c) (es : List Entry) :
    (s.recorded es).stopHandle entity handle mode = (c.1,
      { s with rig := c.2.2 }.withEmitter c.2.1 entity |>.recorded (es ++ em.handleOrders handle mode s.rig)) := by
  unfold stopHandle
  rw [emitter?_recorded, he]
  dsimp only
  rw [rig_recorded, Emitter.stopHandle_recorded, hc]
  rfl

theorem stopsHandle (h : Orderly s.view) {es : List Entry}
    (hes : ∀ {i x}, s.rig.instance? i = some x → ((status x).released = true ↔ i ∈ givenUp es)) (entity : EntityId)
    (handle : Handle) (mode : StopMode) : StopsHandle entity handle mode (s.recorded es) := by
  cases he : s.emitter? entity with
  | none =>
    refine .of_nothing (fun ⟨em, hem, _⟩ => ?_) ?_
    · cases he.symm.trans hem
    · unfold stopHandle
      rw [emitter?_recorded, he]
  | some em =>
    have hv := reads_emitter he
    have hnd := hv.ids ▸ h.nodup (.entity entity)
    have hback := em.stopHandle_backstage handle mode s.rig
    have hst := Emitter.stopHandle_stopped hnd handle mode s.rig
    generalize hc : em.stopHandle handle mode s.rig = c at hback hst
    have hstop := stopHandle_recorded he hc es
    -- an instance that is there and tracked is stopped, and given up just if that was not done before
    have live : ∀ {g x}, g ∈ em.handles → g.instanceId = handle.instanceId →
        s.rig.instance? handle.instanceId = some x → (status x).released = g.released ∧
          ((s.recorded es).Tracks (.entity entity) handle.instanceId ∧ s.rig.isValid handle.instanceId = true) ∧
            em.handleOrders handle mode s.rig = stops mode [handle.instanceId] ++
              if handle.instanceId ∈ givenUp es then [] else releases [handle.instanceId] := by
      intro g x hg hi hx
      have hrel := (h.fits (hv.handles ▸ hg) (hi ▸ hx)).released
      rw [Emitter.handleOrders_of_mem hnd hg hi mode (by rw [hx]; simp), Rig.isValid_eq, hx]
      refine ⟨hrel, ⟨⟨em, he, g, hg, hi⟩, rfl⟩, ?_⟩
      simp only [← hrel, hes hx]
    cases hst with
    | nothing hn =>
      refine .of_nothing (fun ⟨em', hem, g, hg, hi⟩ => ?_) (hstop.trans ?_)
      · cases he.symm.trans hem
        exact (show s.rig.isValid _ = false from Rig.isValid_eq_false.mpr (hn g hg hi))
      · rw [Emitter.handleOrders_of_absent mode hn, List.append_nil]
        exact congrArg (fun s => (false, recorded s es)) (withEmitter_self he)
    | stopped hg hi hrel hlive hw =>
      obtain ⟨x, hx⟩ := Option.ne_none_iff_exists'.mp hlive
      obtain ⟨hst, hyes, horders⟩ := live hg hi hx
      have hmark : em.handles.map (Handle.mark [handle.instanceId]) = em.handles :=
        Handle.map_mark_of_released fun k hk hmem =>
          (live hk (List.mem_singleton.mp hmem) hx).1.symm.trans (hst.trans hrel)
      have hretired := Retired.of_wrote he horders hx hw (by simp [hst, hrel]) hback
      rw [hmark] at hretired
      exact .of_retired hyes hstop hretired
    | released hg hi hrel hlive hw hw' =>
      obtain ⟨x, hx⟩ := Option.ne_none_iff_exists'.mp hlive
      obtain ⟨hst, hyes, horders⟩ := live hg hi hx
      have hboth : Wrote (onEach [handle.instanceId] fun x => Playable.release (Playable.stop s.rig.setting mode x))
          s.rig _ := (hw.trans hw').congr fun {j x} _ => by
        unfold onEach
        split <;> rfl
      exact .of_retired hyes hstop (.of_wrote he horders hx hboth (by simp) hback)

end System

end

/-! ### All at once -/

/-- What holds when a run that came to `s` comes to `t` with a record. -/
structure Relinquishes {E L X S : Type} [Loader L] [Engine E L] [Staged E X S] [Playable X S] (s : System E L)
    (t : System (Recorded E) L) : Prop where
  /-- To keep a record makes no difference. -/
  same : t = s.recorded t.orders
  granted : ∀ e ∈ t.orders, e.2 = true
  once : (givenUp t.orders).Nodup
  /-- What was given up is what the engine has as released. -/
  released : ∀ {i x}, s.rig.instance? i = some x → ((status x).released = true ↔ i ∈ givenUp t.orders)
  /-- What no emitter tracks any more was given up. -/
  left : ∀ {i}, s.rig.isValid i = true → (∀ o, ¬s.Tracks o i) → i ∈ givenUp t.orders
  stopHandle : ∀ entity handle mode, StopsHandle entity handle mode t

/-- A run of the system `s` that takes the orders down. -/
def recordedRun {E L V : Type} [Loader L] [Engine E L] (happen : V → Rig E L → Rig E L) (s : System E L)
    (turns : List (Turn V)) : System (Recorded E) L :=
  Turn.run (Recorded.around happen) turns (s.recorded [])

theorem Relinquishes.of_drifts {E L X S V : Type} [Loader L] [LawfulLoader L] [Engine E L] [Staged E X S]
    [Playable X S] [LawfulEngine E L X S] {happen : V → Rig E L → Rig E L} {s : System E L}
    (hd : ∀ v (r : Rig E L), Ledger r.toBackstage [] → Drift r (happen v r)) (hs : Orderly s.view)
    (hempty : ∀ i, s.rig.instance? i = none) (turns : List (Turn V)) :
    Relinquishes (Turn.run happen turns s) (recordedRun happen s turns) := by
  have ho := hs.run hd turns
  obtain ⟨es, ha, he⟩ := Turn.run_booked hd hs turns []
  rw [List.nil_append] at he
  have hreleased : ∀ {i x}, (Turn.run happen turns s).rig.instance? i = some x →
      ((status x).released = true ↔ i ∈ givenUp es) := fun hx => by
    simp [ha.fate hx, hempty]
  have horders : (recordedRun happen s turns).orders = es := congrArg System.orders he
  refine ⟨?_, ?_, ?_, ?_, fun {i} hv hout => ?_, ?_⟩ <;> try rw [horders]
  · exact he
  · exact ha.granted
  · exact ha.once
  · exact hreleased
  · obtain ⟨x, hx⟩ := Option.ne_none_iff_exists'.mp (Rig.present hv)
    rcases ho.owned hx with ⟨o, hi⟩ | ⟨hrel, -⟩
    · exact absurd (System.tracks_iff.mpr hi) (hout o)
    · exact (hreleased hx).mp hrel
  · unfold recordedRun
    rw [he]
    exact System.stopsHandle ho hreleased

/-- Ownership is given up exactly once. In every run of a system, whichever of the two engines it has, every order is
carried out, no instance is given up twice, and what is there and no emitter's was given up. Whatever handle is passed
to it, stopping by handle succeeds just if the emitter of the entity tracks the instance and that is there; then the
instance is stopped and given up, unless it had been, and nothing else happens. Otherwise nothing happens. -/
theorem ownership_given_up_once :
    (∀ events config files disk turns, Relinquishes (scriptedRun events config files disk turns)
      (recordedRun ScriptedEvent.happen (.ofEngine (.ofEvents events) config (.ofFiles files) disk) turns)) ∧
    ∀ own device config disk turns, Relinquishes (mixingRun own device config disk turns)
      (recordedRun MixingEvent.happen (.ofEngine (.ofConfig own device) config {} disk) turns) :=
  ⟨fun events config files disk =>
      .of_drifts ScriptedEvent.drift (scriptedRun_orderly events config files disk []) fun _ => rfl,
    fun own device config disk =>
      .of_drifts MixingEvent.drift (mixingRun_orderly own device config disk []) fun _ => rfl⟩

/-- The caller's clone never hears that its instance was given up. -/
example :
    let clone : Handle := ⟨⟨1⟩, "Step", false, false⟩
    let turns := [.request (.post ⟨0⟩ "Step" true), .request (.stopHandle ⟨0⟩ clone .allowFadeOut),
      .request (.stopHandle ⟨0⟩ clone .immediate), .request (.destroyEntity ⟨0⟩)]
    (recordedRun ScriptedEvent.happen (.ofEngine (.ofEvents ["Step"]) {} (.ofFiles []) .empty) turns).orders =
      [(.stop ⟨1⟩ .allowFadeOut, true), (.release ⟨1⟩, true), (.stop ⟨1⟩ .immediate, true),
        (.stop ⟨1⟩ .immediate, true)] := by
  decide +kernel

end Soundstage
