import Soundstage.Proofs.System.Ownership

/-!
# Stopping by name

Which instance a stop by name is meant for is asked of the engine, handle by handle; but what the engine says of an
instance its handle says too, and handles stand in the order of their instances. So the stop goes to the oldest of the
instances that are there and were posted with just that name, and to none but it (`stop_takes_oldest`).
-/

namespace Soundstage

open Playable Staged

section

variable {E L : Type} [Loader L] [Engine E L]

/-- The instance of `h` is there, and was posted with the name `event`. -/
def Rig.Plays (r : Rig E L) (event : String) (h : Handle) : Prop := r.isValid h.instanceId = true ∧ h.event = event

/-- An entity plays `event` on the instance of `h`. -/
def System.Plays (s : System E L) (entity : EntityId) (event : String) (h : Handle) : Prop :=
  ∃ em, s.emitter? entity = some em ∧ h ∈ em.handles ∧ s.rig.Plays event h

/-- The engine was told once to stop one instance, and nothing else has happened. -/
structure StoppedOne {X S : Type} [Staged E X S] [Playable X S] (i : InstanceId) (mode : StopMode)
    (t t' : System (Recorded E) L) : Prop where
  call : ∃ e, Engine.stop (L := L) i mode t.rig.engine.inner = .ok e ∧
    t' = { t with rig := { t.rig with engine := ⟨e, t.orders ++ [(.stop i mode, true)]⟩ } }
  target : t'.rig.plain.instance? i = (t.rig.plain.instance? i).map (Playable.stop t.rig.plain.setting mode)
  others : ∀ j, j ≠ i → t'.rig.plain.instance? j = t.rig.plain.instance? j

/-- What comes of stopping by name. -/
structure StopsByName {X S : Type} [Staged E X S] [Playable X S] (entity : EntityId) (event : String) (mode : StopMode)
    (t : System (Recorded E) L) : Prop where
  answer : (t.stop entity event mode).1 = true ↔ ∃ h, t.Plays entity event h
  oldest : (t.stop entity event mode).1 = true → ∃ h, t.Plays entity event h ∧
    (∀ g, t.Plays entity event g → g ≠ h → h.instanceId.val < g.instanceId.val) ∧
      StoppedOne h.instanceId mode t (t.stop entity event mode).2
  /-- At most a line in the journal says that there was nothing to stop. -/
  otherwise : (t.stop entity event mode).1 = false → (t.stop entity event mode).2 = t ∨
    ∃ text, (t.stop entity event mode).2 = t.say .debug text

end

section

variable {E L X S : Type} [Loader L] [LawfulLoader L] [Engine E L] [Staged E X S] [Playable X S]
  [LawfulEngine E L X S]

/-- What the engine says of the instance of a handle, the handle says. -/
theorem Orderly.plays_iff {v : View E L} (h : Orderly v) {o : Owner} {g : Handle} (hg : g ∈ v.handles o)
    (event : String) : v.rig.Plays event g ↔
      (v.rig.isValid g.instanceId && Engine.eventOf v.rig.engine g.instanceId == some event) = true := by
  rw [Rig.Plays, Bool.and_eq_true, beq_iff_eq, LawfulEngine.eventOf_eq]
  refine and_congr_right fun hv => ?_
  obtain ⟨x, hx⟩ := Option.ne_none_iff_exists'.mp (Rig.present hv)
  rw [show (instances v.rig.engine).get? g.instanceId = some x from hx, Option.map_some, Option.some_inj,
    (h.fits hg hx).event]

/-- The handle that a stop by name finds is the first of those that play the event. -/
theorem Emitter.oldest?_least {v : View E L} (h : Orderly v) {o : Owner} {em : Emitter} (hv : v.Reads o em)
    {event : String} {g : Handle} (hg : em.oldest? event v.rig = some g) :
    g ∈ em.handles ∧ v.rig.Plays event g ∧
      ∀ k ∈ em.handles, v.rig.Plays event k → k ≠ g → g.instanceId.val < k.instanceId.val := by
  have hasc := h.ascending o
  obtain ⟨hfits, before, after, hsplit, hnone⟩ := List.find?_eq_some_iff_append.mp hg
  rw [← hv.handles, hsplit] at hasc
  have hlater := (List.pairwise_cons.mp (List.pairwise_append.mp hasc).2.1).1
  have hmem : g ∈ em.handles := List.mem_of_find?_eq_some hg
  refine ⟨hmem, (h.plays_iff (hv.handles ▸ hmem) event).mpr hfits, fun k hk hplays hne => ?_⟩
  replace hplays := (h.plays_iff (hv.handles ▸ hk) event).mp hplays
  rw [hsplit] at hk
  rcases List.mem_append.mp hk with hbefore | hk
  · have hout := hnone k hbefore
    simp [hplays] at hout
  · exact hlater k ((List.mem_cons.mp hk).resolve_left hne)

namespace System

variable {s : System E L} {entity : EntityId} {mode : StopMode}

theorem stoppedOne {i : InstanceId} (hv : s.rig.isValid i = true) (mode : StopMode) (es : List Entry) :
    StoppedOne i mode (s.recorded es)
      { s.recorded es with rig := (Emitter.stopInstance i mode (s.rig.recorded es)).2 } := by
  obtain ⟨e, he⟩ := LawfulEngine.stop_isOk (L := L) mode (Rig.present hv)
  have hw := Emitter.stopInstance_wrote i mode s.rig
  have hcall : (Emitter.stopInstance i mode s.rig).2 = { s.rig with engine := e } := by
    simp only [Emitter.stopInstance, Rig.act, he]
  rw [Emitter.stopInstance_recorded es mode (Rig.present hv), hcall]
  rw [hcall] at hw
  refine ⟨⟨e, he, rfl⟩, (hw.instances i).trans ?_, fun j hj => hw.others (by simpa using hj)⟩
  exact Option.map_congr fun x _ => onEach_of_mem (List.mem_singleton_self i) x

theorem stopsByName (h : Orderly s.view) (es : List Entry) (entity : EntityId) (event : String) (mode : StopMode) :
    StopsByName entity event mode (s.recorded es) := by
  cases he : s.emitter? entity with
  | none =>
    have hstop : (s.recorded es).stop entity event mode = (false, s.recorded es) := by
      unfold System.stop
      rw [emitter?_recorded, he]
    refine ⟨⟨fun ha => ?_, fun ⟨_, em, hem, _⟩ => ?_⟩, fun ha => ?_, fun _ => .inl (by rw [hstop])⟩
    · rw [hstop] at ha; cases ha
    · cases he.symm.trans hem
    · rw [hstop] at ha; cases ha
  | some em =>
    have hv := reads_emitter he
    have hstop : (s.recorded es).stop entity event mode = ((em.stop event mode (s.rig.recorded es)).1,
        { s.recorded es with rig := (em.stop event mode (s.rig.recorded es)).2 }) := by
      unfold System.stop
      rw [emitter?_recorded, he]
      rfl
    dsimp only [Emitter.stop] at hstop
    rw [show em.oldest? event (s.rig.recorded es) = em.oldest? event s.rig from rfl] at hstop
    cases ho : em.oldest? event s.rig with
    | none =>
      rw [ho] at hstop
      dsimp only at hstop
      refine ⟨⟨fun ha => ?_, fun ⟨g, em', hem, hg, hplays⟩ => ?_⟩, fun ha => ?_,
        fun _ => .inr ⟨_, congrArg Prod.snd hstop⟩⟩
      · rw [hstop] at ha; cases ha
      · cases he.symm.trans hem
        exact absurd ((h.plays_iff (hv.handles ▸ hg) event).mp hplays) (List.find?_eq_none.mp ho g hg)
      · rw [hstop] at ha; cases ha
    | some g =>
      -- the first one found is the oldest, as handles are kept in the order of their instances
      rw [ho] at hstop
      dsimp only at hstop
      obtain ⟨hg, hplays, hleast⟩ := Emitter.oldest?_least h hv ho
      have hall : (s.recorded es).Plays entity event g := ⟨em, he, hg, hplays⟩
      refine ⟨⟨fun _ => ⟨g, hall⟩, fun _ => by rw [hstop]⟩, fun _ => ⟨g, hall, ?_, ?_⟩, fun ha => ?_⟩
      · rintro k ⟨em', hem, hk, hkplays⟩ hne
        cases he.symm.trans hem
        exact hleast k hk hkplays hne
      · rw [hstop]
        exact stoppedOne hplays.1 mode es
      · rw [hstop] at ha; cases ha

/-- After every run that takes the orders down, which makes no other difference, stops by name go to the oldest. -/
theorem stopsByName_of_drifts {V : Type} {happen : V → Rig E L → Rig E L}
    (hd : ∀ v (r : Rig E L), Ledger r.toBackstage [] → Drift r (happen v r)) (hs : Orderly s.view)
    (turns : List (Turn V)) (entity : EntityId) (event : String) (mode : StopMode) :
    let t := recordedRun happen s turns
    t = (Turn.run happen turns s).recorded t.orders ∧ StopsByName entity event mode t := by
  intro t
  obtain ⟨es, -, he⟩ := Turn.run_booked hd hs turns []
  rw [List.nil_append] at he
  have horders : t.orders = es := congrArg System.orders he
  rw [horders]
  refine ⟨he, ?_⟩
  rw [show t = _ from he]
  exact stopsByName (hs.run hd turns) es entity event mode

end System

end

/-- A stop by name takes the oldest. In every state that a run can reach, whichever of the two engines it has, it
succeeds just if the entity tracks an instance that is there and was posted with that name. Then the one of those that
was posted first is told to stop, by one call of the engine, and nothing else happens. Otherwise nothing happens. -/
theorem stop_takes_oldest (entity : EntityId) (event : String) (mode : StopMode) :
    (∀ events config files disk turns,
      let t := recordedRun ScriptedEvent.happen (.ofEngine (.ofEvents events) config (.ofFiles files) disk) turns
      t = (scriptedRun events config files disk turns).recorded t.orders ∧ StopsByName entity event mode t) ∧
    ∀ own device config disk turns,
      let t := recordedRun MixingEvent.happen (.ofEngine (.ofConfig own device) config {} disk) turns
      t = (mixingRun own device config disk turns).recorded t.orders ∧ StopsByName entity event mode t :=
  ⟨fun events config files disk turns => System.stopsByName_of_drifts ScriptedEvent.drift
      (scriptedRun_orderly events config files disk []) turns entity event mode,
    fun own device config disk turns => System.stopsByName_of_drifts MixingEvent.drift
      (mixingRun_orderly own device config disk []) turns entity event mode⟩

/-- What is gone is passed over, and a name that is only the start of another is another. -/
example :
    let turns := [.request (.post ⟨1⟩ "Step" false), .request (.post ⟨1⟩ "Step" false), .event (.destroy ⟨1⟩)]
    let t := recordedRun ScriptedEvent.happen (.ofEngine (.ofEvents ["Step"]) {} (.ofFiles []) .empty) turns
    ((t.stop ⟨1⟩ "Step" .immediate).2.orders, (t.stop ⟨1⟩ "Ste" .immediate).1) =
      ([(.release ⟨1⟩, true), (.release ⟨2⟩, true), (.stop ⟨2⟩ .immediate, true)], false) := by
  decide +kernel

end Soundstage
