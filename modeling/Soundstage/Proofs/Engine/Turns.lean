import Soundstage.Proofs.Engine.Calls
import Soundstage.Proofs.Engine.MixingEvents
import Soundstage.Proofs.Engine.Removal

/-!
# Turns of a mixing engine

A mixing engine by itself: calls come to it in any order, and all that befalls it goes on between them. What a turn
makes of one instance that it does not start is a function of that instance (`EngineTurn.effect`); apart from those it
only adds new instances (`EngineTurn.turned`). All that holds of an instance over a run is read off that function and
the start.
-/

namespace Soundstage

open Playable MixingEngine

/-- What comes to a mixing engine: calls, and all that goes on around it. -/
inductive EngineTurn
  | call (c : EngineCall)
  | event (v : MixingEvent)
  /-- The disk, the loader and the bridge are used by others. -/
  | backstage (b : Backstage StreamingLoader)
  /-- Another listener is added. -/
  | listener

namespace EngineTurn

def take (v : EngineTurn) (r : Rig MixingEngine StreamingLoader) : Rig MixingEngine StreamingLoader :=
  match v with
  | call c => c.make r
  | event v => v.happen r
  | backstage b => r.withBackstage b
  | listener => (r.act MixingEngine.createListener).2

/-- Take turns, oldest first. -/
def run (turns : List EngineTurn) (r : Rig MixingEngine StreamingLoader) : Rig MixingEngine StreamingLoader :=
  turns.foldl (fun r v => v.take r) r

theorem run_concat (turns : List EngineTurn) (v : EngineTurn) (r : Rig MixingEngine StreamingLoader) :
    run (turns ++ [v]) r = v.take (run turns r) :=
  List.foldl_append

/-- What a turn makes of `i`, if it does not start it. -/
def effect (c : Config) (i : InstanceId) : EngineTurn → MixingInstance → MixingInstance
  | call (.stop j mode), x => onEach [j] (Playable.stop c mode) i x
  | call (.release j), x => onEach [j] Playable.release i x
  | call (.setReceiver j receiver), x => onEach [j] (receive receiver) i x
  | call (.setFloat j name value), x => onEach [j] (Playable.setFloat name value) i x
  | call (.setLabel j name label), x => onEach [j] (Playable.setLabel name label) i x
  | event (.render n), x => MixingInstance.pass^[n] x
  | event (.ended j), x => onEach [j] MixingInstance.fallSilent i x
  | _, x => x

/-- What a turn leaves of the instances that it does not start, and new ones. -/
structure Turned (v : EngineTurn) (r r' : Rig MixingEngine StreamingLoader) : Prop where
  issued : r.issued ≤ r'.issued
  source : ∀ {i y}, r'.instance? i = some y → v ≠ .call (.start i) →
    (∃ x, r.instance? i = some x ∧ y = v.effect r.engine.config i x) ∨
      r.issued < i.val ∧ i.val ≤ r'.issued ∧ ∃ event definition, y = { event, definition }

namespace Turned

variable {v : EngineTurn} {r r' : Rig MixingEngine StreamingLoader}

theorem of_map (hissued : r'.issued = r.issued)
    (hinst : ∀ j, r'.instance? j = (r.instance? j).map (v.effect r.engine.config j)) : Turned v r r' := by
  refine ⟨Nat.le_of_eq hissued.symm, fun {i y} hy _ => .inl ?_⟩
  rw [hinst, Option.map_eq_some_iff] at hy
  obtain ⟨x, hx, rfl⟩ := hy
  exact ⟨x, hx, rfl⟩

theorem of_same (hissued : r'.issued = r.issued) (hinst : r'.engine.instances = r.engine.instances)
    (hv : ∀ j x, v.effect r.engine.config j x = x) : Turned v r r' := by
  refine .of_map hissued fun j => ?_
  rw [show v.effect r.engine.config j = id from funext (hv j), Option.map_id]
  exact congrArg (·.get? j) hinst

theorem of_change {op : MixingEngine → Except AudioError MixingEngine} {i : InstanceId}
    {g : MixingInstance → MixingInstance} (hop : Rewrites op i g r.engine)
    (hv : ∀ j, v.effect r.engine.config j = onEach [i] g j) : Turned v r (r.act op).2 := by
  have hw := Wrote.act r hop
  refine .of_map hw.issued fun j => ?_
  rw [hv]
  exact hw.instances j

theorem of_created {event : String} : Turned (.call (.create event)) r (r.create event).2 := by
  have hmade : ∀ {result e}, Engine.create (L := StreamingLoader) event r.engine = (result, e) →
      Turned (.call (.create event)) r { r with engine := e } := by
    intro result e he
    cases result with
    | error err =>
      obtain ⟨hissued, -, hinst⟩ := create_error he
      exact .of_same hissued hinst fun _ _ => rfl
    | ok j =>
      obtain ⟨definition, -, rfl, hissued, -, hinst⟩ := create_ok he
      refine ⟨Nat.le_of_lt (Nat.lt_of_succ_le (Nat.le_of_eq hissued.symm)), fun {i y} hy _ => ?_⟩
      change e.instances.get? i = some y at hy
      rw [hinst, Table.get?_insert] at hy
      split at hy
      · cases hy
        rw [‹i = _›]
        exact .inr ⟨Nat.lt_succ_self _, Nat.le_of_eq hissued.symm, event, definition, rfl⟩
      · exact .inl ⟨y, hy, rfl⟩
  exact hmade rfl

end Turned

theorem turned_call (c : EngineCall) (r : Rig MixingEngine StreamingLoader) : Turned (.call c) r (c.make r) := by
  cases c with
  | create event => exact .of_created
  | start j =>
    have hs := start_sounding j r
    refine ⟨Nat.le_of_eq hs.issued.symm, fun {i y} hy hne => .inl ⟨y, ?_, rfl⟩⟩
    exact (hs.others i fun e => hne (e ▸ rfl)).symm.trans hy
  | stop i mode => exact .of_change (LawfulEngine.stop r.engine i mode) fun _ => rfl
  | release i => exact .of_change (LawfulEngine.release r.engine i) fun _ => rfl
  | setReceiver i receiver => exact .of_change (LawfulEngine.setReceiver r.engine i receiver) fun _ => rfl
  | setAttributes i attributes =>
    refine .of_change (LawfulEngine.setAttributes r.engine i attributes) fun j => ?_
    exact funext fun x => (onEach_id [i] j x).symm
  | setFloat i name value => exact .of_change (LawfulEngine.setFloat r.engine i name value) fun _ => rfl
  | setLabel i name label => exact .of_change (LawfulEngine.setLabel r.engine i name label) fun _ => rfl
  | setListener attributes =>
    have hw := r.setListener_wrote attributes
    exact .of_map hw.issued hw.instances
  | update =>
    have hengine : (EngineCall.update.make r).engine = r.engine.removeAll r.engine.done := destroyAll_engine r _
    have hissued : (EngineCall.update.make r).issued = r.issued :=
      (congrArg MixingEngine.issued hengine).trans (issued_removeAll ..)
    refine ⟨Nat.le_of_eq hissued.symm, fun {i y} hy _ => .inl ⟨y, ?_, rfl⟩⟩
    replace hy := (destroyAll_instance? r r.engine.done i).symm.trans hy
    split at hy
    · cases hy
    · exact hy

theorem turned (v : EngineTurn) (r : Rig MixingEngine StreamingLoader) : Turned v r (v.take r) := by
  cases v with
  | call c => exact turned_call c r
  | event v =>
    cases v with
    | disk d => exact .of_same rfl rfl fun _ _ => rfl
    | device d => exact .of_same rfl rfl fun _ _ => rfl
    | render n =>
      obtain ⟨hissued, hinst⟩ := MixingEvent.render_instances n r.engine
      exact .of_map hissued hinst
    | ended i =>
      refine .of_map rfl fun j => (Table.get?_modify_eq_map ..).trans (Option.map_congr fun x _ => ?_)
      change _ = onEach [i] MixingInstance.fallSilent j x
      unfold onEach
      simp only [List.mem_singleton]
  | backstage b => exact .of_same rfl rfl fun _ _ => rfl
  | listener =>
    change Turned _ r (r.act MixingEngine.createListener).2
    unfold Rig.act
    split
    · obtain ⟨hissued, -, hinst⟩ := createListener_same ‹_›
      exact .of_same hissued hinst fun _ _ => rfl
    · exact .of_same rfl rfl fun _ _ => rfl

end EngineTurn

end Soundstage
