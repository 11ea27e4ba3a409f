import Soundstage.Proofs.Engine.Mixing
import Soundstage.Proofs.Engine.Scripted

/-!
# What a call touches

An engine is its instances and the rest. Placing, stopping and releasing an instance leave the rest alone, the order of
the instances too, and of these they change and consult just the one that they are about (`Touches`). This says more
than that a call rewrites its instance: the engine comes out the same, whatever else it is that is read off it.
-/

namespace Soundstage

open Playable Staged

/-- An engine apart from its instances. -/
class Fixture (E : Type) {X S : outParam Type} [Staged E X S] where
  rest : E → E
  ext : ∀ {e e' : E}, rest e = rest e' → instances e = instances e' → e = e'

section

variable {E X S : Type} [Staged E X S] [Fixture E]

/-- Of the engine, no instances but those in `ids` have changed. -/
structure InPlace (ids : List InstanceId) (e e' : E) : Prop where
  rest : Fixture.rest e' = Fixture.rest e
  keys : (instances e').keys = (instances e).keys
  others : ∀ {j}, j ∉ ids → (instances e').get? j = (instances e).get? j

/-- The engines do not differ for someone who knows the instances in `ids` alone. -/
structure SameOn (ids : List InstanceId) (e e' : E) : Prop where
  rest : Fixture.rest e' = Fixture.rest e
  own : ∀ {j}, j ∈ ids → (instances e').get? j = (instances e).get? j

namespace InPlace

variable {ids ids' : List InstanceId} {e e' e'' : E}

theorem refl (ids : List InstanceId) (e : E) : InPlace ids e e := ⟨rfl, rfl, fun _ => rfl⟩

theorem trans (h : InPlace ids e e') (h' : InPlace ids e' e'') : InPlace ids e e'' :=
  ⟨h'.rest.trans h.rest, h'.keys.trans h.keys, fun hj => (h'.others hj).trans (h.others hj)⟩

theorem mono (h : InPlace ids e e') (hsub : ids ⊆ ids') : InPlace ids' e e' :=
  ⟨h.rest, h.keys, fun hj => h.others fun hm => hj (hsub hm)⟩

theorem sameOn (h : InPlace ids e e') (hd : ids'.Disjoint ids) : SameOn ids' e e' :=
  ⟨h.rest, fun hj => h.others (hd hj)⟩

end InPlace

namespace SameOn

variable {ids ids' : List InstanceId} {e e' : E}

theorem of_eq (h : e' = e) : SameOn ids e e' := h ▸ ⟨rfl, fun _ => rfl⟩

theorem mono (h : SameOn ids e e') (hsub : ids' ⊆ ids) : SameOn ids' e e' := ⟨h.rest, fun hj => h.own (hsub hj)⟩

end SameOn

theorem Fixture.ext_get? {e e' : E} (hrest : rest e = rest e') (hkeys : (instances e).keys = (instances e').keys)
    (hget : ∀ j, (instances e).get? j = (instances e').get? j) : e = e' :=
  ext hrest (Table.ext_get? hkeys hget)

/-- A call that is about `i`: it changes nothing else, and what comes of it depends on nothing else that such calls
change. -/
structure Touches (i : InstanceId) (op : E → Except AudioError E) : Prop where
  inPlace : ∀ {e e'}, op e = .ok e' → InPlace [i] e e'
  same : ∀ {e e'}, SameOn [i] e e' →
    (op e').map (fun f => (instances f).get? i) = (op e).map fun f => (instances f).get? i

/-- A call that is refused, or modifies an instance, as the instance decides. -/
theorem Touches.of_modify {i : InstanceId} {op : E → Except AudioError E} (refuse : Option X → Option AudioError)
    (change : E → X → X) (after : E → E)
    (hop : ∀ e, op e = (refuse ((instances e).get? i)).elim (.ok (after e)) .error)
    (hrest : ∀ e, Fixture.rest (after e) = Fixture.rest e)
    (hinst : ∀ e, instances (after e) = (instances e).modify i (change (Fixture.rest e))) : Touches i op := by
  constructor
  · intro e e' h
    rw [hop] at h
    cases hr : refuse ((instances e).get? i) <;> rw [hr] at h <;> cases h
    refine ⟨hrest e, ?_, fun {j} hj => ?_⟩ <;> rw [hinst]
    · exact Table.keys_modify ..
    · exact Table.get?_modify_of_ne _ _ fun e => hj (List.mem_singleton.mpr e)
  · intro e e' h
    have hget : (instances e').get? i = (instances e).get? i := h.own (List.mem_singleton.mpr rfl)
    rw [hop, hop, hget]
    cases refuse ((instances e).get? i) with
    | some err => rfl
    | none =>
      change Except.ok ((instances (after e')).get? i) = Except.ok ((instances (after e)).get? i)
      rw [hinst, hinst, Table.get?_modify_self, Table.get?_modify_self, hget, h.rest]

end

/-- An engine whose calls touch no more than they are about. -/
class DiscreetEngine (E : Type) {L X S : outParam Type} [Loader L] [Engine E L] [Staged E X S] [Fixture E] : Prop where
  isValid : ∀ (i : InstanceId) {e e' : E}, SameOn [i] e e' → Engine.isValid e' i = Engine.isValid e i
  setAttributes : ∀ i attributes, Touches i (Engine.setAttributes (E := E) i attributes)
  stop : ∀ i mode, Touches i (Engine.stop (E := E) i mode)
  release : ∀ i, Touches i (Engine.release (E := E) i)

namespace ScriptedEngine

instance : Fixture ScriptedEngine where
  rest e := e.withInstances .empty
  ext {e e'} hrest hinst := by
    have hput := congrArg (fun f : ScriptedEngine => f.withInstances e'.instances) hrest
    have hboth : e.withInstances e.instances = e'.withInstances e'.instances := by
      rw [show e.instances = e'.instances from hinst]
      exact hput
    exact hboth

theorem change_touches (i : InstanceId) (f : ScriptedInstance → ScriptedInstance) : Touches i (change i f) := by
  refine .of_modify (fun x => x.elim (some (.invalidInstance i)) fun _ => none) (fun _ => f)
    (fun e => e.withInstances (e.instances.modify i f)) (fun e => ?_) (fun _ => rfl) fun _ => rfl
  change _ = Option.elim (Option.elim (e.instances.get? i) _ _) _ _
  unfold change Table.contains
  cases e.instances.get? i <;> rfl

theorem write_touches (i : InstanceId) (f : ScriptedInstance → ScriptedInstance) : Touches i (write i f) := by
  refine .of_modify (fun x => x.elim (some (.invalidInstance i)) fun x =>
      if x.rejectsWrites then some (.engine (i.text ++ " rejected the write")) else none) (fun _ => f)
    (fun e => e.withInstances (e.instances.modify i f)) (fun e => ?_) (fun _ => rfl) fun _ => rfl
  change _ = Option.elim (Option.elim (e.instances.get? i) _ _) _ _
  unfold write
  cases e.instances.get? i with
  | none => rfl
  | some x =>
    dsimp only [Option.elim_some]
    split <;> rfl

instance : DiscreetEngine ScriptedEngine where
  isValid _ _ _ h := congrArg Option.isSome (h.own (List.mem_singleton_self _))
  setAttributes i _ := write_touches i _
  stop i _ := change_touches i _
  release i := change_touches i _

end ScriptedEngine

namespace MixingEngine

instance : Fixture MixingEngine where
  rest e := e.withInstances .empty
  ext {e e'} hrest hinst := by
    have hput := congrArg (fun f : MixingEngine => f.withInstances e'.instances) hrest
    have hboth : e.withInstances e.instances = e'.withInstances e'.instances := by
      rw [show e.instances = e'.instances from hinst]
      exact hput
    exact hboth

theorem change_touches (i : InstanceId) (f : MixingEngine → MixingInstance → MixingInstance)
    (hf : ∀ e, f (e.withInstances .empty) = f e) : Touches i fun e => change i (f e) e := by
  -- `f` may consult the config, as a stop does for how long it fades
  refine .of_modify (fun x => x.elim (some (.invalidInstance i)) fun _ => none) f
    (fun e => e.withInstances (e.instances.modify i (f e))) (fun e => ?_) (fun _ => rfl) fun e => ?_
  · change _ = Option.elim (Option.elim (e.instances.get? i) _ _) _ _
    unfold change Table.contains
    cases e.instances.get? i <;> rfl
  · change _ = e.instances.modify i (f (e.withInstances .empty))
    rw [hf]
    rfl

instance : DiscreetEngine MixingEngine where
  isValid _ _ _ h := congrArg Option.isSome (h.own (List.mem_singleton_self _))
  setAttributes i _ := change_touches i (fun _ => id) fun _ => rfl
  stop i mode := change_touches i (fun e x => { x with sound := x.sound.map (·.requestStop (e.fadeOf mode)) }) fun e => by
    cases mode <;> rfl
  release i := change_touches i (fun _ x => { x with released := true }) fun _ => rfl

end MixingEngine

end Soundstage
