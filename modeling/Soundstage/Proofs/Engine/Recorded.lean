import Soundstage.Proofs.Engine.Writes

/-!
# Orders taken down

An engine whose orders are taken down: every call that stops an instance or gives it up is written behind those before
it, with whether the engine carried it out. As a call that is refused leaves no trace in an engine, it is answered as
if it were carried out; so the record is that of the engine itself only where nothing was refused. `Rig.recorded` is
a rig with a record. What makes no orders is the same with and without one (`attempt_recorded`, `start_recorded`), and
an order that is carried out is written down (`attempt_order`, `act_order`).
-/

namespace Soundstage

/-- What ends the life of an instance. -/
inductive Order
  | stop (i : InstanceId) (mode : StopMode)
  | release (i : InstanceId)
  deriving DecidableEq

/-- An order and whether it was carried out. -/
abbrev Entry : Type := Order × Bool

/-- The instances that these orders give up. -/
def givenUp (entries : List Entry) : List InstanceId :=
  entries.filterMap fun
    | (.release i, _) => some i
    | (.stop .., _) => none

theorem givenUp_append (es fs : List Entry) : givenUp (es ++ fs) = givenUp es ++ givenUp fs := List.filterMap_append

structure Recorded (E : Type) where
  inner : E
  /-- The orders so far, oldest first. -/
  entries : List Entry := []

namespace Recorded

variable {E L : Type}

/-- Pass a call on that is no order. -/
def pass (op : E → Except AudioError E) (e : Recorded E) : Except AudioError (Recorded E) :=
  (op e.inner).map fun inner => { e with inner }

/-- Take an order down. -/
def order (order : Order) (op : E → Except AudioError E) (e : Recorded E) : Except AudioError (Recorded E) :=
  match op e.inner with
  | .ok inner => .ok ⟨inner, e.entries ++ [(order, true)]⟩
  | .error _ => .ok { e with entries := e.entries ++ [(order, false)] }

end Recorded

namespace Rig

variable {E L : Type}

/-- The rig with a record of orders. -/
def recorded (r : Rig E L) (entries : List Entry) : Rig (Recorded E) L := r.withEngine ⟨r.engine, entries⟩

/-- The rig without its record. -/
def plain (r : Rig (Recorded E) L) : Rig E L := r.withEngine r.engine.inner

end Rig

namespace Recorded

variable {E L : Type}

/-- Act on the rig of the engine inside. -/
def within {α : Type} (r : Rig (Recorded E) L) (op : Rig E L → α × Rig E L) : α × Rig (Recorded E) L :=
  let (a, inside) := op r.plain
  (a, inside.recorded r.engine.entries)

instance [Loader L] [Engine E L] : Engine (Recorded E) L where
  create event e :=
    let (result, inner) := Engine.create event e.inner
    (result, { e with inner })
  start i r := within r (Engine.start i)
  stop i mode := order (.stop i mode) (Engine.stop i mode)
  release i := order (.release i) (Engine.release i)
  isValid e i := Engine.isValid e.inner i
  eventOf e i := Engine.eventOf e.inner i
  setAttributes i attributes := pass (Engine.setAttributes i attributes)
  setFloat i name value := pass (Engine.setFloat i name value)
  setLabel i name label := pass (Engine.setLabel i name label)
  setReceiver i receiver := pass (Engine.setReceiver i receiver)
  setListener attributes := pass (Engine.setListener attributes)
  update r := (within r fun inside => ((), Engine.update inside)).2

end Recorded

/-! ### Calls of the engine -/

namespace Rig

section

variable {E L : Type} (r : Rig E L) (es : List Entry)

@[simp]
theorem toBackstage_recorded : (r.recorded es).toBackstage = r.toBackstage := rfl

theorem say_recorded (level : Level) (text : String) : (r.recorded es).say level text = (r.say level text).recorded es := rfl

theorem attempt_recorded (op : E → Except AudioError E) (complaint : AudioError → String) :
    (r.recorded es).attempt (Recorded.pass op) complaint = (r.attempt op complaint).recorded es := by
  have hp : Recorded.pass op (r.recorded es).engine = (op r.engine).map fun e => ⟨e, es⟩ := rfl
  unfold attempt
  rw [hp]
  cases op r.engine <;> rfl

theorem order_recorded {op : E → Except AudioError E} {e : E} (h : op r.engine = .ok e) (order : Order) :
    Recorded.order order op (r.recorded es).engine = .ok ⟨e, es ++ [(order, true)]⟩ := by
  unfold Recorded.order
  rw [show (r.recorded es).engine.inner = r.engine from rfl, h]
  rfl

/-- An order that is carried out. -/
theorem attempt_order {op : E → Except AudioError E} {e : E} (h : op r.engine = .ok e) (order : Order)
    (complaint : AudioError → String) : (r.recorded es).attempt (Recorded.order order op) complaint =
      (r.attempt op complaint).recorded (es ++ [(order, true)]) := by
  unfold attempt
  rw [r.order_recorded es h, h]
  rfl

theorem act_order {op : E → Except AudioError E} {e : E} (h : op r.engine = .ok e) (order : Order) :
    (r.recorded es).act (Recorded.order order op) = ((r.act op).1, (r.act op).2.recorded (es ++ [(order, true)])) := by
  unfold act
  rw [r.order_recorded es h, h]
  rfl

variable [Loader L] [Engine E L]

theorem isValid_recorded (i : InstanceId) : (r.recorded es).isValid i = r.isValid i := rfl

theorem create_recorded (event : String) :
    (r.recorded es).create event = ((r.create event).1, (r.create event).2.recorded es) := rfl

theorem start_recorded (i : InstanceId) : (r.recorded es).start i = ((r.start i).1, (r.start i).2.recorded es) := rfl

theorem setListener_recorded (attributes : Attributes) :
    (r.recorded es).setListener attributes = (r.setListener attributes).recorded es := by
  have hp : Engine.setListener attributes (r.recorded es).engine =
    (Engine.setListener attributes r.engine).map fun e => ⟨e, es⟩ := rfl
  unfold setListener
  rw [hp]
  cases Engine.setListener attributes r.engine <;> rfl

end

end Rig

end Soundstage
