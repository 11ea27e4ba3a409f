import Soundstage.Emitter
import Soundstage.Proofs.Bridge.Delivery

/-!
# Lawful engines

A common view of the engines. `Staged` shows an engine as a table of instances, `Playable` says what
each call does to the one instance it is about, and `LawfulEngine` that the calls do that and
nothing else. `Status` is the part of an instance that all engines have. `Wrote f` relates two rigs
when every instance was rewritten by `f` and nothing behind the stage moved but the journal.
-/

namespace Soundstage

/-- What every engine knows of an instance. -/
structure Status where
  event : String
  receiver : Option Receiver
  started : Bool
  released : Bool
  /-- Whether all it plays was told to stop. -/
  stopped : Bool
  deriving DecidableEq

/-- The calls of an engine as functions of the instance they are about; `S` is what no call changes. -/
class Playable (X : Type) (S : outParam Type) where
  status : X → Status
  /-- Whether the next update takes the instance away. -/
  isDone : X → Bool
  fresh : S → String → X
  receive : Receiver → X → X
  place : Attributes → X → X
  setFloat : String → Float32 → X → X
  setLabel : String → String → X → X
  stop : S → StopMode → X → X
  release : X → X
  /-- What starting can make of an instance. -/
  Begun : X → X → Prop
  isDone_released : ∀ {x}, isDone x = true → (status x).released = true
  status_fresh : ∀ s event, ∃ stopped, status (fresh s event) = ⟨event, none, false, false, stopped⟩
  status_receive : ∀ receiver x, status (receive receiver x) = { status x with receiver := some receiver }
  status_place : ∀ attributes x, status (place attributes x) = status x
  status_setFloat : ∀ name value x, status (setFloat name value x) = status x
  status_setLabel : ∀ name label x, status (setLabel name label x) = status x
  status_stop : ∀ s mode x, status (stop s mode x) = { status x with stopped := true }
  status_release : ∀ x, status (release x) = { status x with released := true }
  status_begun : ∀ {x x'}, Begun x x' →
    ∃ stopped, status x' = { status x with started := true, stopped }

attribute [simp] Playable.status_receive Playable.status_place Playable.status_setFloat
  Playable.status_setLabel Playable.status_stop Playable.status_release

/-- An engine as a table of instances. -/
class Staged (E : Type) (X S : outParam Type) where
  instances : E → Table InstanceId X
  /-- The number of instances created so far. -/
  issued : E → Nat
  /-- What no call changes. -/
  setting : E → S

open Playable Staged

namespace Rig

variable {E L X S : Type} [Staged E X S]

def instance? (r : Rig E L) (i : InstanceId) : Option X := (instances r.engine).get? i

def issued (r : Rig E L) : Nat := Staged.issued r.engine

def setting (r : Rig E L) : S := Staged.setting r.engine

end Rig

/-- A call that rewrites one instance by `g`, or fails where `g` would change nothing. -/
structure Rewrites {E X S : Type} [Staged E X S] (op : E → Except AudioError E) (i : InstanceId) (g : X → X)
    (e : E) : Prop where
  ok : ∀ {e'}, op e = .ok e' → issued e' = issued e ∧ setting e' = setting e ∧
    ∀ j, (instances e').get? j = ((instances e).get? j).map fun x => if j = i then g x else x
  error : ∀ {err x}, op e = .error err → (instances e).get? i = some x → g x = x

/-- Most calls rewrite an instance if it is there, and fail otherwise. -/
theorem Rewrites.of_modify {E X S : Type} [Staged E X S] {op : E → Except AudioError E} {i : InstanceId} {g : X → X}
    {e after : E} {err : AudioError} (hop : op e = if (instances e).contains i then .ok after else .error err)
    (hissued : issued after = issued e) (hsetting : setting after = setting e)
    (hinst : instances after = (instances e).modify i g) : Rewrites op i g e := by
  constructor
  · intro e' h
    rw [hop] at h
    split at h <;> cases h
    refine ⟨hissued, hsetting, fun j => ?_⟩
    rw [hinst]
    exact (instances e).get?_modify_eq_map j i g
  · intro err' x h hx
    rw [hop, if_pos (Table.contains_iff.mpr ⟨x, hx⟩)] at h
    cases h

/-- The instances with `gone` have left the rig, with their bindings if the bridge served them. -/
structure Cleared {E L X S : Type} [Loader L] [LawfulLoader L] [Staged E X S] [Playable X S]
    (gone : InstanceId → Prop) (r r' : Rig E L) : Prop where
  issued : r'.issued = r.issued
  setting : r'.setting = r.setting
  disk : r'.disk = r.disk
  left : ∀ j, ¬gone j → r'.instance? j = r.instance? j
  taken : ∀ j, gone j → r'.instance? j = none
  ledger : Ledger r'.toBackstage []
  kept : ∀ j, ¬gone j → r'.binding? j = r.binding? j
  unmade : ∀ j, r.binding? j = none → r'.binding? j = none
  freed : ∀ j x, gone j → r.instance? j = some x → (status x).receiver = some .bridge → r'.binding? j = none

namespace Cleared

variable {E L X S : Type} [Loader L] [LawfulLoader L] [Staged E X S] [Playable X S]
variable {p q : InstanceId → Prop} {r r' r'' : Rig E L}

theorem congr (h : Cleared p r r') (hpq : ∀ j, p j ↔ q j) : Cleared q r r' := by
  have : p = q := funext fun j => propext (hpq j)
  exact this ▸ h

theorem present (h : Cleared p r r') {j : InstanceId} {x : X} (hx : r'.instance? j = some x) :
    r.instance? j = some x := by
  by_cases hj : p j
  · rw [h.taken j hj] at hx; cases hx
  · exact (h.left j hj).symm.trans hx

theorem instance?_eq {i : InstanceId} (h : Cleared (· = i) r r') (j : InstanceId) :
    r'.instance? j = if j = i then none else r.instance? j := by
  split
  · exact h.taken j ‹_›
  · exact h.left j ‹_›

theorem still (h : Ledger r.toBackstage []) (hissued : r'.issued = r.issued) (hsetting : r'.setting = r.setting)
    (hinst : ∀ j, r'.instance? j = r.instance? j) (hb : r'.toBackstage = r.toBackstage) :
    Cleared (fun _ => False) r r' := by
  refine ⟨hissued, hsetting, ?_, fun j _ => hinst j, fun _ hf => hf.elim, ?_, ?_, ?_, fun _ _ hf => hf.elim⟩ <;>
    rw [hb]
  · exact h
  · exact fun _ _ => rfl
  · exact fun _ hn => hn

theorem trans (h : Cleared p r r') (h' : Cleared q r' r'') : Cleared (fun j => p j ∨ q j) r r'' := by
  refine ⟨h'.issued.trans h.issued, h'.setting.trans h.setting, h'.disk.trans h.disk, fun j hj => ?_,
    fun j hj => ?_, h'.ledger, fun j hj => ?_, fun j hn => h'.unmade j (h.unmade j hn), fun j x hj hx hb => ?_⟩
  · rw [h'.left j fun hq => hj (.inr hq), h.left j fun hp => hj (.inl hp)]
  · by_cases hq : q j
    · exact h'.taken j hq
    · rw [h'.left j hq]
      exact h.taken j (hj.resolve_right hq)
  · rw [h'.kept j fun hq => hj (.inr hq), h.kept j fun hp => hj (.inl hp)]
  · by_cases hp : p j
    · exact h'.unmade j (h.freed j x hp hx hb)
    · exact h'.freed j x (hj.resolve_left hp) (by rw [h.left j hp]; exact hx) hb

/-- One instance left, and its receiver was told. -/
theorem of_called {i : InstanceId} (hissued : r'.issued = r.issued) (hsetting : r'.setting = r.setting)
    (hinst : ∀ j, r'.instance? j = if j = i then none else r.instance? j)
    (hc : Backstage.Called i r.toBackstage r'.toBackstage)
    (hfree : ∀ x, r.instance? i = some x → (status x).receiver = some .bridge → r'.binding? i = none) :
    Cleared (· = i) r r' := by
  refine ⟨hissued, hsetting, hc.disk, fun j hj => by rw [hinst, if_neg hj], fun j hj => by rw [hinst, if_pos hj],
    hc.ledger, hc.others, fun j hn => ?_, fun j x hj hx hb => ?_⟩
  · exact Classical.byContradiction fun hs => hc.made hs hn
  · subst hj; exact hfree x hx hb

theorem absent {i : InstanceId} (h : Ledger r.toBackstage []) (hx : r.instance? i = none) : Cleared (· = i) r r := by
  refine of_called rfl rfl (fun j => ?_) (.refl h) fun x hx' _ => ?_
  · split
    · subst j; exact hx
    · rfl
  · cases hx.symm.trans hx'

/-- One instance left, after the farewell that its receiver was owed. -/
theorem of_farewell {i : InstanceId} {x : X} {p : Props} (hx : r.instance? i = some x)
    (hissued : r'.issued = r.issued) (hsetting : r'.setting = r.setting)
    (hinst : ∀ j, r'.instance? j = if j = i then none else r.instance? j)
    (hl : Ledger r.toBackstage []) (hs : r'.toBackstage = { (status x).receiver.elim r.toBackstage
      fun receiver => r.toBackstage.farewell receiver i p with journal := r'.journal }) : Cleared (· = i) r r' := by
  have hc : Backstage.Called i r.toBackstage r'.toBackstage := by
    rw [hs]
    cases (status x).receiver with
    | none => exact .of_eq hl rfl rfl rfl
    | some receiver =>
      have hc := Backstage.called_farewell (i := i) (p := p) hl receiver
      exact hc.trans (.of_eq hc.ledger rfl rfl rfl)
  refine of_called hissued hsetting hinst hc fun x' hx' hreceiver => ?_
  cases hx.symm.trans hx'
  rw [hs, hreceiver]
  exact Backstage.binding?_farewell (i := i) (p := p) hl

theorem foldl {destroy : Rig E L → InstanceId → Rig E L}
    (hd : ∀ r i, Ledger r.toBackstage [] → Cleared (· = i) r (destroy r i)) (ids : List InstanceId)
    (h : Ledger r.toBackstage []) : Cleared (· ∈ ids) r (ids.foldl destroy r) := by
  induction ids generalizing r with
  | nil => exact (Cleared.still h rfl rfl (fun _ => rfl) rfl).congr fun j => by simp
  | cons i ids ih =>
    have hi := hd r i h
    exact (hi.trans (ih hi.ledger)).congr fun j => by rw [List.mem_cons]

end Cleared

class LawfulEngine (E : Type) (L X S : outParam Type) [Loader L] [LawfulLoader L] [Engine E L]
    [Staged E X S] [Playable X S] : Prop where
  isValid_eq : ∀ (e : E) (i : InstanceId), Engine.isValid e i = ((instances e).get? i).isSome
  eventOf_eq : ∀ (e : E) (i : InstanceId),
    Engine.eventOf e i = ((instances e).get? i).map fun x => (status x).event
  create_ok : ∀ {event : String} {e e' : E} {i : InstanceId}, Engine.create event e = (.ok i, e') →
    i = ⟨issued e + 1⟩ ∧ issued e' = issued e + 1 ∧ setting e' = setting e ∧
      ∀ j, (instances e').get? j = if j = i then some (fresh (setting e) event) else (instances e).get? j
  create_error : ∀ {event : String} {e e' : E} {err : AudioError}, Engine.create event e = (.error err, e') →
    issued e' = issued e ∧ setting e' = setting e ∧ ∀ j, (instances e').get? j = (instances e).get? j
  setReceiver : ∀ (e : E) (i : InstanceId) (receiver : Receiver),
    Rewrites (Engine.setReceiver i receiver) i (receive receiver) e
  setAttributes : ∀ (e : E) (i : InstanceId) (attributes : Attributes),
    Rewrites (Engine.setAttributes i attributes) i (place attributes) e
  setFloat : ∀ (e : E) (i : InstanceId) (name : String) (value : Float32),
    Rewrites (Engine.setFloat i name value) i (Playable.setFloat name value) e
  setLabel : ∀ (e : E) (i : InstanceId) (name label : String),
    Rewrites (Engine.setLabel i name label) i (Playable.setLabel name label) e
  stop : ∀ (e : E) (i : InstanceId) (mode : StopMode),
    Rewrites (Engine.stop i mode) i (Playable.stop (setting e) mode) e
  release : ∀ (e : E) (i : InstanceId), Rewrites (Engine.release i) i Playable.release e
  stop_isOk : ∀ {e : E} {i : InstanceId} (mode : StopMode), (instances e).get? i ≠ none →
    ∃ e', Engine.stop i mode e = .ok e'
  release_isOk : ∀ {e : E} {i : InstanceId}, (instances e).get? i ≠ none → ∃ e', Engine.release i e = .ok e'
  /-- The listener is none of the instances' business. -/
  setListener : ∀ {e e' : E} {attributes : Attributes}, Engine.setListener attributes e = .ok e' →
    issued e' = issued e ∧ setting e' = setting e ∧ ∀ j, (instances e').get? j = (instances e).get? j
  start_others : ∀ (r : Rig E L) (i j : InstanceId), j ≠ i →
    (Engine.start i r).2.instance? j = r.instance? j
  start_begun : ∀ {r : Rig E L} {i : InstanceId} {x : X}, r.instance? i = some x →
    ∃ x', (Engine.start i r).2.instance? i = some x' ∧ Begun x x'
  start_issued : ∀ (r : Rig E L) (i : InstanceId), (Engine.start i r).2.issued = r.issued
  start_setting : ∀ (r : Rig E L) (i : InstanceId), (Engine.start i r).2.setting = r.setting
  start_called : ∀ (r : Rig E L) (i : InstanceId), Ledger r.toBackstage [] →
    Backstage.Called i r.toBackstage (Engine.start i r).2.toBackstage
  update_cleared : ∀ (r : Rig E L), Ledger r.toBackstage [] →
    Cleared (fun j => ∃ x, r.instance? j = some x ∧ isDone x = true) r (Engine.update r)

end Soundstage
