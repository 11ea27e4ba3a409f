import Mathlib.Data.List.Induction
import Soundstage.Proofs.Engine.Mixing
import Soundstage.Proofs.Engine.Writes
import Soundstage.Proofs.Occurrences

/-!
# Calls of an engine

An engine by itself, in the hands of somebody who makes whatever calls they like. What one call makes of the instances
is said once (`EngineCall.made`), and from it follows which of them were started in the course of many
(`EngineCall.Ran.started`): numbers are not used again, so an instance counts as started just if it was called to start
while it was there.
-/

namespace Soundstage

open Playable Staged

inductive EngineCall
  | create (event : String)
  | start (i : InstanceId)
  | stop (i : InstanceId) (mode : StopMode)
  | release (i : InstanceId)
  | setReceiver (i : InstanceId) (receiver : Receiver)
  | setAttributes (i : InstanceId) (attributes : Attributes)
  | setFloat (i : InstanceId) (name : String) (value : Float32)
  | setLabel (i : InstanceId) (name label : String)
  | setListener (attributes : Attributes)
  | update

namespace EngineCall

section

variable {E L : Type} [Loader L] [Engine E L]

/-- The rig after a call, whatever that answered. -/
def make (c : EngineCall) (r : Rig E L) : Rig E L :=
  match c with
  | create event => (r.create event).2
  | start i => (r.start i).2
  | stop i mode => (r.act (Engine.stop i mode)).2
  | release i => (r.act (Engine.release i)).2
  | setReceiver i receiver => (r.act (Engine.setReceiver i receiver)).2
  | setAttributes i attributes => (r.act (Engine.setAttributes i attributes)).2
  | setFloat i name value => (r.act (Engine.setFloat i name value)).2
  | setLabel i name label => (r.act (Engine.setLabel i name label)).2
  | setListener attributes => r.setListener attributes
  | update => r.update

/-- Make calls, oldest first. -/
def run (calls : List EngineCall) (r : Rig E L) : Rig E L := calls.foldl (fun r c => c.make r) r

@[simp]
theorem run_nil (r : Rig E L) : run [] r = r := rfl

theorem run_concat (calls : List EngineCall) (c : EngineCall) (r : Rig E L) :
    run (calls ++ [c]) r = c.make (run calls r) :=
  List.foldl_append

end

/-! ### One call -/

/-- What a call made of a rig. -/
structure Made {E L X S : Type} [Loader L] [LawfulLoader L] [Staged E X S] [Playable X S] (c : EngineCall)
    (r r' : Rig E L) : Prop where
  issued : r.issued ≤ r'.issued
  disk : r'.disk = r.disk
  ledger : Ledger r'.toBackstage []
  /-- What is there was there before, and is started if it was or has just been, or it is new. -/
  source : ∀ {i y}, r'.instance? i = some y →
    (∃ x, r.instance? i = some x ∧ ((status y).started = true ↔ (status x).started = true ∨ c = .start i)) ∨
      r.issued < i.val ∧ i.val ≤ r'.issued ∧ (status y).started = false ∧ c ≠ .start i

namespace Made

variable {E L X S : Type} [Loader L] [LawfulLoader L] [Staged E X S] [Playable X S] {r r' : Rig E L} {c : EngineCall}

theorem of_wrote {f : InstanceId → X → X} (h : Ledger r.toBackstage []) (hw : Wrote f r r')
    (hf : ∀ j x, (status (f j x)).started = (status x).started) (hc : ∀ i, c ≠ .start i) : Made c r r' := by
  refine ⟨Nat.le_of_eq hw.issued.symm, hw.disk, hw.ledger h, fun {i y} hy => .inl ?_⟩
  obtain ⟨x, hx, rfl⟩ := hw.source hy
  exact ⟨x, hx, by simp [hf, hc]⟩

theorem of_created [Engine E L] [LawfulEngine E L X S] (h : Ledger r.toBackstage []) (event : String) :
    Made (.create event) r (r.create event).2 := by
  have hmade : ∀ {result e}, Engine.create event r.engine = (result, e) →
      Made (.create event) r { r with engine := e } := by
    intro result e he
    cases result with
    | ok i =>
      obtain ⟨rfl, hissued, -, hinst⟩ := LawfulEngine.create_ok he
      refine ⟨Nat.le_of_lt (Nat.lt_of_succ_le (Nat.le_of_eq hissued.symm)), rfl, h, fun {j y} hy => ?_⟩
      have hj := (hinst j).symm.trans hy
      split at hj
      · subst j
        cases hj
        obtain ⟨stopped, hfresh⟩ := status_fresh (setting r.engine) event (X := X)
        exact .inr ⟨Nat.lt_succ_self _, Nat.le_of_eq hissued.symm, by rw [hfresh], by simp⟩
      · exact .inl ⟨y, hj, by simp⟩
    | error err =>
      obtain ⟨hissued, -, hinst⟩ := LawfulEngine.create_error he
      exact ⟨Nat.le_of_eq hissued.symm, rfl, h, fun {j y} hy => .inl ⟨y, (hinst j).symm.trans hy, by simp⟩⟩
  exact hmade rfl

end Made

theorem made_start {r : Rig MixingEngine StreamingLoader} (h : Ledger r.toBackstage []) (i : InstanceId) :
    Made (.start i) r (r.start i).2 := by
  have hs := MixingEngine.start_sounding i r
  refine ⟨Nat.le_of_eq hs.issued.symm, (hs.called h).disk, (hs.called h).ledger, fun {j y} hy => .inl ?_⟩
  by_cases hj : j = i
  · subst hj
    cases hx : r.instance? j with
    | none =>
      -- the call is refused, and nobody is there afterwards either
      have hrefused : r.start j = (.error (.invalidInstance j), r) := by
        change MixingEngine.start j r = _
        unfold MixingEngine.start
        rw [show r.engine.instances.get? j = none from hx]
      rw [hrefused, hx] at hy
      cases hy
    | some x =>
      obtain ⟨y', hy', sound, props, rfl⟩ := MixingEngine.start_begun hx
      cases hy'.symm.trans hy
      exact ⟨x, rfl, by simp [status, MixingInstance.status]⟩
  · exact ⟨y, (hs.others j hj).symm.trans hy, by simp [Ne.symm hj]⟩

theorem made {r : Rig MixingEngine StreamingLoader} (h : Ledger r.toBackstage []) (c : EngineCall) :
    Made c r (c.make r) := by
  have act : ∀ {op : MixingEngine → Except AudioError MixingEngine} {i : InstanceId}
      {g : MixingInstance → MixingInstance}, Rewrites op i g r.engine →
        (∀ x, (Status.started ∘ status) (g x) = (Status.started ∘ status) x) → (∀ i, c ≠ .start i) →
          Made c r (r.act op).2 :=
    fun hop hg hc => .of_wrote h (.act r hop) (fun _ x => onEach_same hg x) hc
  cases c with
  | create event => exact .of_created h event
  | start i => exact made_start h i
  | stop i mode => exact act (LawfulEngine.stop r.engine i mode) (fun x => by simp [status_stop]) nofun
  | release i => exact act (LawfulEngine.release r.engine i) (fun x => by simp [status_release]) nofun
  | setReceiver i receiver =>
    exact act (LawfulEngine.setReceiver r.engine i receiver) (fun x => by simp [status_receive]) nofun
  | setAttributes i attributes =>
    exact act (LawfulEngine.setAttributes r.engine i attributes) (fun x => by simp [status_place]) nofun
  | setFloat i name value =>
    exact act (LawfulEngine.setFloat r.engine i name value) (fun x => by simp [status_setFloat]) nofun
  | setLabel i name label =>
    exact act (LawfulEngine.setLabel r.engine i name label) (fun x => by simp [status_setLabel]) nofun
  | setListener attributes => exact .of_wrote h (r.setListener_wrote attributes) (fun _ _ => rfl) nofun
  | update =>
    have hc := LawfulEngine.update_cleared r h
    exact ⟨Nat.le_of_eq hc.issued.symm, hc.disk, hc.ledger, fun {i y} hy => .inl ⟨y, hc.present hy, by simp⟩⟩

/-! ### Many calls -/

/-- One of the calls was of this kind, given those before it. -/
def Came (kind : List EngineCall → EngineCall → Prop) (calls : List EngineCall) : Prop :=
  ∃ before c after, calls = before ++ c :: after ∧ kind before c

theorem not_came_nil {kind : List EngineCall → EngineCall → Prop} : ¬Came kind [] := not_occurs_nil

theorem came_concat {kind : List EngineCall → EngineCall → Prop} {calls : List EngineCall} {c : EngineCall} :
    Came kind (calls ++ [c]) ↔ Came kind calls ∨ kind calls c :=
  occurs_concat

/-- Among the calls, `i` was called to start while it was there. -/
def Started (r : Rig MixingEngine StreamingLoader) (i : InstanceId) : List EngineCall → Prop :=
  Came fun before c => c = .start i ∧ (run before r).instance? i ≠ none

/-- What holds after these calls of an engine that was empty. -/
structure Ran (r : Rig MixingEngine StreamingLoader) (calls : List EngineCall) : Prop where
  disk : (run calls r).disk = r.disk
  ledger : Ledger (run calls r).toBackstage []
  issued : ∀ {i}, (run calls r).instance? i ≠ none ∨ Started r i calls → i.val ≤ (run calls r).issued
  started : ∀ {i x}, (run calls r).instance? i = some x → (x.started = true ↔ Started r i calls)

theorem ran {r : Rig MixingEngine StreamingLoader} (h : Ledger r.toBackstage []) (hnone : ∀ i, r.instance? i = none)
    (calls : List EngineCall) : Ran r calls := by
  induction calls using List.reverseRecOn with
  | nil =>
    refine ⟨rfl, h, fun {i} hi => ?_, fun {i x} hx => ?_⟩
    · exact absurd (hi.resolve_right not_came_nil) (not_not_intro (hnone i))
    · exact absurd hx (by simp [hnone])
  | append_singleton calls c ih =>
    have hm := made ih.ledger c
    have hstarted : ∀ i, Started r i (calls ++ [c]) ↔
        Started r i calls ∨ c = .start i ∧ (run calls r).instance? i ≠ none := fun i => came_concat
    constructor <;> simp only [run_concat, hstarted]
    · exact hm.disk.trans ih.disk
    · exact hm.ledger
    · rintro i (hi | hs | ⟨-, hi⟩)
      · obtain ⟨y, hy⟩ := Option.ne_none_iff_exists'.mp hi
        rcases hm.source hy with ⟨x, hx, -⟩ | ⟨-, hle, -⟩
        · exact Nat.le_trans (ih.issued (.inl (by rw [hx]; simp))) hm.issued
        · exact hle
      · exact Nat.le_trans (ih.issued (.inr hs)) hm.issued
      · exact Nat.le_trans (ih.issued (.inl hi)) hm.issued
    · intro i y hy
      rcases hm.source hy with ⟨x, hx, hiff⟩ | ⟨hlt, -, hfresh, hc⟩
      · refine hiff.trans ?_
        rw [show (status x).started = x.started from rfl, ih.started hx]
        simp [hx]
      · -- nothing with the number of a new instance was ever called to start
        have hno : ¬Started r i calls := fun hs => absurd (ih.issued (.inr hs)) (Nat.not_le_of_lt hlt)
        simp [show y.started = false from hfresh, hno, hc]

end EngineCall

end Soundstage
