import Soundstage.Proofs.Engine.Debut
import Soundstage.Proofs.Engine.Writes

/-!
# The conduct of the mixing engine

`Conducted streams r`: of all instances so far, those in `streams` are served by the bridge, and the traces
of all are as they should be. One that is there has been asked for at most once, holds in its props
what its binding has loaded, and so will say the right farewell; one that is gone has said it; nobody
else was ever answered. The bridge refuses nothing and so no error is logged.
-/

namespace Soundstage

open Playable Backstage

namespace MixingInstance

theorem setFloat_same (name : String) (value : Float32) (x : MixingInstance) :
    (x.setFloat name value).receiver = x.receiver ∧ (x.setFloat name value).props = x.props := by
  unfold setFloat
  dsimp only
  split
  · exact ⟨rfl, rfl⟩
  split <;> exact ⟨rfl, rfl⟩

end MixingInstance

namespace MixingEngine

variable {r : Rig MixingEngine StreamingLoader} {i : InstanceId}

theorem destroy_absent (h : r.engine.instances.get? i = none) : destroy r i = r := by
  unfold destroy
  rw [h]

/-- All that reaches the backstage when an instance goes away is its farewell and a line in the journal. -/
theorem backstage_destroy {x : MixingInstance} (h : r.engine.instances.get? i = some x) :
    (destroy r i).toBackstage = (x.receiver.elim r.toBackstage fun receiver =>
      r.toBackstage.farewell receiver i x.props).say .trace
        ("Audio: destroyed " ++ i.text ++ " ('" ++ x.event ++ "')") := by
  unfold destroy
  rw [h]
  dsimp only
  cases x.receiver <;> rfl

end MixingEngine

/-- The bridge has told `x`, which stands in the rig as `i`, just these answers. -/
structure Served (i : InstanceId) (x : MixingInstance) (answers : List Answer)
    (r : Rig MixingEngine StreamingLoader) : Prop where
  sound : x.props.sound = (r.binding? i).bind Binding.loaded
  stream : x.receiver = some .bridge → ∃ b, r.binding? i = some b ∧ Opening i b.loaded answers
  other : x.receiver ≠ some .bridge → answers = []

theorem Served.congr {i : InstanceId} {x y : MixingInstance} {answers : List Answer}
    {r r' : Rig MixingEngine StreamingLoader} (h : Served i x answers r) (hr : y.receiver = x.receiver)
    (hp : y.props = x.props) (hb : r'.binding? i = r.binding? i) : Served i y answers r' := by
  refine ⟨?_, ?_, ?_⟩
  · rw [hp, hb]
    exact h.sound
  · rw [hr, hb]
    exact h.stream
  · rw [hr]
    exact h.other

structure Conducted (streams : InstanceId → Prop) (r : Rig MixingEngine StreamingLoader) : Prop where
  quiet : ∀ line ∈ r.journal, line.level ≠ .error
  issued : ∀ {i}, streams i → i.val ≤ r.issued
  served : ∀ {i x}, r.instance? i = some x → (x.receiver = some .bridge ↔ streams i)
  unheard : ∀ {i}, ¬streams i → r.trace i = []
  opened : ∀ {i x}, r.instance? i = some x → streams i →
    ∃ b, r.binding? i = some b ∧ Opening i b.loaded (r.trace i)
  sound : ∀ {i x}, r.instance? i = some x → x.props.sound = (r.binding? i).bind Binding.loaded
  closed : ∀ {i}, streams i → r.instance? i = none →
    ∃ sound answers, Opening i sound answers ∧ r.trace i = answers ++ closing i sound
  spent : r.loader.Spent

namespace Conducted

variable {streams : InstanceId → Prop} {r r' : Rig MixingEngine StreamingLoader} {i : InstanceId}

theorem start (hnone : ∀ i, ¬streams i) (hinst : ∀ i, r.instance? i = none) (hjournal : r.journal = [])
    (hanswered : r.answered = []) (hspent : r.loader.Spent) : Conducted streams r := by
  have absent : ∀ {i x}, r.instance? i ≠ some x := fun {i x} hx => by
    rw [hinst] at hx
    cases hx
  refine ⟨fun line hm => ?_, fun hs => absurd hs (hnone _), fun hx => absurd hx absent, fun {i} _ => ?_,
    fun hx => absurd hx absent, fun hx => absurd hx absent, fun hs => absurd hs (hnone _), hspent⟩
  · rw [hjournal] at hm
    cases hm
  · unfold trace
    rw [hanswered]
    rfl

theorem congr (h : Conducted streams r) {streams' : InstanceId → Prop} (he : ∀ i, streams i ↔ streams' i) :
    Conducted streams' r := by
  have : streams = streams' := funext fun i => propext (he i)
  exact this ▸ h

theorem granted (h : Conducted streams r) {a : Answer} (ha : a ∈ r.answered) : ∃ state, a.result = .ok state := by
  have hm : a ∈ r.trace a.instanceId := List.mem_filter.mpr ⟨ha, decide_eq_true rfl⟩
  by_cases hs : streams a.instanceId
  · cases hx : r.instance? a.instanceId with
    | some x =>
      obtain ⟨b, -, ho⟩ := h.opened hx hs
      exact (mem_opening ho a hm).2
    | none =>
      obtain ⟨sound, answers, ho, ht⟩ := h.closed hs hx
      rw [ht] at hm
      exact (List.mem_append.mp hm).elim (fun hm => (mem_opening ho a hm).2) fun hm => (mem_closing a hm).2
  · rw [h.unheard hs] at hm
    cases hm

/-- Neither a receiver nor what it was answered has changed. -/
theorem rewrite (h : Conducted streams r) {f : InstanceId → MixingInstance → MixingInstance}
    (hinst : ∀ j, r'.instance? j = (r.instance? j).map (f j)) (hissued : r'.issued = r.issued)
    (hbridge : r'.bridge = r.bridge) (hloader : r'.loader = r.loader) (hanswered : r'.answered = r.answered)
    (hquiet : Quiet r.toBackstage r'.toBackstage)
    (hf : ∀ j x, (f j x).receiver = x.receiver ∧ (f j x).props = x.props) : Conducted streams r' := by
  have hb : r'.binding? = r.binding? := by funext j; unfold binding?; rw [hbridge]
  have ht : r'.trace = r.trace := by funext j; unfold trace; rw [hanswered]
  have source : ∀ {j y}, r'.instance? j = some y → ∃ x, r.instance? j = some x ∧ y = f j x := fun {j y} hy => by
    rw [hinst, Option.map_eq_some_iff] at hy
    obtain ⟨x, hx, rfl⟩ := hy
    exact ⟨x, hx, rfl⟩
  refine ⟨hquiet.no_error h.quiet, fun hs => hissued ▸ h.issued hs, fun {j y} hy => ?_, ?_, fun {j y} hy hs => ?_,
    fun {j y} hy => ?_, fun {j} hs hn => ?_, hloader ▸ h.spent⟩
  · obtain ⟨x, hx, rfl⟩ := source hy
    rw [(hf j x).1]
    exact h.served hx
  · rw [ht]
    exact h.unheard
  · obtain ⟨x, hx, rfl⟩ := source hy
    rw [hb, ht]
    exact h.opened hx hs
  · obtain ⟨x, hx, rfl⟩ := source hy
    rw [hb, (hf j x).2]
    exact h.sound hx
  · rw [ht]
    refine h.closed hs ?_
    rw [hinst, Option.map_eq_none_iff] at hn
    exact hn

theorem wrote (h : Conducted streams r) {f : InstanceId → MixingInstance → MixingInstance} (hw : Wrote f r r')
    (hf : ∀ j x, (f j x).receiver = x.receiver ∧ (f j x).props = x.props) : Conducted streams r' :=
  h.rewrite hw.instances hw.issued (by rw [hw.backstage]) hw.loader hw.answered hw.quiet hf

theorem wrote_onEach (h : Conducted streams r) {ids : List InstanceId} {g : MixingInstance → MixingInstance}
    (hw : Wrote (onEach ids g) r r') (hg : ∀ x, (g x).receiver = x.receiver ∧ (g x).props = x.props) :
    Conducted streams r' :=
  h.wrote hw fun _ x => ⟨onEach_same (fun x => (hg x).1) x, onEach_same (fun x => (hg x).2) x⟩

/-! ### An instance goes away -/

/-- `i` has left, and has heard the last of it if the bridge served it. -/
theorem leave (h : Conducted streams r) {answers : List Answer}
    (hheard : Heard i answers r.toBackstage r'.toBackstage)
    (hinst : ∀ j, r'.instance? j = if j = i then none else r.instance? j) (hissued : r'.issued = r.issued)
    (hspent : r'.loader.Spent)
    (hstream : streams i → ∃ sound, Opening i sound (r.trace i) ∧ answers = closing i sound)
    (hother : ¬streams i → answers = []) : Conducted streams r' := by
  have present : ∀ {j x}, r'.instance? j = some x → j ≠ i ∧ r.instance? j = some x := fun {j x} hx => by
    rw [hinst] at hx
    split at hx
    · cases hx
    · exact ⟨‹_›, hx⟩
  refine ⟨hheard.quiet.no_error h.quiet, fun hs => hissued ▸ h.issued hs, fun hx => h.served (present hx).2,
    fun {j} hs => ?_, fun {j x} hx hs => ?_, fun {j x} hx => ?_, fun {j} hs hn => ?_, hspent⟩
  · by_cases hj : j = i
    · subst hj
      rw [hheard.trace_self, h.unheard hs, hother hs, List.append_nil]
    · rw [hheard.trace_of_ne hj]
      exact h.unheard hs
  · obtain ⟨hj, hx⟩ := present hx
    rw [hheard.others j hj, hheard.trace_of_ne hj]
    exact h.opened hx hs
  · obtain ⟨hj, hx⟩ := present hx
    rw [hheard.others j hj]
    exact h.sound hx
  · by_cases hj : j = i
    · subst hj
      obtain ⟨sound, ho, rfl⟩ := hstream hs
      exact ⟨sound, _, ho, hheard.trace_self⟩
    · rw [hheard.trace_of_ne hj]
      refine h.closed hs ?_
      rwa [hinst, if_neg hj] at hn

/-- The farewell of an instance is the one that it is owed. -/
theorem farewell (h : Conducted streams r) (hl : Ledger r.toBackstage []) {x : MixingInstance}
    (hx : r.instance? i = some x) : ∃ s answers, s = (x.receiver.elim r.toBackstage fun receiver =>
        r.toBackstage.farewell receiver i x.props) ∧ Heard i answers r.toBackstage s ∧ s.loader.Spent ∧
      (streams i → ∃ sound, Opening i sound (r.trace i) ∧ answers = closing i sound) ∧
        (¬streams i → answers = []) := by
  cases hr : x.receiver with
  | none =>
    have hs : ¬streams i := fun hs => by
      rw [(h.served hx).mpr hs] at hr
      cases hr
    exact ⟨_, [], rfl, .refl i _, h.spent, fun hs' => absurd hs' hs, fun _ => rfl⟩
  | some receiver =>
    by_cases hb : receiver = .bridge
    · subst hb
      have hs : streams i := (h.served hx).mp hr
      obtain ⟨b, hb, ho⟩ := h.opened hx hs
      have hp : x.props.sound = b.loaded := by rw [h.sound hx, hb]; rfl
      obtain ⟨hheard, hloader⟩ := heard_farewell hl hb hp
      have hspent := h.spent.releaseLoaded i b.loaded
      rw [← hloader] at hspent
      exact ⟨_, _, rfl, hheard, hspent, fun _ => ⟨_, ho, rfl⟩, absurd hs⟩
    · have hs : ¬streams i := fun hs => hb (Option.some.inj (hr.symm.trans ((h.served hx).mpr hs)))
      obtain ⟨hheard, hloader⟩ := heard_farewell_other (s := r.toBackstage) (i := i) (p := x.props) receiver hb
      have hspent := h.spent
      rw [← hloader] at hspent
      exact ⟨_, [], rfl, hheard, hspent, fun hs' => absurd hs' hs, fun _ => rfl⟩

theorem destroy (h : Conducted streams r) (hl : Ledger r.toBackstage []) (i : InstanceId) :
    Conducted streams (MixingEngine.destroy r i) ∧ Quiet r.toBackstage (MixingEngine.destroy r i).toBackstage := by
  have hc := MixingEngine.destroy_cleared r i hl
  cases hx : r.engine.instances.get? i with
  | none =>
    rw [MixingEngine.destroy_absent hx]
    exact ⟨h, .refl _⟩
  | some x =>
    obtain ⟨s, answers, hs, hheard, hspent, hstream, hother⟩ := h.farewell hl hx
    have hsaid := hheard.say .trace ("Audio: destroyed " ++ i.text ++ " ('" ++ x.event ++ "')") (by decide)
    have hbackstage := MixingEngine.backstage_destroy hx
    rw [← hs] at hbackstage
    rw [← hbackstage] at hsaid
    refine ⟨h.leave hsaid hc.instance?_eq hc.issued ?_ hstream hother, hsaid.quiet⟩
    rw [hbackstage]
    exact hspent

theorem update (h : Conducted streams r) (hl : Ledger r.toBackstage []) :
    Conducted streams r.update ∧ Quiet r.toBackstage r.update.toBackstage := by
  have hfold : ∀ (ids : List InstanceId) {r : Rig MixingEngine StreamingLoader}, Conducted streams r →
      Ledger r.toBackstage [] → Conducted streams (ids.foldl MixingEngine.destroy r) ∧
        Quiet r.toBackstage (ids.foldl MixingEngine.destroy r).toBackstage := by
    intro ids
    induction ids with
    | nil => exact fun h _ => ⟨h, .refl _⟩
    | cons i rest ih =>
      intro r h hl
      obtain ⟨hi, hq⟩ := h.destroy hl i
      obtain ⟨hr, hq'⟩ := ih hi (MixingEngine.destroy_cleared r i hl).ledger
      exact ⟨hr, hq.trans hq'⟩
  exact hfold r.engine.done h hl

/-! ### An instance comes in -/

/-- `i` has come in and was started; it has told the bridge if that is to serve it. -/
theorem enter (h : Conducted streams r) {answers : List Answer} {x : MixingInstance}
    (hheard : Heard i answers r.toBackstage r'.toBackstage) (hi : i = ⟨r.issued + 1⟩)
    (hothers : ∀ j, j ≠ i → r'.instance? j = r.instance? j) (hown : r'.instance? i = some x)
    (hissued : r'.issued = r.issued + 1) (hspent : r'.loader.Spent) (hserved : Served i x answers r') :
    Conducted (fun j => streams j ∨ x.receiver = some .bridge ∧ j = i) r' := by
  have hnew : ¬streams i := fun hs => by
    have hle := h.issued hs
    rw [hi] at hle
    exact Nat.not_succ_le_self _ hle
  have hself : r'.trace i = answers := by rw [hheard.trace_self, h.unheard hnew, List.nil_append]
  refine ⟨hheard.quiet.no_error h.quiet, ?_, fun {j y} hy => ?_, fun {j} hs => ?_, fun {j y} hy hs => ?_,
    fun {j y} hy => ?_, fun {j} hs hn => ?_, hspent⟩
  · rintro j (hs | ⟨-, rfl⟩)
    · rw [hissued]
      exact Nat.le_succ_of_le (h.issued hs)
    · exact Nat.le_of_eq (by rw [hissued, hi])
  · by_cases hj : j = i
    · subst hj
      cases hown.symm.trans hy
      simp [hnew]
    · rw [hothers j hj] at hy
      simp [hj, h.served hy]
  · rw [not_or] at hs
    by_cases hj : j = i
    · subst hj
      rw [hself]
      exact hserved.other fun hr => hs.2 ⟨hr, rfl⟩
    · rw [hheard.trace_of_ne hj]
      exact h.unheard hs.1
  · by_cases hj : j = i
    · subst hj
      cases hown.symm.trans hy
      rw [hself]
      exact hserved.stream (hs.resolve_left hnew).1
    · rw [hothers j hj] at hy
      rw [hheard.others j hj, hheard.trace_of_ne hj]
      exact h.opened hy (hs.resolve_right fun hr => hj hr.2)
  · by_cases hj : j = i
    · subst hj
      cases hown.symm.trans hy
      exact hserved.sound
    · rw [hothers j hj] at hy
      rw [hheard.others j hj]
      exact h.sound hy
  · by_cases hj : j = i
    · subst hj
      rw [hown] at hn
      cases hn
    · rw [hothers j hj] at hn
      rw [hheard.trace_of_ne hj]
      exact h.closed (hs.resolve_right fun hr => hj hr.2) hn

end Conducted

end Soundstage
