import Soundstage.Proofs.Bridge.Answers
import Soundstage.Proofs.Bridge.Careers

/-!
# Refusals

Whether a callback is refused, and why, is told by the binding of its instance alone (`refusal?`). One that is
refused leaves everything as it was, and one that is granted answers the state that its binding has come to:
nothing is left half done (`Clean`). That takes bindings that are settled, as all calls leave them. Main
statement: `refusals_exact`.
-/

namespace Soundstage

namespace Backstage

variable {L : Type}

/-- Why a callback of `i` is refused, if it is. -/
def refusal? (s : Backstage L) (kind : CallbackKind) (i : InstanceId) : Option AudioError :=
  match s.binding? i, kind with
  | none, .destroyed => some (.bindingAlreadyFreed i)
  | none, _ => some (.unknownBinding i)
  | some b, .createSound => if b.state = .loaded then some (.invalidTransition i .loaded .loaded) else none
  | some b, .destroySound =>
    if b.state = .releasing then some (.invalidTransition i .releasing .releasing) else none
  | some _, .destroyed => none

/-- The state of the binding of `i`, which is freed when it is not in the table. -/
def stateOf (s : Backstage L) (i : InstanceId) : BindingState := (s.binding? i).elim .freed (·.state)

end Backstage

/-- Play a scene. -/
def Scene.perform {L : Type} [Loader L] (s : Backstage L) (c : Scene L) : Backstage L := c.call.perform (c.begin s)

open Backstage

/-- A callback is refused or granted, and nothing in between. -/
structure Clean {L : Type} [Loader L] (kind : CallbackKind) (i : InstanceId) (props : Props) (s : Backstage L)
    (reply : Reply) (s' : Backstage L) : Prop where
  refused : ∀ e, reply.result = .error e ↔ s.refusal? kind i = some e
  unchanged : ∀ {e}, reply.result = .error e → s' = s ∧ reply.props = props
  granted : ∀ {state}, reply.result = .ok state → s'.stateOf i = state
  /-- A binding is answered to be freed when it leaves the table, and only then. -/
  gone : reply.result = .ok .freed ↔ s.binding? i ≠ none ∧ s'.binding? i = none
  /-- That a file cannot be decoded is no failure: the instance plays silence. -/
  silent : ∀ {b e l}, kind = .createSound → s.binding? i = some b → b.state ≠ .loaded →
    Loader.decode s.disk b.path b.mode s.loader = (.error e, l) →
    reply.result = .ok .awaitingLoad ∧ reply.props.sound = none

section

variable {L : Type} [Loader L] {kind : CallbackKind} {i : InstanceId} {p props : Props} {s s' : Backstage L}

namespace Clean

/-- What is refused for the reason that the binding gives has touched nothing. -/
theorem refusal {e : AudioError} (hr : s.refusal? kind i = some e)
    (hload : kind = .createSound → ∀ b, s.binding? i = some b → b.state = .loaded) (hs : s' = s) :
    Clean kind i p s ⟨.error e, p⟩ s' := by
  refine ⟨fun e' => ?_, fun _ => ⟨hs, rfl⟩, nofun, ⟨nofun, fun ⟨hb, hn⟩ => ?_⟩, fun hk hb hne => ?_⟩
  · rw [hr, Except.error.injEq, Option.some.injEq]
  · rw [hs] at hn
    exact absurd hn hb
  · exact absurd (hload hk _ hb) hne

/-- The binding has come to a state that is still one of the table's. -/
theorem kept {b b' : Binding} (hr : s.refusal? kind i = none) (hb : s.binding? i = some b)
    (hb' : s'.binding? i = some b') (hstanding : b'.state.isStanding = true)
    (hsilent : ∀ {e l}, kind = .createSound → Loader.decode s.disk b.path b.mode s.loader = (.error e, l) →
      b'.state = .awaitingLoad ∧ p.sound = none) : Clean kind i props s ⟨.ok b'.state, p⟩ s' := by
  refine ⟨fun e => ?_, nofun, ?_, ⟨?_, fun ⟨_, hn⟩ => ?_⟩, fun {c e l} hk hc _ hd => ?_⟩
  · rw [hr]
    exact ⟨nofun, nofun⟩
  · rintro _ ⟨⟩
    unfold stateOf
    rw [hb']
    rfl
  · intro hfreed
    exact absurd (Except.ok.inj hfreed) (BindingState.ne_freed hstanding)
  · rw [hb'] at hn
    cases hn
  · cases hb.symm.trans hc
    obtain ⟨hstate, hsound⟩ := hsilent hk hd
    exact ⟨congrArg Except.ok hstate, hsound⟩

theorem freed {b : Binding} (hb : s.binding? i = some b) (hn : s'.binding? i = none) :
    Clean .destroyed i props s ⟨.ok .freed, p⟩ s' := by
  refine ⟨fun e => ?_, nofun, ?_, ⟨fun _ => ⟨?_, hn⟩, fun _ => rfl⟩, nofun⟩
  · unfold refusal?
    rw [hb]
    exact ⟨nofun, nofun⟩
  · rintro _ ⟨⟩
    unfold stateOf
    rw [hn]
    rfl
  · rw [hb]
    exact nofun

theorem of_answered {reply : Reply} (h : Answered i props s s' kind reply) : Clean kind i props s reply s' := by
  cases h with
  | unknown hk hb hs =>
    refine refusal ?_ (fun _ b hb' => absurd (hb.symm.trans hb') nofun) hs
    unfold refusal?
    rw [hb]
    cases kind <;> first | rfl | exact absurd rfl hk
  | alreadyFreed hb hs =>
    refine refusal ?_ nofun hs
    unfold refusal?
    rw [hb]
  | @refusedLoad b hb hst hs =>
    refine refusal ?_ (fun _ c hc => Option.some.inj (hb.symm.trans hc) ▸ hst) hs
    unfold refusal?
    rw [hb]
    exact if_pos hst
  | @load b x hb hst hd hb' =>
    refine kept ?_ hb hb' rfl fun _ hd' => ?_
    · unfold refusal?
      rw [hb]
      exact if_neg hst
    · rw [hd] at hd'
      cases hd'
  | @failedLoad b e hb hst hd hb' =>
    refine kept ?_ hb hb' rfl fun _ _ => ⟨rfl, rfl⟩
    unfold refusal?
    rw [hb]
    exact if_neg hst
  | @nothingToGiveBack b hb hst hs =>
    have hgrant : s.refusal? .destroySound i = none := by
      unfold refusal?
      rw [hb]
      exact if_neg (by rw [hst]; decide)
    have hc : Clean .destroySound i props s ⟨.ok b.state, props⟩ s' :=
      kept hgrant hb (hs ▸ hb) (by rw [hst]; rfl) nofun
    rwa [hst] at hc
  | @giveBack b hb hst _ hb' =>
    refine kept ?_ hb hb' rfl nofun
    unfold refusal?
    rw [hb]
    exact if_neg (by rw [hst]; decide)
  | @refusedGiveBack b hb hst hs =>
    refine refusal ?_ nofun hs
    unfold refusal?
    rw [hb]
    exact if_pos hst
  | free hb _ hn => exact freed hb hn

end Clean

/-! ### Settled bindings -/

/-- All bindings in the table are settled. -/
def Backstage.AllSettled (s : Backstage L) : Prop := ∀ i b, s.binding? i = some b → b.Settled

theorem Answered.settled {reply : Reply} (h : Answered i props s s' kind reply) (hs : s.AllSettled) {b : Binding}
    (hb : s'.binding? i = some b) : b.Settled := by
  cases h with
  | unknown _ _ he | alreadyFreed _ he | refusedLoad _ _ he | nothingToGiveBack _ _ he | refusedGiveBack _ _ he =>
    exact hs i b (he ▸ hb)
  | load _ _ _ hb' =>
    cases hb'.symm.trans hb
    exact ⟨.inr (.inl rfl), by simp⟩
  | failedLoad _ _ _ hb' =>
    cases hb'.symm.trans hb
    exact ⟨.inl rfl, by simp⟩
  | giveBack _ _ _ hb' =>
    cases hb'.symm.trans hb
    exact ⟨.inr (.inr rfl), by simp⟩
  | free _ _ hn => exact absurd (hn.symm.trans hb) nofun

namespace Backstage.AllSettled

variable [LawfulLoader L]

theorem perform (h : s.AllSettled) (c : BridgeCall) : (c.perform s).AllSettled := by
  intro j b hb
  cases c with
  | bind i path mode =>
    have hbegun := begun_bind s i path mode
    by_cases hj : j = i
    · subst hj
      cases hbegun.own.symm.trans hb
      exact .waiting path mode
    · exact h j b ((hbegun.others j hj).symm.trans hb)
  | dispatch kind i p =>
    obtain ⟨hheard, hanswered⟩ := answered_dispatch (p := p) (fun {b} => h i b) kind
    by_cases hj : j = i
    · subst hj
      exact hanswered.settled h hb
    · exact h j b ((hheard.others j hj).symm.trans hb)

theorem scenes (h : s.AllSettled) (scenes : List (Scene L)) : (scenes.foldl Scene.perform s).AllSettled := by
  induction scenes generalizing s with
  | nil => exact h
  | cons c rest ih =>
    -- a scene begins with the table that the last one left
    have hbegun : (c.begin s).AllSettled := h
    exact ih (hbegun.perform c.call)

end Backstage.AllSettled

end

/-- Whatever calls a new bridge was given, and whatever each of them found there to decode, the next callback is
refused or granted cleanly. -/
def DispatchesCleanly (L : Type) [Loader L] : Prop :=
  ∀ (disk now : Disk) (loader held : L) (scenes : List (Scene L)) (kind : CallbackKind) (i : InstanceId)
    (props : Props),
    let s := Scene.begin ⟨now, held, .dispatch kind i props⟩ (scenes.foldl Scene.perform { disk, loader })
    Clean kind i props s (s.dispatch kind i props).1 (s.dispatch kind i props).2

theorem DispatchesCleanly.of_lawful (L : Type) [Loader L] [LawfulLoader L] : DispatchesCleanly L := by
  intro disk now loader held scenes kind i props s
  have hnew : Backstage.AllSettled { disk, loader : Backstage L } := fun _ _ => nofun
  have hs : s.AllSettled := hnew.scenes scenes
  exact .of_answered (answered_dispatch (fun {b} => hs i b) kind).2

/-- Refusals are exact. In every state that calls of a bridge lead to, a callback is refused just for the reasons of
`refusal?`: its instance has no binding, or one that is loaded when a sound is asked for, or one that has given
its sound back when that is asked of it. Then the table and the count of the bridge, the loader and the props are
as before, and so is all else behind the stage. Otherwise the answer is the state that the binding is in from
then on; a file that cannot be decoded leaves it waiting. -/
theorem refusals_exact : DispatchesCleanly ScriptedLoader ∧ DispatchesCleanly StreamingLoader :=
  ⟨.of_lawful ScriptedLoader, .of_lawful StreamingLoader⟩

end Soundstage
