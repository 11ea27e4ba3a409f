import Soundstage.Proofs.Bridge.Answers

/-!
# Callbacks delivered

What reaches the bridge when an engine calls a receiver back. `Called` is all that callbacks of one
instance can do to the rest: other bindings stay, none is made, and the ledger of sounds is kept.
After the farewell of an instance whose receiver is the bridge its binding is gone
(`binding?_farewell`).
-/

namespace Soundstage

namespace Backstage

variable {L : Type}

/-- A binding that takes nobody's place is put in without more ado. -/
theorem bind_fresh [Loader L] {s : Backstage L} {i : InstanceId} (h : s.binding? i = none) (path : Path)
    (mode : DecodeMode) : s.bind i path mode = (.ok .awaitingLoad,
      (s.sayMove i .unbound .awaitingLoad).withTable
        (s.bridge.table.insert i ⟨path, mode, .awaitingLoad, none⟩)) := by
  unfold bind
  rw [Task.run_eq_run_step]
  simp only [Task.step, Task.stepBind, h, Task.succeed, Task.run_done]

/-- A farewell is one callback, or two if there is a sound to give back. -/
theorem farewell_cases [Loader L] (s : Backstage L) (receiver : Receiver) (i : InstanceId) (p : Props) :
    p.sound.isSome = false ∧ s.farewell receiver i p = (s.deliver receiver .destroyed i p).2 ∨
      p.sound.isSome = true ∧ s.farewell receiver i p = ((s.deliver receiver .destroySound i p).2.deliver receiver
        .destroyed i (s.deliver receiver .destroySound i p).1).2 := by
  unfold farewell
  cases p.sound.isSome
  · exact .inl ⟨rfl, rfl⟩
  · exact .inr ⟨rfl, rfl⟩

theorem report_eq (s : Backstage L) (kind : CallbackKind) (reply : Reply) :
    (s.report kind reply).disk = s.disk ∧ (s.report kind reply).bridge = s.bridge ∧
      (s.report kind reply).loader = s.loader := by
  unfold report
  split <;> exact ⟨rfl, rfl, rfl⟩

variable [Loader L] [LawfulLoader L]

/-- Callbacks of `i` led from `s` to `s'`. -/
structure Called (i : InstanceId) (s s' : Backstage L) : Prop where
  disk : s'.disk = s.disk
  others : ∀ j, j ≠ i → s'.binding? j = s.binding? j
  unmade : s.binding? i = none → s'.binding? i = none
  ledger : Ledger s' []

namespace Called

variable {s s' s'' : Backstage L} {i : InstanceId}

theorem trans (h : Called i s s') (h' : Called i s' s'') : Called i s s'' :=
  ⟨h'.disk.trans h.disk, fun j hj => (h'.others j hj).trans (h.others j hj),
    fun hn => h'.unmade (h.unmade hn), h'.ledger⟩

theorem of_eq (h : Ledger s []) (hd : s'.disk = s.disk) (hb : s'.bridge = s.bridge) (hl : s'.loader = s.loader) :
    Called i s s' := by
  have ht : s'.binding? = s.binding? := by funext j; unfold binding?; rw [hb]
  exact ⟨hd, fun j _ => by rw [ht], fun hn => by rw [ht]; exact hn, h.congr (by rw [hb]) hl⟩

theorem refl (h : Ledger s []) : Called i s s := of_eq h rfl rfl rfl

/-- A binding that is still there was there before. -/
theorem made (h : Called i s s') {j : InstanceId} (hj : s'.binding? j ≠ none) : s.binding? j ≠ none := by
  by_cases hji : j = i
  · subst hji; exact fun hn => hj (h.unmade hn)
  · rwa [h.others j hji] at hj

end Called

section

variable {s : Backstage L} {i : InstanceId} {p : Props}

theorem called_dispatch (h : Ledger s []) (kind : CallbackKind) :
    Called i s (s.dispatch kind i p).2 := by
  obtain ⟨ht, ha⟩ := answered_dispatch (i := i) (p := p) (fun hb => h.settled hb) kind
  refine ⟨ht.disk, ht.others, fun hn => ?_, h.dispatch kind i p⟩
  generalize s.dispatch kind i p = c at ha ⊢
  obtain ⟨reply, s'⟩ := c
  dsimp only at ha ⊢
  cases ha with
  | unknown _ _ hs => rw [hs]; exact hn
  | alreadyFreed _ hs => rw [hs]; exact hn
  | free _ _ hg => exact hg
  | refusedLoad hb => rw [hn] at hb; cases hb
  | load hb => rw [hn] at hb; cases hb
  | failedLoad hb => rw [hn] at hb; cases hb
  | nothingToGiveBack hb => rw [hn] at hb; cases hb
  | giveBack hb => rw [hn] at hb; cases hb
  | refusedGiveBack hb => rw [hn] at hb; cases hb

theorem called_deliver (h : Ledger s []) (receiver : Receiver) (kind : CallbackKind) :
    Called i s (s.deliver receiver kind i p).2 := by
  cases receiver with
  | lifecycle entity => exact .of_eq h rfl rfl rfl
  | host supplied => exact .of_eq h rfl rfl rfl
  | bridge =>
    have hc := called_dispatch (i := i) (p := p) h kind
    obtain ⟨hd, hb, hl⟩ := report_eq (s.dispatch kind i p).2 kind (s.dispatch kind i p).1
    exact hc.trans (.of_eq hc.ledger hd hb hl)

theorem called_farewell (h : Ledger s []) (receiver : Receiver) : Called i s (s.farewell receiver i p) := by
  rcases s.farewell_cases receiver i p with ⟨-, he⟩ | ⟨-, he⟩ <;> rw [he]
  · exact called_deliver h receiver .destroyed
  · have hc := called_deliver (i := i) (p := p) h receiver .destroySound
    exact hc.trans (called_deliver hc.ledger receiver .destroyed)

theorem binding?_deliver_destroyed (h : Ledger s []) :
    (s.deliver .bridge .destroyed i p).2.binding? i = none := by
  obtain ⟨-, ha⟩ := answered_dispatch (i := i) (p := p) (fun hb => h.settled hb) .destroyed
  obtain ⟨-, hb, -⟩ := report_eq (s.dispatch .destroyed i p).2 .destroyed (s.dispatch .destroyed i p).1
  have hgone : (s.dispatch .destroyed i p).2.binding? i = none := by
    generalize s.dispatch .destroyed i p = c at ha ⊢
    obtain ⟨reply, s'⟩ := c
    dsimp only at ha ⊢
    cases ha with
    | unknown hk => exact absurd rfl hk
    | alreadyFreed hn hs => rw [hs]; exact hn
    | free _ _ hg => exact hg
  unfold binding? at hgone ⊢
  rw [← hgone]
  exact congrArg (fun b : Bridge => b.table.get? i) hb

/-- The farewell of the bridge takes the binding along. -/
theorem binding?_farewell (h : Ledger s []) : (s.farewell .bridge i p).binding? i = none := by
  rcases s.farewell_cases .bridge i p with ⟨-, he⟩ | ⟨-, he⟩ <;> rw [he]
  · exact binding?_deliver_destroyed h
  · exact binding?_deliver_destroyed (called_deliver h .bridge .destroySound).ledger

end

end Backstage

end Soundstage
