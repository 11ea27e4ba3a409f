import Soundstage.Proofs.Bridge.Traces

/-!
# Bindings freed

The bridge counts the bindings that it has freed. Of the callbacks only the last one of an instance
frees a binding, if there is one, so a farewell frees the binding of the instance once
(`freed_farewell`).
-/

namespace Soundstage

namespace Task

variable {L : Type} {s : Backstage L} {i : InstanceId} {b : Binding} {p : Props}

/-- None of the steps of this call frees a binding. -/
def Frugal : Task → Prop
  | .bind .. | .retire .. | .remove .. | .free .. => False
  | _ => True

variable [Loader L]

theorem freed_releaseLoaded (s : Backstage L) (i : InstanceId) (o : Option SoundId) :
    (s.releaseLoaded i o).bridge.freed = s.bridge.freed := by
  rw [s.bridge_releaseLoaded]

theorem frugal_step {t : Task} (h : t.Frugal) :
    (t.step s).1.Frugal ∧ (t.step s).2.bridge.freed = s.bridge.freed := by
  cases t with
  | bind | retire | remove | free => exact h.elim
  | discard i x props => exact ⟨trivial, freed_releaseLoaded s i (some x)⟩
  | giveBack i o props => exact ⟨trivial, freed_releaseLoaded s i o⟩
  | decode i path mode props =>
    simp only [step, stepDecode, Backstage.decodeFile]
    cases Loader.decode s.disk path mode s.loader with
    | mk result l' => cases result <;> exact ⟨trivial, rfl⟩
  | lookup | store | unload =>
    simp only [step, stepLookup, stepStore, stepUnload]
    repeat' split
    all_goals exact ⟨trivial, rfl⟩
  | done reply => exact ⟨trivial, rfl⟩

theorem freed_run {t : Task} (h : t.Frugal) : (t.run s).2.bridge.freed = s.bridge.freed := by
  have hkeeps := run_keeps (P := fun t s' => t.Frugal ∧ s'.bridge.freed = s.bridge.freed)
    (fun t s' ⟨ht, hs'⟩ => ⟨(frugal_step ht).1, (frugal_step ht).2.trans hs'⟩) t s ⟨h, rfl⟩
  exact hkeeps.2

/-- A binding as it stood in the table is freed. -/
theorem freed_stepFree (hb : b.Settled) : (stepFree i b p s).2.bridge.freed = s.bridge.freed + 1 := by
  unfold stepFree
  by_cases hst : b.state = .loaded
  · rw [if_pos hst]
    dsimp only
    rw [if_pos (by decide)]
    exact congrArg (· + 1) (freed_releaseLoaded _ i b.loaded)
  · have hfree : b.state.canBecome .freed = true := by
      rcases hb.state with h | h | h
      · rw [h]; rfl
      · exact absurd h hst
      · rw [h]; rfl
    rw [if_neg hst]
    dsimp only
    rw [if_pos hfree]
    rfl

end Task

namespace Backstage

variable {L : Type} [Loader L] {s : Backstage L} {i : InstanceId} {b : Binding} {p : Props}

theorem freed_deliver (s : Backstage L) (kind : CallbackKind) :
    (s.deliver .bridge kind i p).2.bridge.freed = (s.dispatch kind i p).2.bridge.freed :=
  congrArg Bridge.freed (report_eq (s.dispatch kind i p).2 kind (s.dispatch kind i p).1).2.1

theorem freed_destroySound (s : Backstage L) :
    (s.deliver .bridge .destroySound i p).2.bridge.freed = s.bridge.freed :=
  (freed_deliver s .destroySound).trans (Task.freed_run (t := .unload i p) trivial)

theorem freed_destroyed (hb : s.binding? i = some b) (hs : b.Settled) :
    (s.deliver .bridge .destroyed i p).2.bridge.freed = s.bridge.freed + 1 := by
  rw [freed_deliver]
  simp only [dispatch, Task.ofCallback]
  rw [Task.run_eq_run_step]
  simp only [Task.step, Task.stepRemove, hb]
  rw [Task.run_eq_run_step]
  have hdone : (Task.stepFree i b p (s.withTable (s.bridge.table.erase i))).1.Frugal := by
    unfold Task.stepFree
    repeat' split
    all_goals trivial
  exact (Task.freed_run hdone).trans (Task.freed_stepFree hs)

/-- The farewell of an instance that says what its binding has loaded frees the binding. -/
theorem freed_farewell [LawfulLoader L] (hl : Ledger s []) (hb : s.binding? i = some b) (hp : p.sound = b.loaded) :
    (s.farewell .bridge i p).bridge.freed = s.bridge.freed + 1 := by
  rcases s.farewell_cases .bridge i p with ⟨-, he⟩ | ⟨hsound, he⟩ <;> rw [he]
  · exact freed_destroyed hb (hl.settled hb)
  · rw [hp] at hsound
    have hst : b.state = .loaded := (hl.settled hb).sound.mp hsound
    obtain ⟨-, hb', -⟩ := heard_destroySound (p := p) hl hb hst
    have hl' := (called_deliver (i := i) (p := p) hl .bridge .destroySound).ledger
    rw [freed_destroyed hb' (hl'.settled hb'), freed_destroySound]

theorem freed_farewell_other (receiver : Receiver) (h : receiver ≠ .bridge) :
    (s.farewell receiver i p).bridge.freed = s.bridge.freed := by
  cases receiver with
  | bridge => exact absurd rfl h
  | lifecycle entity => rcases s.farewell_cases (.lifecycle entity) i p with ⟨-, he⟩ | ⟨-, he⟩ <;> rw [he] <;> rfl
  | host supplied => rcases s.farewell_cases (.host supplied) i p with ⟨-, he⟩ | ⟨-, he⟩ <;> rw [he] <;> rfl

end Backstage

end Soundstage
