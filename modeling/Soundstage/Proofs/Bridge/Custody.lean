import Soundstage.Proofs.Bridge.Ledger

/-!
# Custody of decoded sounds

A bridge that is used call by call over a scripted loader of its own, with any files there at any call.
Main statement: `sounds_in_custody`, no sound is lost, shared or released twice.
-/

namespace Soundstage

/-- A call of the bridge. -/
inductive BridgeCall
  | bind (i : InstanceId) (path : Path) (mode : DecodeMode)
  | dispatch (kind : CallbackKind) (i : InstanceId) (props : Props)

/-- A call and the files that can be decoded while it lasts. -/
structure BridgeTurn where
  disk : Disk
  files : List Path
  call : BridgeCall

namespace BridgeCall

variable {L : Type} [Loader L]

def task : BridgeCall → Task
  | bind i path mode => .bind i path mode
  | dispatch kind i props => .ofCallback kind i props

def perform (c : BridgeCall) (s : Backstage L) : Backstage L :=
  match c with
  | bind i path mode => (s.bind i path mode).2
  | dispatch kind i props => (s.dispatch kind i props).2

theorem perform_eq (c : BridgeCall) (s : Backstage L) : c.perform s = (c.task.run s).2 := by
  cases c <;> rfl

theorem inOrder [LawfulLoader L] {s : Backstage L} (h : Ledger s []) (c : BridgeCall) : c.task.InOrder s := by
  cases c with
  | bind i path mode => exact .bind h i path mode
  | dispatch kind i props => exact .ofCallback h kind i props

end BridgeCall

namespace BridgeTurn

def begin (t : BridgeTurn) (s : Backstage ScriptedLoader) : Backstage ScriptedLoader :=
  { s with disk := t.disk, loader := { s.loader with files := t.files } }

def perform (s : Backstage ScriptedLoader) (t : BridgeTurn) : Backstage ScriptedLoader :=
  t.call.perform (t.begin s)

end BridgeTurn

namespace Task

/-- A step touches the loader in two ways: it decodes a file, or it gives back a sound. -/
theorem loader_step {L : Type} [Loader L] (t : Task) (s : Backstage L) :
    (t.step s).2.loader =
      match t with
      | .decode _ path mode _ => (Loader.decode s.disk path mode s.loader).2
      | t => (t.givesBack.bind fun x => (Loader.release x s.loader).toOption).getD s.loader := by
  cases t with
  | retire i stale => exact s.loader_releaseLoaded i stale
  | discard i x props => exact s.loader_releaseLoaded i (some x)
  | giveBack i o props => exact s.loader_releaseLoaded i o
  | decode i path mode props =>
    simp only [step, stepDecode, Backstage.decodeFile]
    cases Loader.decode s.disk path mode s.loader with
    | mk result l' => cases result <;> rfl
  | free i b props =>
    simp only [step, stepFree, givesBack]
    by_cases hst : b.state = .loaded
    · rw [if_pos hst, if_pos hst]
      dsimp only
      rw [if_pos (by decide)]
      exact Backstage.loader_releaseLoaded _ i b.loaded
    · rw [if_neg hst, if_neg hst]
      dsimp only
      split <;> rfl
  | bind | lookup | store | unload | remove =>
    simp only [step, stepBind, stepLookup, stepStore, stepUnload, stepRemove]
    repeat' split
    all_goals rfl
  | done reply => rfl

theorem balanced_step (t : Task) (s : Backstage ScriptedLoader) (h : s.loader.Balanced) :
    (t.step s).2.loader.Balanced := by
  have release : ∀ o : Option SoundId,
      ((o.bind fun x => (Loader.release x s.loader).toOption).getD s.loader).Balanced := by
    intro o
    cases o with
    | none => exact h
    | some x =>
      cases hr : s.loader.release x with
      | ok l' => rw [Option.bind_some, show Loader.release x s.loader = .ok l' from hr]; exact h.release hr
      | error e => rw [Option.bind_some, show Loader.release x s.loader = .error e from hr]; exact h
  rw [loader_step]
  split
  · exact h.decode
  · exact release _

end Task

/-- What holds between two turns. -/
structure Custody (s : Backstage ScriptedLoader) : Prop where
  ledger : Ledger s []
  balanced : s.loader.Balanced

namespace Custody

variable {s : Backstage ScriptedLoader}

theorem start (disk : Disk) (files : List Path) : Custody { disk, loader := .ofFiles files } :=
  ⟨.empty rfl (ScriptedLoader.Balanced.ofFiles files).sane fun _ h => h rfl, .ofFiles files⟩

theorem begin (h : Custody s) (t : BridgeTurn) : Custody (t.begin s) :=
  ⟨h.ledger.relend rfl h.ledger.sane fun _ => Iff.rfl, h.balanced.withFiles t.files⟩

theorem perform (h : Custody s) (t : BridgeTurn) : Custody (t.perform s) := by
  unfold BridgeTurn.perform
  rw [BridgeCall.perform_eq]
  have hbalanced := Task.run_keeps (P := fun _ (s : Backstage ScriptedLoader) => s.loader.Balanced)
    Task.balanced_step t.call.task (t.begin s) (h.begin t).balanced
  exact ⟨(BridgeCall.inOrder (h.begin t).ledger t.call).run, hbalanced⟩

theorem turns (h : Custody s) (turns : List BridgeTurn) : Custody (turns.foldl BridgeTurn.perform s) := by
  induction turns generalizing s with
  | nil => exact h
  | cons t rest ih => exact ih (h.perform t)

end Custody

/-- No decoded sound is lost, shared or released twice. After any calls of a new bridge, with any files
there at each: every binding waits, is loaded or has given its sound back, and has a sound just
when it is loaded; the live sounds are those of the loaded bindings, each of one binding; no sound
that a further call gives back, at any of its steps, is refused; and what was decoded and not
released is live. -/
theorem sounds_in_custody (disk : Disk) (files : List Path) (turns : List BridgeTurn) :
    let s := turns.foldl BridgeTurn.perform { disk, loader := .ofFiles files }
    (∀ i b, s.binding? i = some b →
      (b.state = .awaitingLoad ∨ b.state = .loaded ∨ b.state = .releasing) ∧
        (b.loaded.isSome = true ↔ b.state = .loaded)) ∧
    (∀ x, s.loader.live.contains x = true ↔
      ∃ i b, s.binding? i = some b ∧ b.state = .loaded ∧ b.loaded = some x) ∧
    (∀ i j b c x, s.binding? i = some b → s.binding? j = some c →
      b.loaded = some x → c.loaded = some x → i = j) ∧
    (∀ (t : BridgeTurn) (n : Nat), let c := Task.steps n t.call.task (t.begin s)
      (c.1.run c.2).2 = t.perform s ∧ ∀ x, c.1.givesBack = some x → ∃ l, c.2.loader.release x = .ok l) ∧
    s.loader.decodes = s.loader.live.size + s.loader.releases := by
  intro s
  have h : Custody s := (Custody.start disk files).turns turns
  refine ⟨fun i b hb => ⟨(h.ledger.settled hb).state, (h.ledger.settled hb).sound⟩, fun x => ?_,
    fun i j b c x => h.ledger.once, fun t n => ⟨?_, fun x hx => ?_⟩, h.balanced.decodes⟩
  · rw [Table.contains_iff, ← Option.ne_none_iff_exists']
    refine (h.ledger.live x).trans ?_
    constructor
    · rintro (hm | ⟨i, b, hb, hx⟩)
      · exact absurd hm List.not_mem_nil
      · exact ⟨i, b, hb, (h.ledger.settled hb).sound.mp (by rw [hx]; rfl), hx⟩
    · rintro ⟨i, b, hb, -, hx⟩
      exact .inr ⟨i, b, hb, hx⟩
  · rw [Task.run_steps]
    exact (BridgeCall.perform_eq t.call (t.begin s)).symm
  · have ho := (BridgeCall.inOrder (h.begin t).ledger t.call).steps n
    exact LawfulLoader.release_isOk ((ho.ledger.live x).mpr (.inl (Task.mem_held_of_givesBack hx)))

end Soundstage
