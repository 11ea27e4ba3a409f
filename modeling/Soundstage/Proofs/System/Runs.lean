import Soundstage.Proofs.System.Requests

/-!
# Runs

A run takes turns: requests to the system, and events that befall its engine and its surroundings.
Events may end instances and call receivers, but they make nothing; where they are drifts, a
system that starts out empty is in order at every point of every run (`Orderly.run`).
-/

namespace Soundstage

open Playable Staged Function

inductive Turn (V : Type)
  | request (request : Request)
  | event (event : V)

namespace Turn

variable {E L V : Type} [Loader L] [Engine E L]

/-- Take a turn, where `happen` says what an event does. -/
def take (happen : V → Rig E L → Rig E L) (t : Turn V) (s : System E L) : System E L :=
  match t with
  | request q => (q.perform s).2
  | event v => { s with rig := happen v s.rig }

/-- Take turns, oldest first. -/
def run (happen : V → Rig E L → Rig E L) (turns : List (Turn V)) (s : System E L) : System E L :=
  turns.foldl (fun s t => t.take happen s) s

theorem run_append (happen : V → Rig E L → Rig E L) (turns more : List (Turn V)) (s : System E L) :
    run happen (turns ++ more) s = run happen more (run happen turns s) := List.foldl_append

end Turn

namespace Orderly

section

variable {E L X S : Type} [Loader L] [LawfulLoader L] [Staged E X S] [Playable X S]

theorem start {engine : E} {loader : L} (config : Config) (disk : Disk)
    (hi : ∀ j, (instances engine).get? j = none) (hs : LawfulLoader.Sane loader)
    (hl : ∀ x, ¬LawfulLoader.IsLive loader x) : Orderly (System.ofEngine engine config loader disk).view := by
  have hh : ∀ o, (System.ofEngine engine config loader disk).view.handles o = [] := by
    rintro (e | _) <;> rfl
  have hnone : ∀ {i}, (System.ofEngine engine config loader disk).view.rig.instance? i = none := fun {i} => hi i
  refine ⟨.empty rfl hs hl, fun hb => absurd rfl hb, fun hn => absurd hnone hn, fun hg => ?_, fun o => ?_,
    fun hg => ?_, fun hg => ?_, fun hx => ?_⟩
  · rw [hh] at hg; cases hg
  · rw [hh]; exact .nil
  · rw [hh] at hg; cases hg
  · rw [hh] at hg; cases hg
  · rw [hnone] at hx; cases hx

end

variable {E L X S V : Type} [Loader L] [LawfulLoader L] [Engine E L] [Staged E X S] [Playable X S]
  [LawfulEngine E L X S] {s : System E L} {happen : V → Rig E L → Rig E L}

theorem take (hd : ∀ v (r : Rig E L), Ledger r.toBackstage [] → Drift r (happen v r)) (h : Orderly s.view)
    (t : Turn V) : Orderly (t.take happen s).view := by
  cases t with
  | request q => exact q.orderly h
  | event v => exact h.drift (hd v s.rig h.ledger)

theorem run (hd : ∀ v (r : Rig E L), Ledger r.toBackstage [] → Drift r (happen v r)) (h : Orderly s.view)
    (turns : List (Turn V)) : Orderly (Turn.run happen turns s).view := by
  induction turns generalizing s with
  | nil => exact h
  | cons t rest ih => exact ih (h.take hd t)

/-- What holds of a system in order and is kept by moves and by events holds after every run. -/
theorem run_keeps {P : View E L → Prop} (hd : ∀ v (r : Rig E L), Ledger r.toBackstage [] → Drift r (happen v r))
    (hmove : ∀ {v w d}, Orderly v → Move v d w → P v → P w)
    (hevent : ∀ {v : View E L} (e : V), Orderly v → P v → P (v.withRig (happen e v.rig)))
    (ho : Orderly s.view) (h : P s.view) (turns : List (Turn V)) : P (Turn.run happen turns s).view := by
  induction turns generalizing s with
  | nil => exact h
  | cons t rest ih =>
    refine ih (ho.take hd t) ?_
    cases t with
    | request q => exact q.keeps hmove ho h
    | event e => exact hevent e ho h

end Orderly

end Soundstage
