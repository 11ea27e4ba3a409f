import Soundstage.Proofs.Bridge.Courses
import Soundstage.Proofs.Engine.Departures

/-!
# Farewells

All that the farewell of an instance leaves behind, in one equation each for the bridge and for the other receivers. It
is read off the instance and its binding alone, and just adds to what was logged, answered and seen before
(`farewell_bridge`, `farewell_other`).
-/

namespace Soundstage

open BindingState

/-- What the bridge logs when it frees the binding of `i` for good. -/
def Binding.lastLines (i : InstanceId) (b : Binding) : List Line :=
  b.state.parting.map (moveLine i) ++
    [⟨.debug, i.text ++ ": released programmer sound binding for '" ++ b.path.text ++ "'"⟩]

/-- The callbacks of a farewell. -/
def Props.lastCalls (p : Props) : List CallbackKind :=
  (if p.sound.isSome then [.destroySound] else []) ++ [.destroyed]

namespace Backstage

variable {L : Type}

/-- What the farewell of `i` adds to the journal. -/
def lastLines (s : Backstage L) (receiver : Receiver) (i : InstanceId) (p : Props) : List Line :=
  match receiver with
  | .bridge => (s.binding? i).elim [] (Binding.lastLines i)
  | .lifecycle entity => p.lastCalls.map fun kind =>
    ⟨.trace, "Audio: " ++ entity.text ++ " " ++ i.text ++ " callback " ++ kind.name⟩
  | .host _ => []

/-- What a host sees of the farewell of `i`. -/
def lastSeen (receiver : Receiver) (i : InstanceId) (p : Props) : List (CallbackKind × InstanceId) :=
  match receiver with
  | .host _ => p.lastCalls.map (·, i)
  | _ => []

variable [Loader L] {s : Backstage L} {i : InstanceId} {p : Props} {b : Binding}

theorem releaseLoaded_of_ok {x : SoundId} {l : L} (h : Loader.release x s.loader = .ok l) (i : InstanceId) :
    s.releaseLoaded i (some x) = { s with loader := l } := by
  unfold releaseLoaded
  dsimp only
  rw [h]

theorem deliver_destroyed (hb : s.binding? i = some b) (hs : b.state.isStanding = true) (hst : b.state ≠ .loaded) :
    (s.deliver .bridge .destroyed i p).2 =
      { s with
        bridge := ⟨s.bridge.table.erase i, s.bridge.freed + 1⟩
        journal := s.journal ++ b.lastLines i
        answered := s.answered ++ [⟨.destroyed, i, .ok .freed⟩] } := by
  have hfree : b.state.canBecome .freed = true := by
    cases hb' : b.state <;> simp_all [isStanding, canBecome]
  have hdispatch : s.dispatch .destroyed i p = (⟨.ok .freed, p⟩,
      { s with
        bridge := ⟨s.bridge.table.erase i, s.bridge.freed + 1⟩
        journal := s.journal ++ b.lastLines i }) := by
    simp only [dispatch, Task.ofCallback]
    rw [Task.run_eq_run_step]
    simp only [Task.step, Task.stepRemove, hb]
    rw [Task.run_eq_run_step]
    simp only [Task.step, Task.stepFree, if_neg hst, if_pos hfree, Task.succeed, Task.run_done]
    simp [Binding.lastLines, parting, if_neg hst, say, sayMove, countFreed, withTable, moveLine]
  rw [deliver_ok s .destroyed i p (by rw [hdispatch]), hdispatch]

theorem deliver_destroySound {x : SoundId} {l : L} (hb : s.binding? i = some b) (hst : b.state = .loaded)
    (hx : b.loaded = some x) (hl : Loader.release x s.loader = .ok l) :
    (s.deliver .bridge .destroySound i p).2 =
      { s with
        loader := l
        bridge := { s.bridge with table := s.bridge.table.insert i { b with state := .releasing, loaded := none } }
        journal := s.journal ++ [moveLine i (.loaded, .releasing)]
        answered := s.answered ++ [⟨.destroySound, i, .ok .releasing⟩] } := by
  have hdispatch : s.dispatch .destroySound i p = (⟨.ok .releasing, { p with sound := none }⟩,
      { s with
        loader := l
        bridge := { s.bridge with table := s.bridge.table.insert i { b with state := .releasing, loaded := none } }
        journal := s.journal ++ [moveLine i (.loaded, .releasing)] }) := by
    simp only [dispatch, Task.ofCallback]
    rw [Task.run_eq_run_step]
    simp only [Task.step, Task.stepUnload, hb, hst, if_neg (show ¬BindingState.loaded = .awaitingLoad by decide),
      if_pos (show BindingState.loaded.canBecome .releasing = true from rfl)]
    rw [Task.run_eq_run_step]
    simp only [Task.step, Task.succeed, Task.run_done, hx]
    have hl' : Loader.release x ((s.sayMove i .loaded .releasing).withTable
        (s.bridge.table.insert i { b with state := .releasing, loaded := none })).loader = .ok l := hl
    rw [releaseLoaded_of_ok hl']
    rfl
  rw [deliver_ok s .destroySound i p (by rw [hdispatch]), hdispatch]

/-- The bridge frees the binding, with its sound if there is one. -/
theorem farewell_bridge [LawfulLoader L] (hl : Ledger s []) (hb : s.binding? i = some b) (hp : p.sound = b.loaded) :
    s.farewell .bridge i p =
      { s with
        loader := (s.releaseLoaded i b.loaded).loader
        bridge := ⟨s.bridge.table.erase i, s.bridge.freed + 1⟩
        journal := s.journal ++ b.lastLines i
        answered := s.answered ++ closing i b.loaded } := by
  have hsettled := hl.settled hb
  have hstanding : ∀ {b : Binding}, b.Settled → b.state.isStanding = true := fun h => by
    rcases h.state with h | h | h <;> rw [h] <;> rfl
  cases hx : b.loaded with
  | none =>
    have hst : b.state ≠ .loaded := fun hst => by
      have hsome := hsettled.sound.mpr hst
      rw [hx] at hsome
      cases hsome
    rcases s.farewell_cases .bridge i p with ⟨-, he⟩ | ⟨hsound, -⟩
    · rw [he, deliver_destroyed hb (hstanding hsettled) hst]
      rfl
    · rw [hp, hx] at hsound
      cases hsound
  | some x =>
    have hst : b.state = .loaded := hsettled.sound.mp (by rw [hx]; rfl)
    obtain ⟨l, hrelease⟩ := LawfulLoader.release_isOk ((hl.live x).mpr (.inr ⟨i, b, hb, hx⟩))
    rcases s.farewell_cases .bridge i p with ⟨hsound, -⟩ | ⟨-, he⟩
    · rw [hp, hx] at hsound
      cases hsound
    · have hgiven := deliver_destroySound (p := p) hb hst hx hrelease
      have hb' : (s.deliver .bridge .destroySound i p).2.binding? i =
          some { b with state := .releasing, loaded := none } := by
        rw [hgiven]
        exact Table.get?_insert_self ..
      rw [he, deliver_destroyed hb' rfl nofun, hgiven, releaseLoaded_of_ok hrelease]
      simp [Table.erase_insert, Binding.lastLines, parting, hst, closing]

/-- Others just note the callbacks. -/
theorem farewell_other {receiver : Receiver} (h : receiver ≠ .bridge) : s.farewell receiver i p =
    { s with
      journal := s.journal ++ s.lastLines receiver i p
      seen := s.seen ++ lastSeen receiver i p } := by
  unfold farewell
  cases receiver with
  | bridge => exact absurd rfl h
  | lifecycle entity => cases hp : p.sound <;> simp [deliver, lastLines, lastSeen, Props.lastCalls, say, hp]
  | host supplied => cases hp : p.sound <;> simp [deliver, lastLines, lastSeen, Props.lastCalls, hp]

/-- The farewell of an instance that the bridge serves if there is a binding, and that says what that has loaded. -/
theorem parting_eq [LawfulLoader L] (hl : Ledger s []) {receiver : Option Receiver}
    (hserved : receiver = some .bridge ↔ s.binding? i ≠ none) (hp : p.sound = (s.binding? i).bind Binding.loaded) :
    (receiver.elim s fun receiver => s.farewell receiver i p) =
      { s with
        loader := (s.releaseLoaded i ((s.binding? i).bind Binding.loaded)).loader
        bridge := ⟨s.bridge.table.erase i, s.bridge.freed + if (s.binding? i).isSome then 1 else 0⟩
        journal := s.journal ++ receiver.elim [] fun receiver => s.lastLines receiver i p
        answered := s.answered ++ s.owed i
        seen := s.seen ++ receiver.elim [] fun receiver => lastSeen receiver i p } := by
  by_cases hr : receiver = some .bridge
  · obtain ⟨b, hb⟩ := Option.ne_none_iff_exists'.mp (hserved.mp hr)
    rw [hb] at hp
    rw [hr, Option.elim_some, farewell_bridge hl hb hp]
    simp [lastLines, lastSeen, owed, hb]
  · have hb : s.binding? i = none := Classical.byContradiction fun hb => hr (hserved.mpr hb)
    rw [Table.erase_of_get?_eq_none hb, owed, hb]
    cases receiver with
    | none => simp [releaseLoaded]
    | some receiver =>
      rw [Option.elim_some, farewell_other (by simpa using hr)]
      simp [releaseLoaded]

end Backstage

end Soundstage
