import Mathlib.Tactic.Common
import Soundstage.Bridge
import Soundstage.Proofs.Loader.Lawful

/-!
# The ledger of sounds

`Ledger s held`: every live sound of the loader is owned once, by a loaded binding of the table or by a
call that is under way and holds it in `held`. A sound changes hands in four ways: decoded into
`held`, stored in a binding (`deposit`), taken out of one (`withdraw`), and released (`release`).
`Ledger.step` puts them together: an atomic step of a call keeps the ledger, as long as a sound that
is about to be stored finds its binding waiting (`Task.Fits`). Nothing else may come between the steps
for that, so the ledger holds after every complete call (`Ledger.run`).
-/

namespace Soundstage

open LawfulLoader

/-- The shape of a binding in the table: between its calls it waits, is loaded or has given its sound
back, and it has a sound just when it is loaded. -/
structure Binding.Settled (b : Binding) : Prop where
  state : b.state = .awaitingLoad ∨ b.state = .loaded ∨ b.state = .releasing
  sound : b.loaded.isSome = true ↔ b.state = .loaded

namespace Binding.Settled

variable {b : Binding}

theorem loaded_eq_none (h : b.Settled) (hs : b.state ≠ .loaded) : b.loaded = none := by
  have := mt h.sound.mp hs
  simpa using this

theorem waiting (path : Path) (mode : DecodeMode) : Settled ⟨path, mode, .awaitingLoad, none⟩ :=
  ⟨.inl rfl, by simp⟩

end Binding.Settled

namespace Backstage

variable {L : Type} (s : Backstage L) (i j : InstanceId)

@[simp]
theorem binding?_withTable (t : Table InstanceId Binding) : (s.withTable t).binding? i = t.get? i := rfl

theorem binding?_insert (b : Binding) :
    (s.withTable (s.bridge.table.insert i b)).binding? j = if j = i then some b else s.binding? j :=
  s.bridge.table.get?_insert j i b

theorem binding?_erase :
    (s.withTable (s.bridge.table.erase i)).binding? j = if j = i then none else s.binding? j :=
  s.bridge.table.get?_erase j i

theorem bridge_releaseLoaded [Loader L] (o : Option SoundId) : (s.releaseLoaded i o).bridge = s.bridge := by
  cases o with
  | none => rfl
  | some x => unfold releaseLoaded; dsimp only; split <;> rfl

theorem loader_releaseLoaded [Loader L] (o : Option SoundId) : (s.releaseLoaded i o).loader =
    (o.bind fun x => (Loader.release x s.loader).toOption).getD s.loader := by
  cases o with
  | none => rfl
  | some x =>
    unfold releaseLoaded
    dsimp only [Option.bind_some]
    cases Loader.release x s.loader <;> rfl

end Backstage

/-- Every live sound has one owner: a binding, or the list of sounds that calls under way hold. -/
structure Ledger {L : Type} [Loader L] [LawfulLoader L] (s : Backstage L) (held : List SoundId) : Prop where
  sane : Sane s.loader
  settled : ∀ {i b}, s.binding? i = some b → b.Settled
  live : ∀ x, IsLive s.loader x ↔ x ∈ held ∨ ∃ i b, s.binding? i = some b ∧ b.loaded = some x
  once : ∀ {i j b c x}, s.binding? i = some b → s.binding? j = some c →
    b.loaded = some x → c.loaded = some x → i = j
  nodup : held.Nodup
  apart : ∀ {i b x}, s.binding? i = some b → b.loaded = some x → x ∉ held

namespace Ledger

variable {L : Type} [Loader L] [LawfulLoader L] {s t : Backstage L} {held : List SoundId} {i : InstanceId}

theorem congr (h : Ledger s held) (ht : t.bridge.table = s.bridge.table) (hl : t.loader = s.loader) :
    Ledger t held := by
  have hb : t.binding? = s.binding? := by funext j; unfold Backstage.binding?; rw [ht]
  refine ⟨?_, ?_, ?_, ?_, h.nodup, ?_⟩ <;> simp only [hb, hl]
  exacts [h.sane, h.settled, h.live, h.once, h.apart]

/-- A loader with the same live sounds is as good. -/
theorem relend (h : Ledger s held) (ht : t.bridge.table = s.bridge.table) (hs : Sane t.loader)
    (hl : ∀ x, IsLive t.loader x ↔ IsLive s.loader x) : Ledger t held := by
  have hb : t.binding? = s.binding? := by funext j; unfold Backstage.binding?; rw [ht]
  refine ⟨hs, ?_, ?_, ?_, h.nodup, ?_⟩ <;> simp only [hb, hl]
  exacts [h.settled, h.live, h.once, h.apart]

theorem empty (ht : s.bridge.table = .empty) (hs : Sane s.loader) (hl : ∀ x, ¬IsLive s.loader x) :
    Ledger s [] := by
  have hb : ∀ j, s.binding? j = none := fun j => by unfold Backstage.binding?; rw [ht]; rfl
  refine ⟨hs, ?_, ?_, ?_, List.nodup_nil, ?_⟩ <;> simp [hb, hl]

/-! ### Sounds change hands -/

theorem decode_ok {path : Path} {mode : DecodeMode} {x : SoundId} (h : Ledger s held)
    (hd : s.decodeFile path mode = (.ok x, t)) : Ledger t (x :: held) := by
  unfold Backstage.decodeFile at hd
  cases hl : Loader.decode s.disk path mode s.loader with
  | mk result l' =>
    rw [hl] at hd
    cases hd
    obtain ⟨hnew, hsane, hlive⟩ := LawfulLoader.decode_ok h.sane hl
    refine ⟨hsane, h.settled, fun y => ?_, h.once, ?_, fun hb hx hm => ?_⟩
    · rw [hlive, h.live, List.mem_cons, or_assoc]; rfl
    · exact List.nodup_cons.mpr ⟨fun hm => hnew ((h.live _).mpr (.inl hm)), h.nodup⟩
    · rcases List.mem_cons.mp hm with rfl | hm
      · exact hnew ((h.live _).mpr (.inr ⟨_, _, hb, hx⟩))
      · exact h.apart hb hx hm

theorem decode_error {path : Path} {mode : DecodeMode} {e : AudioError} (h : Ledger s held)
    (hd : s.decodeFile path mode = (.error e, t)) : Ledger t held := by
  unfold Backstage.decodeFile at hd
  cases hl : Loader.decode s.disk path mode s.loader with
  | mk result l' =>
    rw [hl] at hd
    cases hd
    obtain ⟨hsane, hlive⟩ := LawfulLoader.decode_error h.sane hl
    exact h.relend rfl hsane hlive

theorem release {x : SoundId} (h : Ledger s (x :: held)) :
    ∃ l', Loader.release x s.loader = .ok l' ∧ Ledger { s with loader := l' } held := by
  obtain ⟨l', hr⟩ := release_isOk ((h.live x).mpr (.inl (List.mem_cons_self ..)))
  obtain ⟨hsane, hlive⟩ := release_ok h.sane hr
  obtain ⟨hx, hnd⟩ := List.nodup_cons.mp h.nodup
  refine ⟨l', hr, hsane, h.settled, fun y => ?_, h.once, hnd,
    fun hb hy hm => h.apart hb hy (List.mem_cons_of_mem _ hm)⟩
  rw [hlive, h.live, List.mem_cons]
  constructor
  · rintro ⟨hne, (rfl | hm) | hb⟩
    · exact absurd rfl hne
    · exact .inl hm
    · exact .inr hb
  · rintro (hm | ⟨j, b, hb, hy⟩)
    · exact ⟨fun e => hx (e ▸ hm), .inl (.inr hm)⟩
    · exact ⟨fun e => h.apart hb hy (e ▸ List.mem_cons_self ..), .inr ⟨j, b, hb, hy⟩⟩

/-- Give a held sound up, if there is one: the loader never refuses it. -/
theorem releaseLoaded {o : Option SoundId} (h : Ledger s (o.toList ++ held)) (i : InstanceId) :
    ∃ l', s.releaseLoaded i o = { s with loader := l' } ∧ Ledger { s with loader := l' } held := by
  cases o with
  | none => exact ⟨s.loader, rfl, h⟩
  | some x =>
    obtain ⟨l', hr, h'⟩ := release h
    refine ⟨l', ?_, h'⟩
    unfold Backstage.releaseLoaded
    dsimp only
    rw [hr]

/-- A held sound goes into a binding that had none. -/
theorem deposit {x : SoundId} {b d : Binding} (h : Ledger s (x :: held)) (hl : t.loader = s.loader)
    (ht : ∀ j, t.binding? j = if j = i then some d else s.binding? j) (hb : s.binding? i = some b)
    (hnone : b.loaded = none) (hs : d.Settled) (hx : d.loaded = some x) : Ledger t held := by
  have hold : ∀ {j c y}, t.binding? j = some c → c.loaded = some y →
      j = i ∧ y = x ∨ j ≠ i ∧ s.binding? j = some c := by
    intro j c y hc hy
    rw [ht] at hc
    split at hc
    · cases hc
      exact .inl ⟨‹_›, Option.some.inj (hy.symm.trans hx)⟩
    · exact .inr ⟨‹_›, hc⟩
  have hout : ∀ {j c}, s.binding? j = some c → c.loaded ≠ some x := fun hc hy =>
    h.apart hc hy (List.mem_cons_self ..)
  obtain ⟨hxm, hnd⟩ := List.nodup_cons.mp h.nodup
  refine ⟨hl ▸ h.sane, fun {j c} hc => ?_, fun y => ?_, fun {j k b₁ b₂ y} h₁ h₂ hy₁ hy₂ => ?_, hnd,
    fun {j c y} hc hy hm => ?_⟩
  · rw [ht] at hc
    split at hc
    · cases hc; exact hs
    · exact h.settled hc
  · rw [hl, h.live, List.mem_cons]
    constructor
    · rintro ((rfl | hm) | ⟨j, c, hc, hy⟩)
      · exact .inr ⟨i, d, by rw [ht, if_pos rfl], hx⟩
      · exact .inl hm
      · have hji : j ≠ i := by
          rintro rfl
          rw [hb] at hc; cases hc
          rw [hnone] at hy; cases hy
        exact .inr ⟨j, c, by rw [ht, if_neg hji]; exact hc, hy⟩
    · rintro (hm | ⟨j, c, hc, hy⟩)
      · exact .inl (.inr hm)
      · rcases hold hc hy with ⟨-, rfl⟩ | ⟨-, hc⟩
        · exact .inl (.inl rfl)
        · exact .inr ⟨j, c, hc, hy⟩
  · rcases hold h₁ hy₁ with ⟨rfl, rfl⟩ | ⟨-, h₁⟩ <;> rcases hold h₂ hy₂ with ⟨rfl, hyx⟩ | ⟨-, h₂⟩
    · rfl
    · exact absurd hy₂ (hout h₂)
    · exact absurd (hyx ▸ hy₁) (hout h₁)
    · exact h.once h₁ h₂ hy₁ hy₂
  · rcases hold hc hy with ⟨-, rfl⟩ | ⟨-, hc⟩
    · exact hxm hm
    · exact h.apart hc hy (List.mem_cons_of_mem _ hm)

/-- What was loaded under `i` is held after the table lost it. -/
theorem withdraw {n : Option Binding} (h : Ledger s held) (hl : t.loader = s.loader)
    (ht : ∀ j, t.binding? j = if j = i then n else s.binding? j)
    (hn : ∀ b', n = some b' → b'.Settled ∧ b'.loaded = none) :
    Ledger t (((s.binding? i).bind (·.loaded)).toList ++ held) := by
  have hold : ∀ {j c y}, t.binding? j = some c → c.loaded = some y → j ≠ i ∧ s.binding? j = some c := by
    intro j c y hc hy
    rw [ht] at hc
    split at hc
    · rw [(hn c hc).2] at hy; cases hy
    · exact ⟨‹_›, hc⟩
  have hmem : ∀ y, y ∈ ((s.binding? i).bind (·.loaded)).toList ↔
      ∃ b, s.binding? i = some b ∧ b.loaded = some y := by
    intro y
    rw [Option.mem_toList, Option.bind_eq_some_iff]
  refine ⟨hl ▸ h.sane, fun {j c} hc => ?_, fun y => ?_, fun {j k b₁ b₂ y} h₁ h₂ hy₁ hy₂ => ?_, ?_,
    fun {j c y} hc hy hm => ?_⟩
  · rw [ht] at hc
    split at hc
    · exact (hn c hc).1
    · exact h.settled hc
  · rw [hl, h.live, List.mem_append, hmem]
    constructor
    · rintro (hm | ⟨j, c, hc, hy⟩)
      · exact .inl (.inr hm)
      · by_cases hji : j = i
        · subst hji; exact .inl (.inl ⟨c, hc, hy⟩)
        · exact .inr ⟨j, c, by rw [ht, if_neg hji]; exact hc, hy⟩
    · rintro ((⟨c, hc, hy⟩ | hm) | ⟨j, c, hc, hy⟩)
      · exact .inr ⟨i, c, hc, hy⟩
      · exact .inl hm
      · exact .inr ⟨j, c, (hold hc hy).2, hy⟩
  · exact h.once (hold h₁ hy₁).2 (hold h₂ hy₂).2 hy₁ hy₂
  · refine List.nodup_append.mpr ⟨?_, h.nodup, ?_⟩
    · cases (s.binding? i).bind (·.loaded) <;> simp
    · rintro y hy z hz rfl
      obtain ⟨b, hb, hy⟩ := (hmem y).mp hy
      exact h.apart hb hy hz
  · obtain ⟨hji, hc⟩ := hold hc hy
    rcases List.mem_append.mp hm with hm | hm
    · obtain ⟨b, hb, hyb⟩ := (hmem y).mp hm
      exact hji (h.once hc hb hy hyb)
    · exact h.apart hc hy hm

end Ledger

/-! ### Steps of a call -/

namespace Task

variable {L : Type}

/-- The sounds that a call holds between two of its steps. -/
def held : Task → List SoundId
  | .retire _ stale => stale.toList
  | .store _ sound _ => [sound]
  | .discard _ sound _ => [sound]
  | .giveBack _ sound _ => sound.toList
  | .free _ b _ => b.loaded.toList
  | _ => []

/-- The sound that the next step gives back to the loader. -/
def givesBack : Task → Option SoundId
  | .retire _ stale => stale
  | .discard _ sound _ => some sound
  | .giveBack _ sound _ => sound
  | .free _ b _ => if b.state = .loaded then b.loaded else none
  | _ => none

/-- A binding that a call has taken out of the table is as it was there. -/
def Settled : Task → Prop
  | .free _ b _ => b.Settled
  | _ => True

/-- A sound that is about to be stored finds its binding waiting, if it finds one. -/
def Fits (s : Backstage L) : Task → Prop
  | .store i _ _ => ∀ b, s.binding? i = some b → b.state = .awaitingLoad
  | _ => True

/-- A call that nothing has interrupted: from its look-up to its store the binding waits. -/
def Undisturbed (s : Backstage L) : Task → Prop
  | .decode i _ _ _ => ∃ b, s.binding? i = some b ∧ b.state = .awaitingLoad
  | .store i _ _ => ∃ b, s.binding? i = some b ∧ b.state = .awaitingLoad
  | _ => True

theorem mem_held_of_givesBack {t : Task} {x : SoundId} (h : t.givesBack = some x) : x ∈ t.held := by
  cases t <;> simp only [givesBack, held] at h ⊢
  case retire => simpa using h
  case discard => simpa using h.symm
  case giveBack => simpa using h
  case free =>
    split at h
    · simpa using h
    · cases h
  all_goals cases h

theorem settled_step [Loader L] {s : Backstage L} (hs : ∀ {i b}, s.binding? i = some b → b.Settled) (t : Task) :
    (t.step s).1.Settled := by
  cases t with
  | remove i props =>
    simp only [step, stepRemove]
    split
    · trivial
    · exact hs ‹_›
  | bind | lookup | decode | store | unload | free =>
    simp only [step, stepBind, stepLookup, stepDecode, stepStore, stepUnload, stepFree]
    repeat' split
    all_goals trivial
  | retire | discard | giveBack | done => trivial

theorem Undisturbed.fits {s : Backstage L} {t : Task} (h : t.Undisturbed s) : t.Fits s := by
  cases t <;> try exact trivial
  case store =>
    obtain ⟨b, hb, hs⟩ := h
    intro c hc
    rw [hb] at hc
    cases hc
    exact hs

end Task

namespace Ledger

variable {L : Type} [Loader L] [LawfulLoader L] {s : Backstage L} {held : List SoundId} {i : InstanceId}

theorem stepBind (h : Ledger s held) (i : InstanceId) (path : Path) (mode : DecodeMode) :
    Ledger (Task.stepBind i path mode s).2 ((Task.stepBind i path mode s).1.held ++ held) := by
  have h' := h.withdraw (i := i) (n := some ⟨path, mode, .awaitingLoad, none⟩)
    (t := (s.sayMove i .unbound .awaitingLoad).withTable
      (s.bridge.table.insert i ⟨path, mode, .awaitingLoad, none⟩))
    rfl (fun j => s.binding?_insert i j _)
    (fun b' hb' => by cases hb'; exact ⟨.waiting path mode, rfl⟩)
  unfold Task.stepBind
  dsimp only
  cases hb : s.binding? i with
  | none => rw [hb] at h'; exact h'
  | some b => rw [hb] at h'; exact h'.congr rfl rfl

theorem stepLookup (h : Ledger s held) (i : InstanceId) (props : Props) :
    Ledger (Task.stepLookup i props s).2 ((Task.stepLookup i props s).1.held ++ held) := by
  unfold Task.stepLookup
  cases hb : s.binding? i with
  | none => exact h
  | some b =>
    dsimp only
    split
    · exact h
    · rename_i hst
      -- a binding that has given its sound back has none, so nothing is withdrawn
      have hnone := (h.settled hb).loaded_eq_none (by rw [hst]; decide)
      have hset : Binding.Settled { b with state := .awaitingLoad } := ⟨.inl rfl, by simp [hnone]⟩
      have h' := h.withdraw (i := i) (n := some { b with state := .awaitingLoad })
        (t := (s.sayMove i .releasing .awaitingLoad).withTable
          (s.bridge.table.insert i { b with state := .awaitingLoad }))
        rfl (fun j => s.binding?_insert i j _) (fun b' hb' => by cases hb'; exact ⟨hset, hnone⟩)
      have hbind : (s.binding? i).bind (·.loaded) = none := by rw [hb]; exact hnone
      rw [hbind] at h'
      exact h'
    · exact h

theorem stepDecode (h : Ledger s held) (i : InstanceId) (path : Path) (mode : DecodeMode) (props : Props) :
    Ledger (Task.stepDecode i path mode props s).2
      ((Task.stepDecode i path mode props s).1.held ++ held) := by
  unfold Task.stepDecode
  cases hd : s.decodeFile path mode with
  | mk result s' =>
    cases result with
    | ok x => exact h.decode_ok hd
    | error e => exact (h.decode_error hd).congr rfl rfl

theorem stepStore {x : SoundId} {props : Props} (h : Ledger s (x :: held))
    (hf : (Task.store i x props).Fits s) :
    Ledger (Task.stepStore i x props s).2 ((Task.stepStore i x props s).1.held ++ held) := by
  unfold Task.stepStore
  cases hb : s.binding? i with
  | none => exact h
  | some b =>
    have hst : b.state = .awaitingLoad := hf b hb
    have hnone := (h.settled hb).loaded_eq_none (by rw [hst]; decide)
    dsimp only
    rw [hst, if_pos (by decide)]
    exact h.deposit (d := { b with state := .loaded, loaded := some x }) rfl
      (fun j => s.binding?_insert i j _) hb hnone ⟨.inr (.inl rfl), by simp⟩ rfl

theorem stepUnload (h : Ledger s held) (i : InstanceId) (props : Props) :
    Ledger (Task.stepUnload i props s).2 ((Task.stepUnload i props s).1.held ++ held) := by
  unfold Task.stepUnload
  cases hb : s.binding? i with
  | none => exact h
  | some b =>
    dsimp only
    split
    · exact h
    split
    · have h' := h.withdraw (i := i) (n := some { b with state := .releasing, loaded := none })
        (t := (s.sayMove i b.state .releasing).withTable
          (s.bridge.table.insert i { b with state := .releasing, loaded := none }))
        rfl (fun j => s.binding?_insert i j _)
        (fun b' hb' => by cases hb'; exact ⟨⟨.inr (.inr rfl), by simp⟩, rfl⟩)
      rw [hb] at h'
      exact h'
    · exact h

theorem stepRemove (h : Ledger s held) (i : InstanceId) (props : Props) :
    Ledger (Task.stepRemove i props s).2 ((Task.stepRemove i props s).1.held ++ held) := by
  unfold Task.stepRemove
  cases hb : s.binding? i with
  | none => exact h
  | some b =>
    have h' := h.withdraw (i := i) (n := none) (t := s.withTable (s.bridge.table.erase i))
      rfl (fun j => s.binding?_erase i j) (fun b' hb' => by cases hb')
    rw [hb] at h'
    exact h'

/-- What stood in a table is freed without complaint, and its sound is released on the way. -/
theorem stepFree {b : Binding} (h : Ledger s (b.loaded.toList ++ held)) (hb : b.Settled) (i : InstanceId)
    (props : Props) :
    (Task.stepFree i b props s).1 = Task.succeed .freed props ∧ Ledger (Task.stepFree i b props s).2 held := by
  unfold Task.stepFree
  by_cases hst : b.state = .loaded
  · obtain ⟨l', hl, h'⟩ := (h.congr (t := (s.say .debug (i.text ++
      ": destroyed while its programmer sound was still loaded")).sayMove i .loaded .releasing)
      rfl rfl).releaseLoaded i
    rw [if_pos hst]
    dsimp only
    rw [hl, if_pos (by decide)]
    exact ⟨rfl, h'.congr rfl rfl⟩
  · rw [if_neg hst]
    have hfree : b.state.canBecome .freed = true := by
      rcases hb.state with hs | hs | hs
      · rw [hs]; rfl
      · exact absurd hs hst
      · rw [hs]; rfl
    rw [hb.loaded_eq_none hst] at h
    dsimp only
    rw [if_pos hfree]
    exact ⟨rfl, h.congr rfl rfl⟩

/-- An atomic step keeps the ledger, whatever other calls hold. -/
theorem step {t : Task} (h : Ledger s (t.held ++ held)) (ht : t.Settled) (hf : t.Fits s) :
    Ledger (t.step s).2 ((t.step s).1.held ++ held) := by
  cases t with
  | bind i path mode => exact h.stepBind i path mode
  | retire i stale =>
    obtain ⟨l', hl, h'⟩ := releaseLoaded h i
    rw [Task.step, hl]
    exact h'.congr rfl rfl
  | lookup i props => exact h.stepLookup i props
  | decode i path mode props => exact h.stepDecode i path mode props
  | store i x props => exact stepStore h hf
  | discard i x props =>
    obtain ⟨l', hl, h'⟩ := releaseLoaded (o := some x) h i
    rw [Task.step, hl]
    exact h'
  | unload i props => exact h.stepUnload i props
  | giveBack i o props =>
    obtain ⟨l', hl, h'⟩ := releaseLoaded h i
    rw [Task.step, hl]
    exact h'
  | remove i props => exact h.stepRemove i props
  | free i b props =>
    obtain ⟨hdone, h'⟩ := stepFree h ht i props
    rw [Task.step, hdone]
    exact h'
  | done reply => exact h

end Ledger

/-! ### Complete calls -/

namespace Task

variable {L : Type} [Loader L]

theorem Undisturbed.step {s : Backstage L} {t : Task} (h : t.Undisturbed s) :
    (t.step s).1.Undisturbed (t.step s).2 := by
  cases t with
  | lookup i props =>
    simp only [Task.step, stepLookup]
    split
    · trivial
    · rename_i b hb
      split
      · exact ⟨b, hb, ‹_›⟩
      · exact ⟨{ b with state := .awaitingLoad }, by rw [Backstage.binding?_withTable]; simp, rfl⟩
      · trivial
  | decode i path mode props =>
    obtain ⟨b, hb, hst⟩ := h
    simp only [Task.step, stepDecode, Backstage.decodeFile]
    cases Loader.decode s.disk path mode s.loader with
    | mk result l' =>
      cases result with
      | ok x => exact ⟨b, hb, hst⟩
      | error e => trivial
  | bind | store | unload | remove | free =>
    simp only [Task.step, stepBind, stepStore, stepUnload, stepRemove, stepFree]
    repeat' split
    all_goals trivial
  | _ => trivial

/-- A call after `n` steps that nothing interrupts. -/
def steps : Nat → Task → Backstage L → Task × Backstage L
  | 0, t, s => (t, s)
  | n + 1, t, s => steps n (t.step s).1 (t.step s).2

/-- These are the states that an uninterrupted call goes through. -/
theorem run_steps (n : Nat) (t : Task) (s : Backstage L) : (steps n t s).1.run (steps n t s).2 = t.run s := by
  induction n generalizing t s with
  | zero => rfl
  | succ n ih => rw [steps, ih, ← run_eq_run_step]

theorem run_keeps {P : Task → Backstage L → Prop} (hstep : ∀ t s, P t s → P (t.step s).1 (t.step s).2)
    (t : Task) (s : Backstage L) (h : P t s) : P (.done (t.run s).1) (t.run s).2 := by
  induction t, s using Task.run.induct with
  | case1 t s reply hr =>
    cases t <;> cases hr
    rw [run_done]
    exact h
  | case2 t s hr ih =>
    rw [run_eq_run_step]
    exact ih (hstep t s h)

end Task

/-- The books during a call that nothing interrupts. -/
structure Task.InOrder {L : Type} [Loader L] [LawfulLoader L] (t : Task) (s : Backstage L) : Prop where
  ledger : Ledger s t.held
  settled : t.Settled
  undisturbed : t.Undisturbed s

namespace Task.InOrder

variable {L : Type} [Loader L] [LawfulLoader L] {s : Backstage L} {t : Task}

theorem step (h : t.InOrder s) : (t.step s).1.InOrder (t.step s).2 := by
  have hl : Ledger s (t.held ++ []) := by rw [List.append_nil]; exact h.ledger
  have hstep := hl.step h.settled h.undisturbed.fits
  rw [List.append_nil] at hstep
  exact ⟨hstep, settled_step hl.settled t, h.undisturbed.step⟩

theorem steps (n : Nat) (h : t.InOrder s) : (Task.steps n t s).1.InOrder (Task.steps n t s).2 := by
  induction n generalizing t s with
  | zero => exact h
  | succ n ih => exact ih h.step

theorem bind (h : Ledger s []) (i : InstanceId) (path : Path) (mode : DecodeMode) :
    (Task.bind i path mode).InOrder s :=
  ⟨h, trivial, trivial⟩

theorem ofCallback (h : Ledger s []) (kind : CallbackKind) (i : InstanceId) (props : Props) :
    (Task.ofCallback kind i props).InOrder s := by
  cases kind <;> exact ⟨h, trivial, trivial⟩

theorem run (h : t.InOrder s) : Ledger (t.run s).2 [] :=
  (run_keeps (P := InOrder) (fun _ _ => step) t s h).ledger

end Task.InOrder

namespace Ledger

variable {L : Type} [Loader L] [LawfulLoader L] {s : Backstage L}

theorem bind (h : Ledger s []) (i : InstanceId) (path : Path) (mode : DecodeMode) :
    Ledger (s.bind i path mode).2 [] :=
  (Task.InOrder.bind h i path mode).run

theorem dispatch (h : Ledger s []) (kind : CallbackKind) (i : InstanceId) (props : Props) :
    Ledger (s.dispatch kind i props).2 [] :=
  (Task.InOrder.ofCallback h kind i props).run

end Ledger

end Soundstage
