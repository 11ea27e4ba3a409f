import Soundstage.Proofs.Bridge.Ledger

/-!
# The answers of the bridge

`Answered` lists what a complete callback can come to: one case for each state its binding can be in,
and two where a file is decoded. `answered_dispatch` is the only place where the steps of a callback
are run through; all that follows about callbacks is read off its cases. `Heard` is the frame of
them all: nothing but the binding of the instance, the loader and the journal changes, and no
error is logged.
-/

namespace Soundstage

namespace Backstage

variable {L : Type}

/-- The journal of `s'` goes on from that of `s`, without an error. -/
def Quiet (s s' : Backstage L) : Prop :=
  ∃ lines, s'.journal = s.journal ++ lines ∧ ∀ line ∈ lines, line.level ≠ .error

namespace Quiet

variable {s s' s'' : Backstage L}

theorem of_eq (h : s'.journal = s.journal) : Quiet s s' :=
  ⟨[], by rw [h, List.append_nil], fun _ hm => absurd hm List.not_mem_nil⟩

theorem refl (s : Backstage L) : Quiet s s := of_eq rfl

theorem trans (h : Quiet s s') (h' : Quiet s' s'') : Quiet s s'' := by
  obtain ⟨l₁, e₁, q₁⟩ := h
  obtain ⟨l₂, e₂, q₂⟩ := h'
  refine ⟨l₁ ++ l₂, by rw [e₂, e₁, List.append_assoc], fun line hm => ?_⟩
  rcases List.mem_append.mp hm with hm | hm
  · exact q₁ line hm
  · exact q₂ line hm

theorem say (s : Backstage L) {level : Level} (text : String) (h : level ≠ .error) :
    Quiet s (s.say level text) :=
  ⟨[⟨level, text⟩], rfl, fun line hm => by cases List.mem_singleton.mp hm; exact h⟩

theorem no_error (h : Quiet s s') (hs : ∀ line ∈ s.journal, line.level ≠ .error) :
    ∀ line ∈ s'.journal, line.level ≠ .error := by
  obtain ⟨lines, e, q⟩ := h
  intro line hm
  rw [e] at hm
  rcases List.mem_append.mp hm with hm | hm
  · exact hs line hm
  · exact q line hm

end Quiet

/-- Of the bridge, at most the binding of `i` changes, and these are its answers on the way. -/
structure Heard (i : InstanceId) (answers : List Answer) (s s' : Backstage L) : Prop where
  disk : s'.disk = s.disk
  answered : s'.answered = s.answered ++ answers
  own : ∀ a ∈ answers, a.instanceId = i
  others : ∀ j, j ≠ i → s'.binding? j = s.binding? j
  quiet : Quiet s s'

namespace Heard

variable {s s' s'' : Backstage L} {i : InstanceId} {answers more : List Answer}

theorem silent (hdisk : s'.disk = s.disk) (hanswered : s'.answered = s.answered)
    (hothers : ∀ j, j ≠ i → s'.binding? j = s.binding? j) (hquiet : Quiet s s') : Heard i [] s s' :=
  ⟨hdisk, by rw [hanswered, List.append_nil], fun _ ha => absurd ha List.not_mem_nil, hothers, hquiet⟩

theorem refl (i : InstanceId) (s : Backstage L) : Heard i [] s s := silent rfl rfl (fun _ _ => rfl) (.refl s)

theorem trans (h : Heard i answers s s') (h' : Heard i more s' s'') : Heard i (answers ++ more) s s'' := by
  refine ⟨h'.disk.trans h.disk, by rw [h'.answered, h.answered, List.append_assoc], fun a ha => ?_,
    fun j hj => (h'.others j hj).trans (h.others j hj), h.quiet.trans h'.quiet⟩
  exact (List.mem_append.mp ha).elim (h.own a) (h'.own a)

theorem answer (h : Heard i [] s s') (kind : CallbackKind) (state : BindingState) :
    Heard i [⟨kind, i, .ok state⟩] s { s' with answered := s'.answered ++ [⟨kind, i, .ok state⟩] } := by
  refine ⟨h.disk, ?_, fun a ha => ?_, h.others, h.quiet⟩
  · dsimp only
    rw [h.answered, List.append_nil]
  · rw [List.mem_singleton.mp ha]

/-- The loader is not the bridge. -/
theorem relend (h : Heard i answers s s') (loader : L) : Heard i answers s { s' with loader } :=
  ⟨h.disk, h.answered, h.own, h.others, h.quiet⟩

theorem say (h : Heard i answers s s') (level : Level) (text : String) (hl : level ≠ .error) :
    Heard i answers s (s'.say level text) :=
  ⟨h.disk, h.answered, h.own, h.others, h.quiet.trans (.say s' text hl)⟩

theorem sayMove (h : Heard i answers s s') (source target : BindingState) :
    Heard i answers s (s'.sayMove i source target) :=
  h.say _ _ (by decide)

theorem insert (h : Heard i answers s s') (b : Binding) :
    Heard i answers s (s'.withTable (s'.bridge.table.insert i b)) :=
  ⟨h.disk, h.answered, h.own, fun j hj => by rw [binding?_insert, if_neg hj, h.others j hj], h.quiet⟩

theorem erase (h : Heard i answers s s') : Heard i answers s (s'.withTable (s'.bridge.table.erase i)) :=
  ⟨h.disk, h.answered, h.own, fun j hj => by rw [binding?_erase, if_neg hj, h.others j hj], h.quiet⟩

theorem countFreed (h : Heard i answers s s') : Heard i answers s s'.countFreed :=
  ⟨h.disk, h.answered, h.own, h.others, h.quiet⟩

variable [Loader L]

theorem releaseLoaded (h : Heard i answers s s') (o : Option SoundId) : Heard i answers s (s'.releaseLoaded i o) := by
  cases o with
  | none => exact h
  | some x =>
    unfold Backstage.releaseLoaded
    dsimp only
    split
    · exact h.relend _
    · exact h.say _ _ (by decide)

theorem decodeFile [LawfulLoader L] (s : Backstage L) (path : Path) (mode : DecodeMode) :
    Heard i [] s (s.decodeFile path mode).2 :=
  silent rfl rfl (fun _ _ => rfl) ⟨Loader.decodeLines L path mode, rfl, LawfulLoader.decodeLines_quiet⟩

end Heard

end Backstage

/-- What a callback comes to, by the binding it finds. -/
inductive Answered {L : Type} [Loader L] (i : InstanceId) (props : Props) (s s' : Backstage L) :
    CallbackKind → Reply → Prop
  | unknown {kind : CallbackKind} : kind ≠ .destroyed → s.binding? i = none → s' = s →
    Answered i props s s' kind ⟨.error (.unknownBinding i), props⟩
  | alreadyFreed : s.binding? i = none → s' = s →
    Answered i props s s' .destroyed ⟨.error (.bindingAlreadyFreed i), props⟩
  /-- A loaded binding cannot load. -/
  | refusedLoad {b : Binding} : s.binding? i = some b → b.state = .loaded → s' = s →
    Answered i props s s' .createSound ⟨.error (.invalidTransition i .loaded .loaded), props⟩
  | load {b : Binding} {x : SoundId} : s.binding? i = some b → b.state ≠ .loaded →
    Loader.decode s.disk b.path b.mode s.loader = (.ok x, s'.loader) →
    s'.binding? i = some { b with state := .loaded, loaded := some x } →
    Answered i props s s' .createSound ⟨.ok .loaded, ⟨some x, -1⟩⟩
  /-- The file cannot be decoded: the instance plays silence. -/
  | failedLoad {b : Binding} {e : AudioError} : s.binding? i = some b → b.state ≠ .loaded →
    Loader.decode s.disk b.path b.mode s.loader = (.error e, s'.loader) →
    s'.binding? i = some { b with state := .awaitingLoad, loaded := none } →
    Answered i props s s' .createSound ⟨.ok .awaitingLoad, { props with sound := none }⟩
  /-- There is nothing to give back after a load that failed. -/
  | nothingToGiveBack {b : Binding} : s.binding? i = some b → b.state = .awaitingLoad → s' = s →
    Answered i props s s' .destroySound ⟨.ok .awaitingLoad, props⟩
  | giveBack {b : Binding} : s.binding? i = some b → b.state = .loaded →
    s'.loader = (s.releaseLoaded i b.loaded).loader →
    s'.binding? i = some { b with state := .releasing, loaded := none } →
    Answered i props s s' .destroySound ⟨.ok .releasing, { props with sound := none }⟩
  | refusedGiveBack {b : Binding} : s.binding? i = some b → b.state = .releasing → s' = s →
    Answered i props s s' .destroySound ⟨.error (.invalidTransition i .releasing .releasing), props⟩
  | free {b : Binding} : s.binding? i = some b →
    s'.loader = (s.releaseLoaded i b.loaded).loader → s'.binding? i = none →
    Answered i props s s' .destroyed ⟨.ok .freed, props⟩

section Dispatch

variable {L : Type} [Loader L] {i : InstanceId} {p : Props} {s : Backstage L}

open Backstage

theorem answered_decode [LawfulLoader L] {b : Binding} (hb : s.binding? i = some b) (hst : b.state = .awaitingLoad)
    (hnone : b.loaded = none) :
    Heard i [] s ((Task.decode i b.path b.mode p).run s).2 ∧
      Answered i p s ((Task.decode i b.path b.mode p).run s).2 .createSound
        ((Task.decode i b.path b.mode p).run s).1 := by
  have hne : b.state ≠ .loaded := by rw [hst]; decide
  have touched : Heard i [] s (s.decodeFile b.path b.mode).2 := .decodeFile s b.path b.mode
  have hb' : (s.decodeFile b.path b.mode).2.binding? i = some b := hb
  have hl : Loader.decode s.disk b.path b.mode s.loader =
      ((s.decodeFile b.path b.mode).1, (s.decodeFile b.path b.mode).2.loader) := rfl
  rw [Task.run_eq_run_step]
  simp only [Task.step, Task.stepDecode]
  generalize s.decodeFile b.path b.mode = d at touched hb' hl ⊢
  obtain ⟨result, s'⟩ := d
  cases result with
  | error e =>
    simp only [Task.succeed, Task.run_done]
    refine ⟨touched.say _ _ (by decide), .failedLoad hb hne hl ?_⟩
    have : { b with state := .awaitingLoad, loaded := none } = b := by rw [← hst, ← hnone]
    rw [this]
    exact hb'
  | ok x =>
    dsimp only
    rw [Task.run_eq_run_step]
    have hfits : BindingState.awaitingLoad.canBecome .loaded = true := rfl
    simp only [Task.step, Task.stepStore, hb', hst, Task.succeed, if_pos hfits, Task.run_done]
    refine ⟨(touched.sayMove .awaitingLoad .loaded).insert _, .load hb hne hl ?_⟩
    rw [binding?_withTable, Table.get?_insert_self]

theorem answered_createSound [LawfulLoader L] (hs : ∀ {b}, s.binding? i = some b → b.Settled) :
    Heard i [] s (s.dispatch .createSound i p).2 ∧
      Answered i p s (s.dispatch .createSound i p).2 .createSound
        (s.dispatch .createSound i p).1 := by
  simp only [dispatch, Task.ofCallback]
  rw [Task.run_eq_run_step]
  simp only [Task.step, Task.stepLookup]
  cases hb : s.binding? i with
  | none =>
    simp only [Task.fail, Task.run_done]
    exact ⟨.refl i s, .unknown (by decide) hb rfl⟩
  | some b =>
    rcases (hs hb).state with hst | hst | hst <;> simp only [hst]
    · exact answered_decode hb hst ((hs hb).loaded_eq_none (by rw [hst]; decide))
    · simp only [Task.fail, Task.run_done]
      exact ⟨.refl i s, .refusedLoad hb hst rfl⟩
    · have hnone := (hs hb).loaded_eq_none (by rw [hst]; decide)
      let s₁ := (s.sayMove i .releasing .awaitingLoad).withTable
        (s.bridge.table.insert i { b with state := .awaitingLoad })
      have hb₁ : s₁.binding? i = some { b with state := .awaitingLoad } := by
        rw [binding?_withTable, Table.get?_insert_self]
      have touched : Heard i [] s s₁ := ((Heard.refl i s).sayMove .releasing .awaitingLoad).insert _
      obtain ⟨h₁, h₂⟩ := answered_decode (p := p) hb₁ rfl hnone
      refine ⟨touched.trans h₁, ?_⟩
      -- the second half has seen the binding wait: its cases are those of the first
      generalize (Task.decode i b.path b.mode p).run s₁ = c at h₁ h₂ ⊢
      obtain ⟨reply, s'⟩ := c
      have hne : b.state ≠ .loaded := by rw [hst]; decide
      dsimp only at h₂ ⊢
      cases h₂ with
      | unknown _ h => rw [hb₁] at h; cases h
      | refusedLoad h hl => rw [hb₁] at h; cases h; cases hl
      | load h _ hd hn => rw [hb₁] at h; cases h; exact .load hb hne hd hn
      | failedLoad h _ hd hn => rw [hb₁] at h; cases h; exact .failedLoad hb hne hd hn

theorem answered_destroySound (hs : ∀ {b}, s.binding? i = some b → b.Settled) :
    Heard i [] s (s.dispatch .destroySound i p).2 ∧
      Answered i p s (s.dispatch .destroySound i p).2 .destroySound
        (s.dispatch .destroySound i p).1 := by
  simp only [dispatch, Task.ofCallback]
  rw [Task.run_eq_run_step]
  simp only [Task.step, Task.stepUnload]
  cases hb : s.binding? i with
  | none =>
    simp only [Task.fail, Task.run_done]
    exact ⟨.refl i s, .unknown (by decide) hb rfl⟩
  | some b =>
    rcases (hs hb).state with hst | hst | hst <;> simp only [hst]
    · simp only [Task.succeed, if_true, Task.run_done]
      exact ⟨.refl i s, .nothingToGiveBack hb hst rfl⟩
    · simp only [if_neg (show ¬BindingState.loaded = .awaitingLoad by decide),
        if_pos (show BindingState.loaded.canBecome .releasing = true from rfl)]
      rw [Task.run_eq_run_step]
      simp only [Task.step, Task.succeed, Task.run_done]
      refine ⟨(((Heard.refl i s).sayMove .loaded .releasing).insert _).releaseLoaded _, .giveBack hb hst ?_ ?_⟩
      · rw [loader_releaseLoaded, loader_releaseLoaded]; rfl
      · unfold Backstage.binding?
        rw [bridge_releaseLoaded]
        exact Table.get?_insert_self ..
    · simp only [if_neg (show ¬BindingState.releasing = .awaitingLoad by decide),
        if_neg (show ¬BindingState.releasing.canBecome .releasing = true by decide), Task.fail, Task.run_done]
      exact ⟨.refl i s, .refusedGiveBack hb hst rfl⟩

theorem answered_destroyed (hs : ∀ {b}, s.binding? i = some b → b.Settled) :
    Heard i [] s (s.dispatch .destroyed i p).2 ∧
      Answered i p s (s.dispatch .destroyed i p).2 .destroyed (s.dispatch .destroyed i p).1 := by
  simp only [dispatch, Task.ofCallback]
  rw [Task.run_eq_run_step]
  simp only [Task.step, Task.stepRemove]
  cases hb : s.binding? i with
  | none =>
    simp only [Task.fail, Task.run_done]
    exact ⟨.refl i s, .alreadyFreed hb rfl⟩
  | some b =>
    dsimp only
    have erased : Heard i [] s (s.withTable (s.bridge.table.erase i)) := (Heard.refl i s).erase
    have hgone : (s.withTable (s.bridge.table.erase i)).binding? i = none := by
      rw [binding?_withTable, Table.get?_erase_self]
    have hloader : (s.withTable (s.bridge.table.erase i)).loader = s.loader := rfl
    generalize s.withTable (s.bridge.table.erase i) = s₁ at erased hgone hloader ⊢
    rw [Task.run_eq_run_step]
    simp only [Task.step, Task.stepFree]
    by_cases hst : b.state = .loaded
    · simp only [if_pos hst, if_pos (show BindingState.releasing.canBecome .freed = true from rfl), Task.succeed,
        Task.run_done]
      let s₂ := (s₁.say .debug (i.text ++ ": destroyed while its programmer sound was still loaded")).sayMove i
        .loaded .releasing
      have released : Heard i [] s (s₂.releaseLoaded i b.loaded) :=
        ((erased.say .debug _ (by decide)).sayMove .loaded .releasing).releaseLoaded b.loaded
      refine ⟨((released.sayMove .releasing .freed).countFreed).say _ _ (by decide), .free hb ?_ ?_⟩
      · rw [loader_releaseLoaded, ← hloader]
        exact s₂.loader_releaseLoaded i b.loaded
      · change (s₂.releaseLoaded i b.loaded).binding? i = none
        unfold Backstage.binding?
        rw [bridge_releaseLoaded]
        exact hgone
    · have hfree : b.state.canBecome .freed = true := by
        rcases (hs hb).state with h | h | h
        · rw [h]; rfl
        · exact absurd h hst
        · rw [h]; rfl
      simp only [if_neg hst, if_pos hfree, Task.succeed, Task.run_done]
      refine ⟨((erased.sayMove b.state .freed).countFreed).say _ _ (by decide), .free hb ?_ hgone⟩
      rw [(hs hb).loaded_eq_none hst]
      exact hloader

/-- Every callback of an instance with a settled binding, or without one, is answered. -/
theorem answered_dispatch [LawfulLoader L] (hs : ∀ {b}, s.binding? i = some b → b.Settled) (kind : CallbackKind) :
    Heard i [] s (s.dispatch kind i p).2 ∧
      Answered i p s (s.dispatch kind i p).2 kind (s.dispatch kind i p).1 := by
  cases kind with
  | createSound => exact answered_createSound hs
  | destroySound => exact answered_destroySound hs
  | destroyed => exact answered_destroyed hs

end Dispatch

end Soundstage
