import Soundstage.Loader.Scripted
import Soundstage.Loader.Streaming
import Soundstage.Proofs.Bridge.Ledger

/-!
# The course of a binding

Every move of a binding leaves a line in the journal, and from the line the move can be told
(`readMove_moveLine`). So the course that a binding takes during a call is read off the journal, and
it holds of any loader that writes no such lines itself. A complete call either sends the binding
of its instance on a course through the table (`Continued`), or takes it out and leads it to the end
(`Ended`); the calls are run through here once.
-/

namespace Soundstage

open BindingState

namespace BindingState

/-- The moves lead from one state to the other, each from where the one before it led. -/
inductive Course : BindingState → List (BindingState × BindingState) → BindingState → Prop
  | nil {a : BindingState} : Course a [] a
  | cons {a b c : BindingState} {ms : List (BindingState × BindingState)} :
    CanBecome a b → Course b ms c → Course a ((a, b) :: ms) c

namespace Course

variable {a b c : BindingState} {ms ns : List (BindingState × BindingState)}

theorem single (h : CanBecome a b) : Course a [(a, b)] b := .cons h .nil

theorem append (h : Course a ms b) (h' : Course b ns c) : Course a (ms ++ ns) c := by
  induction h with
  | nil => exact h'
  | cons hm _ ih => exact .cons hm (ih h')

end Course

/-- The states of bindings in the table. -/
def isStanding : BindingState → Bool
  | awaitingLoad | loaded | releasing => true
  | unbound | freed => false

/-- The last moves of a binding that is in the given state. -/
def parting (state : BindingState) : List (BindingState × BindingState) :=
  if state = loaded then [(loaded, releasing), (releasing, freed)] else [(state, freed)]

theorem course_parting {state : BindingState} (h : state.isStanding = true) : Course state state.parting .freed := by
  cases state with
  | unbound => cases h
  | freed => cases h
  | awaitingLoad => exact .single .freeWaiting
  | releasing => exact .single .freeReleased
  | loaded => exact .cons .release (.single .freeReleased)

end BindingState

/-! ### Moves in the journal -/

/-- The line that a move of the binding of `i` leaves. -/
def moveLine (i : InstanceId) (m : BindingState × BindingState) : Line :=
  ⟨.trace, i.text ++ ": programmer sound " ++ m.1.name ++ " -> " ++ m.2.name⟩

/-- The move that has left a line, if it is one of the binding of `i`. -/
def readMove (i : InstanceId) (line : Line) : Option (BindingState × BindingState) :=
  (all.flatMap fun a => all.map (a, ·)).find? fun m => line = moveLine i m

theorem mem_moves (m : BindingState × BindingState) : m ∈ all.flatMap fun a => all.map (a, ·) := by
  obtain ⟨a, b⟩ := m
  cases a <;> cases b <;> decide

theorem moveLine_injective {i : InstanceId} {m n : BindingState × BindingState} (h : moveLine i m = moveLine i n) :
    m = n := by
  have tails : ∀ m ∈ all.flatMap (fun a => all.map (a, ·)), ∀ n ∈ all.flatMap (fun a => all.map (a, ·)),
      m.1.name ++ (" -> " ++ m.2.name) = n.1.name ++ (" -> " ++ n.2.name) → m = n := by decide +kernel
  have htext := congrArg Line.text h
  simp only [moveLine, String.append_assoc, String.append_right_inj] at htext
  exact tails m (mem_moves m) n (mem_moves n) htext

@[simp]
theorem readMove_moveLine (i : InstanceId) (m : BindingState × BindingState) : readMove i (moveLine i m) = some m := by
  unfold readMove
  cases hf : (all.flatMap fun a => all.map (a, ·)).find? fun n => moveLine i m = moveLine i n with
  | none =>
    have hno := List.find?_eq_none.mp hf m (mem_moves m)
    simp at hno
  | some n =>
    have hn := List.find?_some hf
    rw [moveLine_injective (of_decide_eq_true hn)]

theorem readMove_eq_none {i : InstanceId} {line : Line} (h : ∀ m, line ≠ moveLine i m) : readMove i line = none := by
  unfold readMove
  refine List.find?_eq_none.mpr fun m _ => ?_
  simpa using h m

theorem readMove_of_level {i : InstanceId} {line : Line} (h : line.level ≠ .trace) : readMove i line = none :=
  readMove_eq_none fun _ e => h (congrArg Line.level e)

/-- No line of the loader reads like a move. -/
def Loader.Unmoved (L : Type) [Loader L] : Prop :=
  ∀ path mode i, ∀ line ∈ Loader.decodeLines L path mode, readMove i line = none

theorem ScriptedLoader.unmoved : Loader.Unmoved ScriptedLoader := fun _ _ _ _ h => absurd h List.not_mem_nil

theorem StreamingLoader.unmoved : Loader.Unmoved StreamingLoader := by
  intro path mode i line h
  rw [List.mem_singleton.mp h]
  refine readMove_eq_none fun m e => ?_
  -- a move begins with the name of its instance
  have hhead := congrArg (fun line => line.text.toList.head?) e
  simp [moveLine, InstanceId.text] at hhead

namespace Backstage

variable {L : Type} {s s' s'' : Backstage L} {i : InstanceId} {ms ns : List (BindingState × BindingState)}

/-- The journal of `s'` goes on from that of `s`, and these are the moves of `i` that it tells of. -/
def Noted (i : InstanceId) (ms : List (BindingState × BindingState)) (s s' : Backstage L) : Prop :=
  ∃ lines, s'.journal = s.journal ++ lines ∧ lines.filterMap (readMove i) = ms

/-- The moves that the journal has told of since `s`. -/
def moved (i : InstanceId) (s s' : Backstage L) : List (BindingState × BindingState) :=
  (s'.journal.drop s.journal.length).filterMap (readMove i)

namespace Noted

theorem moved_eq (h : Noted i ms s s') : moved i s s' = ms := by
  obtain ⟨lines, e, hl⟩ := h
  rw [moved, e, List.drop_left, hl]

theorem of_eq (h : s'.journal = s.journal) : Noted i [] s s' := ⟨[], by rw [h, List.append_nil], rfl⟩

theorem trans (h : Noted i ms s s') (h' : Noted i ns s' s'') : Noted i (ms ++ ns) s s'' := by
  obtain ⟨lines, e, rfl⟩ := h
  obtain ⟨more, e', rfl⟩ := h'
  exact ⟨lines ++ more, by rw [e', e, List.append_assoc], List.filterMap_append⟩

theorem say (h : Noted i ms s s') {level : Level} (text : String) (hl : level ≠ .trace) :
    Noted i ms s (s'.say level text) := by
  have hline : Noted i [] s' (s'.say level text) :=
    ⟨[⟨level, text⟩], rfl, by rw [List.filterMap_cons_none (readMove_of_level hl)]; rfl⟩
  exact List.append_nil ms ▸ h.trans hline

theorem sayMove (h : Noted i ms s s') (a b : BindingState) : Noted i (ms ++ [(a, b)]) s (s'.sayMove i a b) := by
  refine h.trans ⟨[moveLine i (a, b)], rfl, ?_⟩
  rw [List.filterMap_cons_some (readMove_moveLine i (a, b))]
  rfl

theorem releaseLoaded [Loader L] (h : Noted i ms s s') (o : Option SoundId) : Noted i ms s (s'.releaseLoaded i o) := by
  cases o with
  | none => exact h
  | some x =>
    unfold Backstage.releaseLoaded
    dsimp only
    split
    · exact List.append_nil ms ▸ h.trans (.of_eq rfl)
    · exact h.say _ (by decide)

theorem decodeFile [Loader L] (hL : Loader.Unmoved L) (s : Backstage L) (path : Path) (mode : DecodeMode) :
    Noted i [] s (s.decodeFile path mode).2 :=
  ⟨Loader.decodeLines L path mode, rfl, List.filterMap_eq_nil_iff.mpr (hL path mode i)⟩

end Noted

/-! ### What a call makes of a binding -/

theorem binding?_of_table (h : s'.bridge.table = s.bridge.table) (j : InstanceId) : s'.binding? j = s.binding? j :=
  congrArg (·.get? j) h

/-- The binding of `i` has gone on its course and still stands in the table. -/
structure Continued (i : InstanceId) (b b' : Binding) (ms : List (BindingState × BindingState))
    (s s' : Backstage L) : Prop where
  own : s'.binding? i = some b'
  file : b'.path = b.path ∧ b'.mode = b.mode
  others : ∀ j, j ≠ i → s'.binding? j = s.binding? j
  bound : s'.boundCount = s.boundCount
  freed : s'.bridge.freed = s.bridge.freed
  standing : b'.state.isStanding = true
  course : Course b.state ms b'.state
  noted : Noted i ms s s'

namespace Continued

variable {b b' b'' : Binding}

theorem refl (hb : s.binding? i = some b) (hs : b.state.isStanding = true) : Continued i b b [] s s :=
  ⟨hb, ⟨rfl, rfl⟩, fun _ _ => rfl, rfl, rfl, hs, .nil, .of_eq rfl⟩

theorem trans (h : Continued i b b' ms s s') (h' : Continued i b' b'' ns s' s'') :
    Continued i b b'' (ms ++ ns) s s'' :=
  ⟨h'.own, ⟨h'.file.1.trans h.file.1, h'.file.2.trans h.file.2⟩, fun j hj => (h'.others j hj).trans (h.others j hj),
    h'.bound.trans h.bound, h'.freed.trans h.freed, h'.standing, h.course.append h'.course, h.noted.trans h'.noted⟩

theorem calm (h : Continued i b b' ms s s') (hb : s''.bridge = s'.bridge) (hn : Noted i ms s s'') :
    Continued i b b' ms s s'' := by
  have hbinding := binding?_of_table (congrArg Bridge.table hb)
  refine ⟨(hbinding i).trans h.own, h.file, fun j hj => (hbinding j).trans (h.others j hj), ?_, ?_, h.standing,
    h.course, hn⟩
  · exact (congrArg (fun b => b.table.size) hb).trans h.bound
  · exact (congrArg Bridge.freed hb).trans h.freed

theorem move (hb : s.binding? i = some b) {state : BindingState} (loaded : Option SoundId)
    (hm : CanBecome b.state state) (hs : state.isStanding = true) :
    Continued i b { b with state, loaded } [(b.state, state)] s
      ((s.sayMove i b.state state).withTable (s.bridge.table.insert i { b with state, loaded })) := by
  refine ⟨?_, ⟨rfl, rfl⟩, fun j hj => ?_, Table.size_insert_of_some _ hb, rfl, hs, .single hm, ?_⟩
  · rw [binding?_withTable, Table.get?_insert_self]
  · exact Table.get?_insert_of_ne _ _ hj
  · exact (Noted.of_eq rfl).sayMove b.state state

end Continued

/-- The binding of `i` was taken out of the table and counted, at the end of its course. -/
structure Ended (i : InstanceId) (b : Binding) (s s' : Backstage L) : Prop where
  own : s'.binding? i = none
  others : ∀ j, j ≠ i → s'.binding? j = s.binding? j
  bound : s'.boundCount + 1 = s.boundCount
  freed : s'.bridge.freed = s.bridge.freed + 1
  noted : Noted i b.state.parting s s'

variable [Loader L] {b : Binding} {p : Props}

theorem continued_decode (hL : Loader.Unmoved L) (hb : s.binding? i = some b) (hst : b.state = .awaitingLoad) :
    ∃ b' ms, Continued i b b' ms s ((Task.decode i b.path b.mode p).run s).2 := by
  have hstanding : b.state.isStanding = true := by rw [hst]; rfl
  have touched : Continued i b b [] s (s.decodeFile b.path b.mode).2 :=
    (Continued.refl hb hstanding).calm rfl (.decodeFile hL s b.path b.mode)
  rw [Task.run_eq_run_step]
  simp only [Task.step, Task.stepDecode]
  generalize s.decodeFile b.path b.mode = d at touched ⊢
  obtain ⟨result, s'⟩ := d
  cases result with
  | error e =>
    simp only [Task.succeed, Task.run_done]
    exact ⟨b, [], touched.calm rfl (touched.noted.say _ (by decide))⟩
  | ok x =>
    dsimp only
    rw [Task.run_eq_run_step]
    have hfits : BindingState.awaitingLoad.canBecome .loaded = true := rfl
    have hmove := Continued.move touched.own (some x) (canBecome_iff.mp (hst ▸ hfits)) rfl
    simp only [Task.step, Task.stepStore, touched.own, hst, Task.succeed, if_pos hfits, Task.run_done]
    rw [hst] at hmove
    exact ⟨_, _, touched.trans hmove⟩

theorem continued_createSound (hL : Loader.Unmoved L) (hb : s.binding? i = some b) (hs : b.state.isStanding = true) :
    ∃ b' ms, Continued i b b' ms s (s.dispatch .createSound i p).2 := by
  simp only [dispatch, Task.ofCallback]
  rw [Task.run_eq_run_step]
  simp only [Task.step, Task.stepLookup, hb]
  cases hst : b.state with
  | unbound =>
    rw [hst] at hs
    cases hs
  | freed =>
    rw [hst] at hs
    cases hs
  | awaitingLoad => exact continued_decode hL hb hst
  | loaded =>
    simp only [Task.fail, Task.run_done]
    exact ⟨b, [], .refl hb hs⟩
  | releasing =>
    have hreload : BindingState.CanBecome b.state .awaitingLoad := hst ▸ .reload
    have hmove := Continued.move hb b.loaded hreload rfl
    rw [hst] at hmove
    obtain ⟨b', ms, hrest⟩ := continued_decode (p := p) hL hmove.own rfl
    exact ⟨b', _, hmove.trans hrest⟩

theorem continued_destroySound (hb : s.binding? i = some b) (hs : b.state.isStanding = true) :
    ∃ b' ms, Continued i b b' ms s (s.dispatch .destroySound i p).2 := by
  simp only [dispatch, Task.ofCallback]
  rw [Task.run_eq_run_step]
  simp only [Task.step, Task.stepUnload, hb]
  split
  · simp only [Task.succeed, Task.run_done]
    exact ⟨b, [], .refl hb hs⟩
  split
  · rename_i hrelease
    have hmove := Continued.move hb none (canBecome_iff.mp hrelease) rfl
    rw [Task.run_eq_run_step]
    simp only [Task.step, Task.succeed, Task.run_done]
    exact ⟨_, _, hmove.calm (bridge_releaseLoaded _ i b.loaded) (hmove.noted.releaseLoaded b.loaded)⟩
  · simp only [Task.fail, Task.run_done]
    exact ⟨b, [], .refl hb hs⟩

/-- The last callback is accepted, whatever state the binding is in. -/
theorem ended_destroyed (hb : s.binding? i = some b) (hs : b.state.isStanding = true) :
    (s.dispatch .destroyed i p).1.result = .ok .freed ∧ Ended i b s (s.dispatch .destroyed i p).2 := by
  have hsize : (s.withTable (s.bridge.table.erase i)).boundCount + 1 = s.boundCount := Table.size_erase hb
  have hgone : ∀ j, (s.withTable (s.bridge.table.erase i)).binding? j = if j = i then none else s.binding? j :=
    s.binding?_erase i
  have hnoted : Noted i [] s (s.withTable (s.bridge.table.erase i)) := .of_eq rfl
  have hfreed : (s.withTable (s.bridge.table.erase i)).bridge.freed = s.bridge.freed := rfl
  simp only [dispatch, Task.ofCallback]
  rw [Task.run_eq_run_step]
  simp only [Task.step, Task.stepRemove, hb]
  generalize s.withTable (s.bridge.table.erase i) = s₁ at hsize hgone hnoted hfreed ⊢
  rw [Task.run_eq_run_step]
  -- only the bridge and the journal of the state that is left matter
  have ended : ∀ {s' : Backstage L}, s'.bridge = { s₁.bridge with freed := s₁.bridge.freed + 1 } →
      Noted i b.state.parting s s' → Ended i b s s' := by
    intro s' hbridge hn
    have hbinding : ∀ j, s'.binding? j = s₁.binding? j := binding?_of_table (by rw [hbridge])
    refine ⟨by rw [hbinding, hgone, if_pos rfl], fun j hj => by rw [hbinding, hgone, if_neg hj], ?_, ?_, hn⟩
    · rw [← hsize, boundCount, hbridge]
      rfl
    · rw [hbridge, ← hfreed]
  by_cases hst : b.state = .loaded
  · let s₂ := (s₁.say .debug (i.text ++ ": destroyed while its programmer sound was still loaded")).sayMove i
      .loaded .releasing
    have hreleased : (s₂.releaseLoaded i b.loaded).bridge = s₁.bridge := bridge_releaseLoaded s₂ i b.loaded
    have hnoted₂ := ((hnoted.say (i.text ++ ": destroyed while its programmer sound was still loaded")
      (by decide : Level.debug ≠ .trace)).sayMove .loaded .releasing).releaseLoaded b.loaded
    simp only [Task.step, Task.stepFree, if_pos hst,
      if_pos (show BindingState.releasing.canBecome .freed = true from rfl), Task.succeed, Task.run_done]
    refine ⟨trivial, ended ?_ ?_⟩
    · change { (s₂.releaseLoaded i b.loaded).bridge with freed := (s₂.releaseLoaded i b.loaded).bridge.freed + 1 } = _
      rw [hreleased]
    · rw [parting, if_pos hst]
      exact (hnoted₂.sayMove .releasing .freed).say _ (by decide)
  · have hfree : b.state.canBecome .freed = true := by
      cases hb' : b.state <;> simp_all [isStanding, canBecome]
    simp only [Task.step, Task.stepFree, if_neg hst, if_pos hfree, Task.succeed, Task.run_done]
    refine ⟨trivial, ended rfl ?_⟩
    rw [parting, if_neg hst]
    exact (hnoted.sayMove b.state .freed).say _ (by decide)

/-- Without a binding, every callback is refused and changes nothing. -/
theorem dispatch_unbound (hb : s.binding? i = none) (kind : CallbackKind) :
    (∃ e, (s.dispatch kind i p).1.result = .error e) ∧ (s.dispatch kind i p).2 = s := by
  simp only [dispatch, Task.ofCallback]
  cases kind <;> dsimp only <;> rw [Task.run_eq_run_step] <;>
    simp only [Task.step, Task.stepLookup, Task.stepUnload, Task.stepRemove, hb, Task.fail, Task.run_done] <;>
    exact ⟨⟨_, rfl⟩, trivial⟩

/-- What a callback comes to. -/
inductive Dispatched (i : InstanceId) (s : Backstage L) : CallbackKind → Reply × Backstage L → Prop
  | refused {kind : CallbackKind} {reply : Reply} {e : AudioError} : s.binding? i = none → reply.result = .error e →
    Dispatched i s kind (reply, s)
  | continued {kind : CallbackKind} {reply : Reply} {s' : Backstage L} {b b' : Binding}
    {ms : List (BindingState × BindingState)} : s.binding? i = some b → kind ≠ .destroyed → Continued i b b' ms s s' →
    Dispatched i s kind (reply, s')
  | ended {reply : Reply} {s' : Backstage L} {b : Binding} : s.binding? i = some b → reply.result = .ok .freed →
    Ended i b s s' → Dispatched i s .destroyed (reply, s')

theorem dispatched (hL : Loader.Unmoved L) (hs : ∀ {b}, s.binding? i = some b → b.state.isStanding = true)
    (kind : CallbackKind) : Dispatched i s kind (s.dispatch kind i p) := by
  cases hb : s.binding? i with
  | none =>
    obtain ⟨⟨e, he⟩, hsame⟩ := dispatch_unbound (p := p) hb kind
    generalize s.dispatch kind i p = c at he hsame
    obtain ⟨reply, s'⟩ := c
    cases hsame
    exact .refused hb he
  | some b =>
    cases kind with
    | createSound =>
      obtain ⟨b', ms, hc⟩ := continued_createSound (p := p) hL hb (hs hb)
      exact .continued hb nofun hc
    | destroySound =>
      obtain ⟨b', ms, hc⟩ := continued_destroySound (p := p) hb (hs hb)
      exact .continued hb nofun hc
    | destroyed =>
      obtain ⟨hok, he⟩ := ended_destroyed (p := p) hb (hs hb)
      exact .ended hb hok he

/-- A new binding was put into the table; one that was there before is counted. -/
structure Begun (i : InstanceId) (path : Path) (mode : DecodeMode) (s s' : Backstage L) : Prop where
  own : s'.binding? i = some ⟨path, mode, .awaitingLoad, none⟩
  others : ∀ j, j ≠ i → s'.binding? j = s.binding? j
  counted : s.binding? i = none ∧ s'.boundCount = s.boundCount + 1 ∧ s'.bridge.freed = s.bridge.freed ∨
    s.binding? i ≠ none ∧ s'.boundCount = s.boundCount ∧ s'.bridge.freed = s.bridge.freed + 1
  noted : Noted i [(.unbound, .awaitingLoad)] s s'

theorem begun_bind (s : Backstage L) (i : InstanceId) (path : Path) (mode : DecodeMode) :
    Begun i path mode s (s.bind i path mode).2 := by
  have hown : ∀ j, ((s.sayMove i .unbound .awaitingLoad).withTable
      (s.bridge.table.insert i ⟨path, mode, .awaitingLoad, none⟩)).binding? j =
        if j = i then some ⟨path, mode, .awaitingLoad, none⟩ else s.binding? j := fun j => s.binding?_insert i j _
  have hnoted : Noted i [(.unbound, .awaitingLoad)] s ((s.sayMove i .unbound .awaitingLoad).withTable
      (s.bridge.table.insert i ⟨path, mode, .awaitingLoad, none⟩)) := (Noted.of_eq rfl).sayMove .unbound .awaitingLoad
  unfold bind
  rw [Task.run_eq_run_step]
  simp only [Task.step, Task.stepBind]
  cases hb : s.binding? i with
  | none =>
    simp only [Task.succeed, Task.run_done]
    refine ⟨by rw [hown, if_pos rfl], fun j hj => by rw [hown, if_neg hj], .inl ⟨hb, ?_, rfl⟩, hnoted⟩
    exact Table.size_insert _ hb
  | some stale =>
    have hsize : ((s.sayMove i .unbound .awaitingLoad).withTable
        (s.bridge.table.insert i ⟨path, mode, .awaitingLoad, none⟩)).boundCount = s.boundCount :=
      Table.size_insert_of_some _ hb
    have hfreed : ((s.sayMove i .unbound .awaitingLoad).withTable
        (s.bridge.table.insert i ⟨path, mode, .awaitingLoad, none⟩)).bridge.freed = s.bridge.freed := rfl
    dsimp only
    rw [Task.run_eq_run_step]
    simp only [Task.step, Task.succeed, Task.run_done]
    generalize (s.sayMove i .unbound .awaitingLoad).withTable _ = s₁ at hown hnoted hsize hfreed ⊢
    have hreplaced := hnoted.say (i.text ++ ": replaced a programmer sound binding that was never freed")
      (by decide : Level.error ≠ .trace)
    generalize hs₂ : s₁.say .error _ = s₂ at hreplaced ⊢
    have hbridge : (s₂.releaseLoaded i stale.loaded).bridge = s₁.bridge := by
      rw [bridge_releaseLoaded, ← hs₂]
      rfl
    have hbinding : ∀ j, (s₂.releaseLoaded i stale.loaded).countFreed.binding? j = s₁.binding? j :=
      binding?_of_table (by rw [countFreed, hbridge])
    refine ⟨by rw [hbinding, hown, if_pos rfl], fun j hj => by rw [hbinding, hown, if_neg hj],
      .inr ⟨by rw [hb]; exact Option.some_ne_none stale, ?_, ?_⟩, hreplaced.releaseLoaded stale.loaded⟩
    · rw [← hsize, boundCount, countFreed, hbridge]
      rfl
    · rw [countFreed, hbridge, hfreed]

end Backstage

end Soundstage
