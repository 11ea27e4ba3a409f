import Soundstage.Proofs.Bridge.Courses
import Soundstage.Proofs.Bridge.Custody

/-!
# Careers

A bridge that is used call by call, whatever disk and loader each call finds. The chronicle of the calls
follows every binding that was ever made, from the journal and the answers alone: what a bound instance
has gone through so far is in `current`, and a binding that was replaced or destroyed is in `past`.
Main statement: `careers_faithful`, each binding takes a lawful course and is counted once, when it ends.
-/

namespace Soundstage

open BindingState Backstage Function

namespace BindingState

theorem Course.opening {ms : List (BindingState × BindingState)} {state : BindingState} (h : Course unbound ms state)
    (hs : state.isStanding = true) : ∃ rest, ms = (unbound, awaitingLoad) :: rest ∧ Course awaitingLoad rest state := by
  cases h with
  | nil => cases hs
  | @cons _ b _ rest hm hrest =>
    -- the only move away from `unbound` is to be bound
    cases hm
    exact ⟨rest, rfl, hrest⟩

theorem ne_freed {state : BindingState} (h : state.isStanding = true) : state ≠ freed := by
  rintro rfl
  cases h

end BindingState

/-! ### The chronicle -/

/-- How a binding has ended. -/
inductive Fate
  /-- Another one was bound to its instance. -/
  | replaced
  /-- Its instance is gone. -/
  | destroyed
  deriving DecidableEq

/-- All that a binding has gone through. -/
structure Career where
  instanceId : InstanceId
  moves : List (BindingState × BindingState)
  fate : Fate

namespace BridgeCall

def instanceId : BridgeCall → InstanceId
  | bind i _ _ | dispatch _ i _ => i

variable {L : Type} [Loader L]

def answer (c : BridgeCall) (s : Backstage L) : Except AudioError BindingState :=
  match c with
  | bind i path mode => (s.bind i path mode).1
  | dispatch kind i props => (s.dispatch kind i props).1.result

end BridgeCall

/-- A call, and the disk and the loader that it finds. -/
structure Scene (L : Type) where
  disk : Disk
  loader : L
  call : BridgeCall

def Scene.begin {L : Type} (c : Scene L) (s : Backstage L) : Backstage L :=
  { s with disk := c.disk, loader := c.loader }

structure Chronicle (L : Type) where
  stage : Backstage L
  /-- The moves so far of the bindings in the table. -/
  current : InstanceId → Option (List (BindingState × BindingState)) := fun _ => none
  past : List Career := []
  /-- How often a file was bound. -/
  binds : Nat := 0
  /-- How often the bridge has accepted that an instance is gone. -/
  farewells : Nat := 0

/-- A binding in the table, and the moves that have led it where it is. -/
def Binding.Running (ms : List (BindingState × BindingState)) (b : Binding) : Prop :=
  b.state.isStanding = true ∧ Course .unbound ms b.state

namespace Chronicle

variable {L : Type}

/-- What holds between two scenes. -/
structure Told (h : Chronicle L) : Prop where
  current : ∀ i, Option.Rel Binding.Running (h.current i) (h.stage.binding? i)
  replaced : ∀ k ∈ h.past, k.fate = .replaced → ∃ state, state.isStanding = true ∧ Course .unbound k.moves state
  destroyed : ∀ k ∈ h.past, k.fate = .destroyed → ∃ ms state, state.isStanding = true ∧ Course .unbound ms state ∧
    k.moves = ms ++ state.parting
  binds : h.binds = h.stage.boundCount + h.stage.bridge.freed
  freed : h.past.length = h.stage.bridge.freed
  farewells : h.farewells = h.past.countP (·.fate = .destroyed)

namespace Told

variable {h : Chronicle L} {s' : Backstage L} {i : InstanceId} {b b' : Binding}
  {ms : List (BindingState × BindingState)}

theorem start (disk : Disk) (loader : L) : Told { stage := { disk, loader } } :=
  ⟨fun _ => .none, fun _ hk => absurd hk List.not_mem_nil, fun _ hk => absurd hk List.not_mem_nil, rfl, rfl, rfl⟩

theorem bound (t : h.Told) (hb : h.stage.binding? i = some b) : ∃ ms, h.current i = some ms ∧ b.Running ms := by
  have hrel := t.current i
  rw [hb] at hrel
  generalize h.current i = c at hrel
  cases hrel with
  | some hms => exact ⟨_, rfl, hms⟩

theorem standing (t : h.Told) (hb : h.stage.binding? i = some b) : b.state.isStanding = true := by
  obtain ⟨-, -, hstanding, -⟩ := t.bound hb
  exact hstanding

theorem unbound (t : h.Told) (hb : h.stage.binding? i = none) : h.current i = none := by
  have hrel := t.current i
  rw [hb] at hrel
  generalize h.current i = c at hrel
  cases hrel
  rfl

theorem current_update (t : h.Told) (hothers : ∀ j, j ≠ i → s'.binding? j = h.stage.binding? j)
    {o : Option (List (BindingState × BindingState))} (hown : Option.Rel Binding.Running o (s'.binding? i))
    (j : InstanceId) : Option.Rel Binding.Running (update h.current i o j) (s'.binding? j) := by
  by_cases hj : j = i
  · subst j
    rw [update_self]
    exact hown
  · rw [update_of_ne hj, hothers j hj]
    exact t.current j

theorem still (t : h.Told) (hbridge : s'.bridge = h.stage.bridge) : Told { h with stage := s' } := by
  have hbinding := binding?_of_table (congrArg Bridge.table hbridge)
  refine ⟨fun i => ?_, t.replaced, t.destroyed, ?_, ?_, t.farewells⟩
  · rw [hbinding]
    exact t.current i
  · rw [boundCount, hbridge]
    exact t.binds
  · rw [hbridge]
    exact t.freed

theorem continued (t : h.Told) (hb : h.stage.binding? i = some b) (hc : Continued i b b' ms h.stage s') :
    Told { h with stage := s', current := update h.current i ((h.current i).map (· ++ ms)) } := by
  obtain ⟨before, hbefore, -, hcourse⟩ := t.bound hb
  refine ⟨t.current_update hc.others ?_, t.replaced, t.destroyed, ?_, ?_, t.farewells⟩
  · rw [hbefore, hc.own]
    exact .some ⟨hc.standing, hcourse.append hc.course⟩
  · rw [hc.bound, hc.freed]
    exact t.binds
  · rw [hc.freed]
    exact t.freed

theorem ended (t : h.Told) (hb : h.stage.binding? i = some b) (he : Ended i b h.stage s') :
    Told { h with
      stage := s'
      current := update h.current i none
      past := h.past ++ [⟨i, (h.current i).getD [] ++ b.state.parting, .destroyed⟩]
      farewells := h.farewells + 1 } := by
  obtain ⟨before, hbefore, hstanding, hcourse⟩ := t.bound hb
  have hbinds := t.binds
  have hbound := he.bound
  refine ⟨t.current_update he.others (by rw [he.own]; exact .none), fun k hk hfate => ?_, fun k hk hfate => ?_,
    ?_, ?_, ?_⟩
  · rcases List.mem_append.mp hk with hk | hk
    · exact t.replaced k hk hfate
    · rw [List.mem_singleton.mp hk] at hfate
      cases hfate
  · rcases List.mem_append.mp hk with hk | hk
    · exact t.destroyed k hk hfate
    · rw [List.mem_singleton.mp hk, hbefore]
      exact ⟨before, b.state, hstanding, hcourse, rfl⟩
  · rw [he.freed]
    dsimp only
    omega
  · rw [List.length_append, he.freed, t.freed]
    rfl
  · rw [List.countP_append, ← t.farewells]
    rfl

theorem begun {path : Path} {mode : DecodeMode} (t : h.Told) (hb : Begun i path mode h.stage s') :
    Told { h with
      stage := s'
      current := update h.current i (some [(.unbound, .awaitingLoad)])
      past := (h.current i).elim h.past fun before => h.past ++ [⟨i, before, .replaced⟩]
      binds := h.binds + 1 } := by
  have hcurrent := t.current_update (o := some [(.unbound, .awaitingLoad)]) hb.others
    (by rw [hb.own]; exact .some ⟨rfl, .single .bind⟩)
  have hbinds := t.binds
  rcases hb.counted with ⟨hn, hbound, hfreed⟩ | ⟨hsome, hbound, hfreed⟩
  · rw [t.unbound hn]
    refine ⟨hcurrent, t.replaced, t.destroyed, ?_, ?_, t.farewells⟩
    · dsimp only
      omega
    · rw [hfreed]
      exact t.freed
  · obtain ⟨stale, hstale⟩ := Option.ne_none_iff_exists'.mp hsome
    obtain ⟨before, hbefore, hstanding, hcourse⟩ := t.bound hstale
    rw [hbefore]
    refine ⟨hcurrent, fun k hk hfate => ?_, fun k hk hfate => ?_, ?_, ?_, ?_⟩
    · rcases List.mem_append.mp hk with hk | hk
      · exact t.replaced k hk hfate
      · rw [List.mem_singleton.mp hk]
        exact ⟨stale.state, hstanding, hcourse⟩
    · rcases List.mem_append.mp hk with hk | hk
      · exact t.destroyed k hk hfate
      · rw [List.mem_singleton.mp hk] at hfate
        cases hfate
    · dsimp only
      omega
    · rw [Option.elim_some, List.length_append, hfreed, t.freed]
      rfl
    · rw [Option.elim_some, List.countP_append, ← t.farewells]
      rfl

end Told

variable [Loader L]

/-- Play a scene and write down what comes of it. -/
def add (h : Chronicle L) (c : Scene L) : Chronicle L :=
  let s := c.begin h.stage
  let s' := c.call.perform s
  let i := c.call.instanceId
  let ms := moved i s s'
  match c.call with
  | .bind .. =>
    { h with
      stage := s'
      current := update h.current i (some ms)
      past := (h.current i).elim h.past fun before => h.past ++ [⟨i, before, .replaced⟩]
      binds := h.binds + 1 }
  | .dispatch .destroyed .. =>
    match c.call.answer s with
    | .error _ => { h with stage := s' }
    | .ok _ =>
      { h with
        stage := s'
        current := update h.current i none
        past := h.past ++ [⟨i, (h.current i).getD [] ++ ms, .destroyed⟩]
        farewells := h.farewells + 1 }
  | .dispatch .. => { h with stage := s', current := update h.current i ((h.current i).map (· ++ ms)) }

/-- What there is to tell once the scenes have been played with a new bridge. -/
def ofScenes (disk : Disk) (loader : L) (scenes : List (Scene L)) : Chronicle L :=
  scenes.foldl add { stage := { disk, loader } }

namespace Told

variable {h : Chronicle L}

theorem add_bind (t : h.Told) (disk : Disk) (loader : L) (i : InstanceId) (path : Path) (mode : DecodeMode) :
    (h.add ⟨disk, loader, .bind i path mode⟩).Told := by
  have hb := begun_bind (Scene.begin ⟨disk, loader, .bind i path mode⟩ h.stage) i path mode
  have t' : Told { h with stage := Scene.begin ⟨disk, loader, .bind i path mode⟩ h.stage } := t.still rfl
  unfold Chronicle.add
  dsimp only [BridgeCall.perform, BridgeCall.instanceId]
  rw [hb.noted.moved_eq]
  exact t'.begun hb

theorem add_dispatch (hL : Loader.Unmoved L) (t : h.Told) (disk : Disk) (loader : L) (kind : CallbackKind)
    (i : InstanceId) (props : Props) : (h.add ⟨disk, loader, .dispatch kind i props⟩).Told := by
  have t' : Told { h with stage := Scene.begin ⟨disk, loader, .dispatch kind i props⟩ h.stage } := t.still rfl
  have hd := dispatched (i := i) (p := props) hL t'.standing kind
  unfold Chronicle.add
  dsimp only [BridgeCall.perform, BridgeCall.instanceId, BridgeCall.answer]
  generalize (Scene.begin ⟨disk, loader, .dispatch kind i props⟩ h.stage).dispatch kind i props = c at hd ⊢
  cases hd with
  | @refused _ reply e hb he =>
    have hstill : ∀ ms : List (BindingState × BindingState),
        update h.current i ((h.current i).map (· ++ ms)) = h.current := fun ms =>
      update_eq_self_iff.mpr (by rw [t'.unbound hb]; rfl)
    dsimp only
    rw [he, hstill]
    cases kind <;> exact t'
  | continued hb hkind hc =>
    dsimp only
    rw [hc.noted.moved_eq]
    cases kind with
    | destroyed => exact absurd rfl hkind
    | createSound => exact t'.continued hb hc
    | destroySound => exact t'.continued hb hc
  | ended hb hok he =>
    dsimp only
    rw [hok, he.noted.moved_eq]
    exact t'.ended hb he

theorem add (hL : Loader.Unmoved L) (t : h.Told) (c : Scene L) : (h.add c).Told := by
  obtain ⟨disk, loader, call⟩ := c
  cases call with
  | bind i path mode => exact t.add_bind disk loader i path mode
  | dispatch kind i props => exact t.add_dispatch hL disk loader kind i props

theorem ofScenes (hL : Loader.Unmoved L) (disk : Disk) (loader : L) (scenes : List (Scene L)) :
    (ofScenes disk loader scenes).Told :=
  List.foldlRecOn (motive := Told) scenes Chronicle.add (.start disk loader) fun _ t c _ => t.add hL c

end Told

theorem stage_add (h : Chronicle L) (c : Scene L) : (h.add c).stage = c.call.perform (c.begin h.stage) := by
  unfold add
  dsimp only
  repeat' split
  all_goals rfl

/-- What the chronicle tells of the bindings. -/
structure Faithful (h : Chronicle L) : Prop where
  /-- A binding in the table went from `unbound` to `awaitingLoad`, and from there to where it is. -/
  bound : ∀ {i b}, h.stage.binding? i = some b → ∃ rest, h.current i = some ((.unbound, .awaitingLoad) :: rest) ∧
    Course .awaitingLoad rest b.state ∧ b.state ≠ .freed
  unbound : ∀ {i}, h.stage.binding? i = none → h.current i = none
  /-- One that was replaced was never freed. -/
  replaced : ∀ {k}, k ∈ h.past → k.fate = .replaced → ∃ rest state, k.moves = (.unbound, .awaitingLoad) :: rest ∧
    Course .awaitingLoad rest state ∧ state ≠ .freed
  /-- One that was destroyed ends freed, by way of `releasing` if it was loaded. -/
  destroyed : ∀ {k}, k ∈ h.past → k.fate = .destroyed → ∃ rest state,
    k.moves = (.unbound, .awaitingLoad) :: (rest ++ state.parting) ∧ Course .awaitingLoad rest state ∧
    state ≠ .freed ∧ Course state state.parting .freed
  /-- Every binding that was made is in the table or was counted. -/
  binds : h.binds = h.stage.boundCount + h.stage.bridge.freed
  /-- The count goes up with each career that ends. -/
  freed : h.stage.bridge.freed = h.past.length
  farewells : h.farewells = h.past.countP (·.fate = .destroyed)
  /-- That an instance is gone is accepted when it has a binding, and refused when it has none. -/
  accepted : ∀ {c i p b}, c.call = .dispatch .destroyed i p → h.stage.binding? i = some b →
    c.call.answer (c.begin h.stage) = .ok .freed ∧ (h.add c).stage.binding? i = none ∧
    (h.add c).stage.bridge.freed = h.stage.bridge.freed + 1
  refused : ∀ {c i p}, c.call = .dispatch .destroyed i p → h.stage.binding? i = none →
    (∃ e, c.call.answer (c.begin h.stage) = .error e) ∧ (h.add c).stage.bridge = h.stage.bridge
  /-- Nothing else takes a binding out of the table. -/
  leaves : ∀ {c i}, h.stage.binding? i ≠ none → (h.add c).stage.binding? i = none →
    ∃ p, c.call = .dispatch .destroyed i p

namespace Told

variable {h : Chronicle L} {c : Scene L} {i : InstanceId}

theorem leaves (hL : Loader.Unmoved L) (t : h.Told) (hb : h.stage.binding? i ≠ none)
    (hgone : (h.add c).stage.binding? i = none) : ∃ p, c.call = .dispatch .destroyed i p := by
  have hs : ∀ {j b}, (c.begin h.stage).binding? j = some b → b.state.isStanding = true := t.standing
  have hb' : (c.begin h.stage).binding? i ≠ none := hb
  rw [stage_add] at hgone
  generalize c.begin h.stage = s at hs hb' hgone
  cases hc : c.call with
  | bind j path mode =>
    rw [hc] at hgone
    have hbegun := begun_bind s j path mode
    by_cases hj : i = j
    · subst hj
      exact absurd (hbegun.own.symm.trans hgone) nofun
    · exact absurd ((hbegun.others i hj).symm.trans hgone) hb'
  | dispatch kind j p =>
    rw [hc, BridgeCall.perform] at hgone
    have hd := dispatched (i := j) (p := p) hL hs kind
    generalize s.dispatch kind j p = d at hd hgone
    cases hd with
    | refused => exact absurd hgone hb'
    | continued _ _ hcont =>
      by_cases hj : i = j
      · subst hj
        exact absurd (hcont.own.symm.trans hgone) nofun
      · exact absurd ((hcont.others i hj).symm.trans hgone) hb'
    | ended _ _ he =>
      by_cases hj : i = j
      · subst hj
        exact ⟨p, rfl⟩
      · exact absurd ((he.others i hj).symm.trans hgone) hb'

theorem faithful (hL : Loader.Unmoved L) (t : h.Told) : h.Faithful := by
  refine ⟨fun {i b} hb => ?_, t.unbound, fun {k} hk hfate => ?_, fun {k} hk hfate => ?_, t.binds, t.freed.symm,
    t.farewells, fun {c i p b} hc hb => ?_, fun {c i p} hc hb => ?_, t.leaves hL⟩
  · obtain ⟨ms, hms, hstanding, hcourse⟩ := t.bound hb
    obtain ⟨rest, rfl, hrest⟩ := hcourse.opening hstanding
    exact ⟨rest, hms, hrest, ne_freed hstanding⟩
  · obtain ⟨state, hstanding, hcourse⟩ := t.replaced k hk hfate
    obtain ⟨rest, hrest, hcourse'⟩ := hcourse.opening hstanding
    exact ⟨rest, state, hrest, hcourse', ne_freed hstanding⟩
  · obtain ⟨ms, state, hstanding, hcourse, hmoves⟩ := t.destroyed k hk hfate
    obtain ⟨rest, rfl, hrest⟩ := hcourse.opening hstanding
    exact ⟨rest, state, hmoves, hrest, ne_freed hstanding, course_parting hstanding⟩
  · obtain ⟨hok, he⟩ := ended_destroyed (s := c.begin h.stage) (p := p) hb (t.standing hb)
    rw [stage_add, hc]
    exact ⟨hok, he.own, he.freed⟩
  · obtain ⟨herror, hsame⟩ := dispatch_unbound (s := c.begin h.stage) (p := p) hb .destroyed
    have hbridge : ((c.begin h.stage).dispatch .destroyed i p).2.bridge = (c.begin h.stage).bridge :=
      congrArg Backstage.bridge hsame
    rw [stage_add, hc]
    exact ⟨herror, hbridge⟩

end Told

end Chronicle

/-- Bindings have lawful careers. Whatever calls a new bridge is given, and whatever each of them finds there to
decode, every binding goes from `unbound` to `awaitingLoad` and on by moves that are allowed. It leaves the
table when another is bound to its instance, or when the bridge accepts that the instance is gone,
which is the last move of its course; and it is counted then, and only then. -/
theorem careers_faithful (disk : Disk) :
    (∀ (loader : ScriptedLoader) scenes, (Chronicle.ofScenes disk loader scenes).Faithful) ∧
    ∀ (loader : StreamingLoader) scenes, (Chronicle.ofScenes disk loader scenes).Faithful :=
  ⟨fun loader scenes => (Chronicle.Told.ofScenes ScriptedLoader.unmoved disk loader scenes).faithful
    ScriptedLoader.unmoved,
   fun loader scenes => (Chronicle.Told.ofScenes StreamingLoader.unmoved disk loader scenes).faithful
    StreamingLoader.unmoved⟩

end Soundstage
