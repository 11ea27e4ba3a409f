import Soundstage.Proofs.Bridge.Freed
import Soundstage.Proofs.Engine.ScriptedEvents

/-!
# The props of a scripted engine mirror the bridge

Engine and bridge each keep a note of the sound that an instance has: the engine in the props that it
passes to callbacks, the bridge in the binding. `Mirrored streams r`: the bridge has bindings of
just the live instances in `streams`, and both notes of each instance agree. Callbacks keep this,
whether the bridge accepts or refuses them. Only the last one of an instance does not: it takes the
binding away, so the engine may send it only when the instance goes too.
-/

namespace Soundstage

open Playable Backstage

namespace ScriptedInstance

theorem place_same (attributes : Attributes) (x : ScriptedInstance) :
    (x.place attributes).receiver = x.receiver ∧ (x.place attributes).props = x.props := by
  unfold place
  split <;> exact ⟨rfl, rfl⟩

theorem setFloat_same (name : String) (value : Float32) (x : ScriptedInstance) :
    (x.setFloat name value).receiver = x.receiver ∧ (x.setFloat name value).props = x.props := by
  unfold setFloat
  split <;> exact ⟨rfl, rfl⟩

theorem setLabel_same (name label : String) (x : ScriptedInstance) :
    (x.setLabel name label).receiver = x.receiver ∧ (x.setLabel name label).props = x.props := by
  unfold setLabel
  split <;> exact ⟨rfl, rfl⟩

theorem props_dressed (em : Emitter) (events : List String) (c : Cue) :
    (em.dressed events c : ScriptedInstance).props = {} :=
  (Params.dress_same props (fun name value x => (setFloat_same name value x).2)
    (fun name label x => (setLabel_same name label x).2) em.params _).trans (place_same em.attributes _).2

end ScriptedInstance

structure Mirrored (streams : InstanceId → Prop) (r : Rig ScriptedEngine ScriptedLoader) : Prop where
  issued : ∀ {i}, streams i → i.val ≤ r.issued
  served : ∀ {i x}, r.instance? i = some x → (x.receiver = some .bridge ↔ streams i)
  /-- No host supplies a sound of its own. -/
  inHouse : ∀ {i x supplied}, r.instance? i = some x → x.receiver ≠ some (.host supplied)
  bound : ∀ {i}, r.binding? i ≠ none ↔ streams i ∧ r.instance? i ≠ none
  sound : ∀ {i x}, r.instance? i = some x → x.props.sound = (r.binding? i).bind Binding.loaded

namespace Mirrored

variable {streams : InstanceId → Prop} {r r' : Rig ScriptedEngine ScriptedLoader} {i : InstanceId}

theorem start (hnone : ∀ i, ¬streams i) (hinst : ∀ i, r.instance? i = none) (hb : ∀ i, r.binding? i = none) :
    Mirrored streams r := by
  have absent : ∀ {i x}, r.instance? i ≠ some x := fun {i x} hx => by
    rw [hinst] at hx
    cases hx
  refine ⟨fun hs => absurd hs (hnone _), fun hx => absurd hx absent, fun hx => absurd hx absent, fun {i} => ?_,
    fun hx => absurd hx absent⟩
  rw [hb, hinst]
  simp

theorem congr (h : Mirrored streams r) {streams' : InstanceId → Prop} (he : ∀ i, streams i ↔ streams' i) :
    Mirrored streams' r := by
  have : streams = streams' := funext fun i => propext (he i)
  exact this ▸ h

/-- Neither a receiver nor either of the notes has changed. -/
theorem rewrite (h : Mirrored streams r) {f : InstanceId → ScriptedInstance → ScriptedInstance}
    (hinst : ∀ j, r'.instance? j = (r.instance? j).map (f j)) (hissued : r'.issued = r.issued)
    (hb : ∀ j, r'.binding? j = r.binding? j)
    (hf : ∀ j x, (f j x).receiver = x.receiver ∧ (f j x).props = x.props) : Mirrored streams r' := by
  have source : ∀ {j y}, r'.instance? j = some y → ∃ x, r.instance? j = some x ∧ y = f j x := fun {j y} hy => by
    rw [hinst, Option.map_eq_some_iff] at hy
    obtain ⟨x, hx, rfl⟩ := hy
    exact ⟨x, hx, rfl⟩
  refine ⟨fun hs => hissued ▸ h.issued hs, fun {j y} hy => ?_, fun {j y supplied} hy => ?_, fun {j} => ?_,
    fun {j y} hy => ?_⟩
  · obtain ⟨x, hx, rfl⟩ := source hy
    rw [(hf j x).1]
    exact h.served hx
  · obtain ⟨x, hx, rfl⟩ := source hy
    rw [(hf j x).1]
    exact h.inHouse hx
  · rw [hb, h.bound, hinst]
    simp
  · obtain ⟨x, hx, rfl⟩ := source hy
    rw [hb, (hf j x).2]
    exact h.sound hx

theorem wrote (h : Mirrored streams r) {f : InstanceId → ScriptedInstance → ScriptedInstance} (hw : Wrote f r r')
    (hf : ∀ j x, (f j x).receiver = x.receiver ∧ (f j x).props = x.props) : Mirrored streams r' :=
  h.rewrite hw.instances hw.issued hw.binding? hf

theorem wrote_onEach (h : Mirrored streams r) {ids : List InstanceId} {g : ScriptedInstance → ScriptedInstance}
    (hw : Wrote (onEach ids g) r r') (hg : ∀ x, (g x).receiver = x.receiver ∧ (g x).props = x.props) :
    Mirrored streams r' :=
  h.wrote hw fun _ x => ⟨onEach_same (fun x => (hg x).1) x, onEach_same (fun x => (hg x).2) x⟩

/-- Instances that go away take their bindings along. -/
theorem cleared (h : Mirrored streams r) {gone : InstanceId → Prop} (hc : Cleared gone r r') :
    Mirrored streams r' := by
  have present : ∀ {j x}, r'.instance? j = some x → ¬gone j := fun {j x} hx hg => by
    rw [hc.taken j hg] at hx
    cases hx
  refine ⟨fun hs => hc.issued ▸ h.issued hs, fun hx => h.served (hc.present hx), fun hx => h.inHouse (hc.present hx),
    fun {j} => ?_, fun {j x} hx => ?_⟩
  · by_cases hg : gone j
    · rw [hc.taken j hg]
      have hfreed : r'.binding? j = none := by
        refine Classical.byContradiction fun hb => ?_
        obtain ⟨hs, hlive⟩ := h.bound.mp fun hn => hb (hc.unmade j hn)
        obtain ⟨x, hx⟩ := Option.ne_none_iff_exists'.mp hlive
        exact hb (hc.freed j x hg hx ((h.served hx).mpr hs))
      simp [hfreed]
    · rw [hc.kept j hg, hc.left j hg]
      exact h.bound
  · rw [hc.kept j (present hx)]
    exact h.sound (hc.present hx)

/-! ### Callbacks -/

/-- A callback of `i` was delivered, and both notes of `i` are alike afterwards. -/
theorem notified (h : Mirrored streams r) {props : Props} (hlive : r.instance? i ≠ none)
    (hinst : ∀ j, r'.instance? j = (r.instance? j).map fun x => if j = i then { x with props } else x)
    (hissued : r'.issued = r.issued) (hothers : ∀ j, j ≠ i → r'.binding? j = r.binding? j)
    (hown : r'.binding? i ≠ none ↔ r.binding? i ≠ none)
    (hsound : props.sound = (r'.binding? i).bind Binding.loaded) : Mirrored streams r' := by
  have source : ∀ {j y}, r'.instance? j = some y → ∃ x, r.instance? j = some x ∧
      y = if j = i then { x with props } else x := fun {j y} hy => by
    rw [hinst, Option.map_eq_some_iff] at hy
    obtain ⟨x, hx, rfl⟩ := hy
    exact ⟨x, hx, rfl⟩
  refine ⟨fun hs => hissued ▸ h.issued hs, fun {j y} hy => ?_, fun {j y supplied} hy => ?_, fun {j} => ?_,
    fun {j y} hy => ?_⟩
  · obtain ⟨x, hx, rfl⟩ := source hy
    rw [← h.served hx]
    split <;> rfl
  · obtain ⟨x, hx, rfl⟩ := source hy
    have hhost : x.receiver ≠ some (.host supplied) := h.inHouse hx
    split <;> exact hhost
  · have hsame : r'.instance? j ≠ none ↔ r.instance? j ≠ none := by
      rw [hinst]
      simp
    by_cases hj : j = i
    · subst hj
      rw [hown, hsame, h.bound]
    · rw [hothers j hj, hsame, h.bound]
  · obtain ⟨x, hx, rfl⟩ := source hy
    by_cases hj : j = i
    · subst hj
      rw [if_pos rfl]
      exact hsound
    · rw [if_neg hj, hothers j hj]
      exact h.sound hx

end Mirrored

/-- What the bridge makes of the props is what it has noted itself, if it accepts the callback or not. -/
theorem Backstage.deliver_mirrors {s : Backstage ScriptedLoader} {i : InstanceId} {b : Binding} {p : Props}
    (hl : Ledger s []) (hb : s.binding? i = some b) (hp : p.sound = b.loaded) {kind : CallbackKind}
    (hk : kind ≠ .destroyed) : ∃ b', (s.deliver .bridge kind i p).2.binding? i = some b' ∧
      (s.deliver .bridge kind i p).1.sound = b'.loaded := by
  obtain ⟨-, ha⟩ := answered_dispatch (i := i) (p := p) (fun hb => hl.settled hb) kind
  have hsame : (s.deliver .bridge kind i p).2.binding? i = (s.dispatch kind i p).2.binding? i :=
    congrArg (fun b : Bridge => b.table.get? i) (report_eq (s.dispatch kind i p).2 kind (s.dispatch kind i p).1).2.1
  rw [hsame, show (s.deliver .bridge kind i p).1 = (s.dispatch kind i p).1.props from rfl]
  have hold : ∃ b', s.binding? i = some b' ∧ p.sound = b'.loaded := ⟨b, hb, hp⟩
  generalize s.dispatch kind i p = c at ha ⊢
  obtain ⟨reply, s'⟩ := c
  dsimp only at ha ⊢
  cases ha with
  | unknown _ hn => rw [hn] at hb; cases hb
  | alreadyFreed => exact absurd rfl hk
  | free => exact absurd rfl hk
  | load _ _ _ hb' => exact ⟨_, hb', rfl⟩
  | failedLoad _ _ _ hb' => exact ⟨_, hb', rfl⟩
  | giveBack _ _ _ hb' => exact ⟨_, hb', rfl⟩
  | refusedLoad _ _ hs => rw [hs]; exact hold
  | nothingToGiveBack _ _ hs => rw [hs]; exact hold
  | refusedGiveBack _ _ hs => rw [hs]; exact hold

namespace Mirrored

variable {streams : InstanceId → Prop} {r r' : Rig ScriptedEngine ScriptedLoader} {i : InstanceId}

theorem fire (h : Mirrored streams r) (hl : Ledger r.toBackstage []) {kind : CallbackKind} (hk : kind ≠ .destroyed) :
    Mirrored streams (ScriptedEngine.fire r i kind).2 := by
  unfold ScriptedEngine.fire
  cases hx : r.engine.instances.get? i with
  | none => exact h
  | some x =>
    dsimp only
    cases hr : x.receiver with
    | none => exact h
    | some receiver =>
      have hlive : r.instance? i ≠ none := by
        rw [show r.instance? i = some x from hx]
        simp
      dsimp only
      cases receiver with
      | host supplied => exact absurd hr (h.inHouse hx)
      | lifecycle entity =>
        exact h.notified hlive (fun j => Table.get?_modify_eq_map ..) rfl (fun _ _ => rfl) Iff.rfl (h.sound hx)
      | bridge =>
        obtain ⟨b, hb⟩ := Option.ne_none_iff_exists'.mp (h.bound.mpr ⟨(h.served hx).mp hr, hlive⟩)
        have hp : x.props.sound = b.loaded := by rw [h.sound hx, hb]; rfl
        obtain ⟨b', hb', hsound⟩ := deliver_mirrors hl hb hp hk
        have hc := called_deliver (i := i) (p := x.props) hl .bridge kind
        refine h.notified hlive (fun j => Table.get?_modify_eq_map ..) rfl hc.others ?_ ?_
        · exact ⟨fun _ => Option.ne_none_iff_exists'.mpr ⟨b, hb⟩, fun _ => Option.ne_none_iff_exists'.mpr ⟨b', hb'⟩⟩
        · exact hsound.trans (congrArg (·.bind Binding.loaded) hb').symm

theorem event (h : Mirrored streams r) (hl : Ledger r.toBackstage []) (v : ScriptedEvent)
    (hv : ∀ i, v ≠ .fire i .destroyed) : Mirrored streams (v.happen r) := by
  have untouched : ∀ {r' : Rig ScriptedEngine ScriptedLoader}, r'.engine.instances = r.engine.instances →
      r'.engine.issued = r.engine.issued → r'.bridge = r.bridge → Mirrored streams r' := by
    intro r' hinst hissued hbridge
    refine h.rewrite (f := fun _ x => x) (fun j => ?_) hissued (fun j => ?_) fun _ _ => ⟨rfl, rfl⟩
    · exact (congrArg (·.get? j) hinst).trans Option.map_id'.symm
    · unfold binding?
      rw [hbridge]
  have one : ∀ {j : InstanceId} {g : ScriptedInstance → ScriptedInstance},
      (∀ x, (g x).receiver = x.receiver ∧ (g x).props = x.props) →
      Mirrored streams (r.withEngine (r.engine.withInstances (r.engine.instances.modify j g))) := by
    intro j g hg
    refine h.rewrite (f := fun k x => if k = j then g x else x) (fun k => Table.get?_modify_eq_map ..) rfl
      (fun _ => rfl) fun k x => ?_
    split
    · exact hg x
    · exact ⟨rfl, rfl⟩
  cases v with
  | finish i => exact one fun _ => ⟨rfl, rfl⟩
  | destroy i => exact h.cleared (ScriptedEngine.destroy_cleared r i hl)
  | fire i kind => exact h.fire hl fun hk => hv i (hk ▸ rfl)
  | update => exact h.cleared (LawfulEngine.update_cleared r hl)
  | rejectWrites i => exact one fun _ => ⟨rfl, rfl⟩
  | addEvent name => exact untouched rfl rfl rfl
  | files known => exact untouched rfl rfl rfl
  | disk d => exact untouched rfl rfl rfl

/-! ### An instance comes in -/

/-- A file waits in its binding, and nothing else is bound. -/
theorem binding?_entered {em : Emitter} {c : Cue} {made begun : Rig ScriptedEngine ScriptedLoader}
    (hp : em.Posted c i r made begun r') (hn : r.binding? i = none) :
    r'.binding? i = c.file.map fun file => ⟨file, .programmerSound, .awaitingLoad, none⟩ := by
  have hsame := (hp.rest.binding? i).trans ((ScriptedEngine.start_wrote i _).binding? i)
  rw [hsame, Emitter.bindCue_fresh ((hp.binding?_made i).trans hn)]
  cases c.file with
  | none => exact (hp.binding?_made i).trans hn
  | some file => exact Table.get?_insert_self ..

theorem enter (h : Mirrored streams r) {em : Emitter} {c : Cue} {made begun : Rig ScriptedEngine ScriptedLoader}
    (hp : em.Posted c i r made begun r') (hl : Ledger r.toBackstage []) (hn : r.binding? i = none) :
    Mirrored (fun j => streams j ∨ c.file.isSome = true ∧ j = i) r' := by
  have he := hp.entered hl hn
  have hnew : ¬streams i := fun hs => by
    have hle := h.issued hs
    rw [he.id] at hle
    exact Nat.not_succ_le_self _ hle
  have hbound := binding?_entered hp hn
  obtain ⟨x, hx, hreceiver, hprops⟩ : ∃ x, r'.instance? i = some x ∧ x.receiver = some (c.receiver em.entity) ∧
      x.props = {} := by
    obtain ⟨x, hbegun, hown⟩ := he.own
    cases hbegun
    obtain ⟨stopped, hst⟩ := em.status_dressed (X := ScriptedInstance) r.setting c
    have hr : (em.dressed r.setting c : ScriptedInstance).receiver = some (c.receiver em.entity) :=
      congrArg Status.receiver hst
    have hp := ScriptedInstance.props_dressed em r.setting c
    exact ⟨_, hown, by split <;> exact hr, by split <;> exact hp⟩
  have hlive : r'.instance? i ≠ none := Option.ne_none_iff_exists'.mpr ⟨x, hx⟩
  refine ⟨?_, fun {j y} hy => ?_, fun {j y supplied} hy => ?_, fun {j} => ?_, fun {j y} hy => ?_⟩
  · rintro j (hs | ⟨-, rfl⟩)
    · rw [he.issued]
      exact Nat.le_succ_of_le (h.issued hs)
    · exact Nat.le_of_eq (by rw [he.issued, he.id])
  · by_cases hj : j = i
    · subst hj
      cases hx.symm.trans hy
      simp [hreceiver, Cue.receiver_eq_bridge, hnew]
    · rw [he.others j hj] at hy
      simp [hj, h.served hy]
  · by_cases hj : j = i
    · subst hj
      cases hx.symm.trans hy
      rw [hreceiver]
      unfold Cue.receiver
      split <;> simp
    · rw [he.others j hj] at hy
      exact h.inHouse hy
  · by_cases hj : j = i
    · subst hj
      rw [hbound]
      cases c.file <;> simp [hnew, hlive]
    · rw [he.kept j hj, he.others j hj, h.bound]
      simp [hj]
  · by_cases hj : j = i
    · subst hj
      cases hx.symm.trans hy
      rw [hprops, hbound]
      cases c.file <;> rfl
    · rw [he.others j hj] at hy
      rw [he.kept j hj]
      exact h.sound hy

end Mirrored

end Soundstage
