import Soundstage.Proofs.Bridge.Delivery

/-!
# Traces

The trace of an instance is what the bridge has answered for it, oldest first. An engine that drives the
bridge lawfully asks for the sound of a binding at most once (`heard_createSound`), and says farewell
with the props that it was answered then (`heard_farewell`): so a trace opens with at most one load,
and closes by giving back what was loaded, if anything, and freeing the binding. None of these
callbacks is refused.
-/

namespace Soundstage

/-- The trace of an instance that is there and has the sound `sound`. -/
inductive Opening (i : InstanceId) : Option SoundId → List Answer → Prop
  | unasked : Opening i none []
  | failed : Opening i none [⟨.createSound, i, .ok .awaitingLoad⟩]
  | loaded (x : SoundId) : Opening i (some x) [⟨.createSound, i, .ok .loaded⟩]

/-- What an instance that has the sound `sound` hears when it goes away. -/
def closing (i : InstanceId) (sound : Option SoundId) : List Answer :=
  (if sound.isSome then [⟨.destroySound, i, .ok .releasing⟩] else []) ++ [⟨.destroyed, i, .ok .freed⟩]

theorem mem_opening {i : InstanceId} {sound : Option SoundId} {answers : List Answer} (h : Opening i sound answers) :
    ∀ a ∈ answers, a.instanceId = i ∧ ∃ state, a.result = .ok state := by
  cases h <;> simp

theorem mem_closing {i : InstanceId} {sound : Option SoundId} :
    ∀ a ∈ closing i sound, a.instanceId = i ∧ ∃ state, a.result = .ok state := by
  unfold closing
  cases sound <;> simp

namespace Backstage

variable {L : Type}

def trace (s : Backstage L) (i : InstanceId) : List Answer := s.answered.filter fun a => a.instanceId = i

namespace Heard

variable {s s' : Backstage L} {i j : InstanceId} {answers : List Answer}

theorem trace_self (h : Heard i answers s s') : s'.trace i = s.trace i ++ answers := by
  unfold trace
  rw [h.answered, List.filter_append, List.filter_eq_self.mpr fun a ha => decide_eq_true (h.own a ha)]

theorem trace_of_ne (h : Heard i answers s s') (hj : j ≠ i) : s'.trace j = s.trace j := by
  unfold trace
  have hnone : (answers.filter fun a => a.instanceId = j) = [] := by
    refine List.filter_eq_nil_iff.mpr fun a ha => ?_
    rw [decide_eq_true_iff, h.own a ha]
    exact Ne.symm hj
  rw [h.answered, List.filter_append, hnone, List.append_nil]

end Heard

variable {s : Backstage L} {i : InstanceId} {p : Props} {b : Binding}

variable [Loader L]

/-- A callback that the bridge does not refuse is answered, and that is all. -/
theorem deliver_ok (s : Backstage L) (kind : CallbackKind) (i : InstanceId) (p : Props) {state : BindingState}
    (h : (s.dispatch kind i p).1.result = .ok state) :
    s.deliver .bridge kind i p = ((s.dispatch kind i p).1.props,
      { (s.dispatch kind i p).2 with answered := (s.dispatch kind i p).2.answered ++ [⟨kind, i, .ok state⟩] }) := by
  unfold deliver report
  dsimp only
  rw [h]

/-! ### Receivers other than the bridge -/

/-- The bridge does not hear of what others are told. -/
theorem heard_other (receiver : Receiver) (h : receiver ≠ .bridge) (kind : CallbackKind) :
    Heard i [] s (s.deliver receiver kind i p).2 ∧ (s.deliver receiver kind i p).2.loader = s.loader := by
  cases receiver with
  | lifecycle entity => exact ⟨(Heard.refl i s).say .trace _ (by decide), rfl⟩
  | bridge => exact absurd rfl h
  | host supplied =>
    exact ⟨.silent rfl rfl (fun _ _ => rfl) (.refl s), rfl⟩

theorem heard_farewell_other (receiver : Receiver) (h : receiver ≠ .bridge) :
    Heard i [] s (s.farewell receiver i p) ∧ (s.farewell receiver i p).loader = s.loader := by
  rcases s.farewell_cases receiver i p with ⟨-, he⟩ | ⟨-, he⟩ <;> rw [he]
  · exact heard_other receiver h .destroyed
  · obtain ⟨hgiven, hloader⟩ := heard_other (s := s) (i := i) (p := p) receiver h .destroySound
    obtain ⟨hgone, hloader'⟩ := heard_other (s := (s.deliver receiver .destroySound i p).2) (i := i)
      (p := (s.deliver receiver .destroySound i p).1) receiver h .destroyed
    exact ⟨hgiven.trans hgone, hloader'.trans hloader⟩

/-! ### Instances that the bridge serves -/

variable [LawfulLoader L]

theorem heard_createSound (hl : Ledger s []) (hb : s.binding? i = some b) (hst : b.state = .awaitingLoad) :
    (∃ x, Loader.decode s.disk b.path b.mode s.loader = (.ok x, (s.deliver .bridge .createSound i p).2.loader) ∧
      (s.deliver .bridge .createSound i p).1 = ⟨some x, -1⟩ ∧
      (s.deliver .bridge .createSound i p).2.binding? i = some { b with state := .loaded, loaded := some x } ∧
      Heard i [⟨.createSound, i, .ok .loaded⟩] s (s.deliver .bridge .createSound i p).2) ∨
    ∃ e, Loader.decode s.disk b.path b.mode s.loader = (.error e, (s.deliver .bridge .createSound i p).2.loader) ∧
      (s.deliver .bridge .createSound i p).1 = { p with sound := none } ∧
      (s.deliver .bridge .createSound i p).2.binding? i = some { b with state := .awaitingLoad, loaded := none } ∧
      Heard i [⟨.createSound, i, .ok .awaitingLoad⟩] s (s.deliver .bridge .createSound i p).2 := by
  obtain ⟨ht, ha⟩ := answered_dispatch (i := i) (p := p) (fun hb => hl.settled hb) .createSound
  have hd := @deliver_ok _ _ s .createSound i p
  generalize s.dispatch .createSound i p = c at ht ha hd
  obtain ⟨reply, s'⟩ := c
  dsimp only at ht ha hd
  cases ha with
  | unknown _ hn => rw [hn] at hb; cases hb
  | refusedLoad hb' hst' => cases hb.symm.trans hb'; rw [hst] at hst'; cases hst'
  | load hb' _ hdec hb'' =>
    cases hb.symm.trans hb'
    rw [hd rfl]
    exact .inl ⟨_, hdec, rfl, hb'', ht.answer _ _⟩
  | failedLoad hb' _ hdec hb'' =>
    cases hb.symm.trans hb'
    rw [hd rfl]
    exact .inr ⟨_, hdec, rfl, hb'', ht.answer _ _⟩

theorem heard_destroyed (hl : Ledger s []) (hb : s.binding? i = some b) :
    Heard i [⟨.destroyed, i, .ok .freed⟩] s (s.deliver .bridge .destroyed i p).2 ∧
      (s.deliver .bridge .destroyed i p).2.loader = (s.releaseLoaded i b.loaded).loader := by
  obtain ⟨ht, ha⟩ := answered_dispatch (i := i) (p := p) (fun hb => hl.settled hb) .destroyed
  have hd := @deliver_ok _ _ s .destroyed i p
  generalize s.dispatch .destroyed i p = c at ht ha hd
  obtain ⟨reply, s'⟩ := c
  dsimp only at ht ha hd
  cases ha with
  | unknown hne => exact absurd rfl hne
  | alreadyFreed hn => rw [hn] at hb; cases hb
  | free hb' hloader _ =>
    cases hb.symm.trans hb'
    rw [hd rfl]
    exact ⟨ht.answer _ _, hloader⟩

theorem heard_destroySound (hl : Ledger s []) (hb : s.binding? i = some b) (hst : b.state = .loaded) :
    (s.deliver .bridge .destroySound i p).2.loader = (s.releaseLoaded i b.loaded).loader ∧
      (s.deliver .bridge .destroySound i p).2.binding? i = some { b with state := .releasing, loaded := none } ∧
      Heard i [⟨.destroySound, i, .ok .releasing⟩] s (s.deliver .bridge .destroySound i p).2 := by
  obtain ⟨ht, ha⟩ := answered_dispatch (i := i) (p := p) (fun hb => hl.settled hb) .destroySound
  have hd := @deliver_ok _ _ s .destroySound i p
  generalize s.dispatch .destroySound i p = c at ht ha hd
  obtain ⟨reply, s'⟩ := c
  dsimp only at ht ha hd
  cases ha with
  | unknown _ hn => rw [hn] at hb; cases hb
  | nothingToGiveBack hb' hst' => cases hb.symm.trans hb'; rw [hst] at hst'; cases hst'
  | refusedGiveBack hb' hst' => cases hb.symm.trans hb'; rw [hst] at hst'; cases hst'
  | giveBack hb' _ hloader hb'' =>
    cases hb.symm.trans hb'
    rw [hd rfl]
    exact ⟨hloader, hb'', ht.answer _ _⟩

/-- The farewell of an instance that says what its binding has loaded. -/
theorem heard_farewell (hl : Ledger s []) (hb : s.binding? i = some b) (hp : p.sound = b.loaded) :
    Heard i (closing i b.loaded) s (s.farewell .bridge i p) ∧
      (s.farewell .bridge i p).loader = (s.releaseLoaded i b.loaded).loader := by
  unfold closing
  rcases s.farewell_cases .bridge i p with ⟨hsound, he⟩ | ⟨hsound, he⟩ <;> rw [he] <;> rw [hp] at hsound <;>
    rw [hsound]
  · exact heard_destroyed hl hb
  · have hst : b.state = .loaded := (hl.settled hb).sound.mp hsound
    obtain ⟨hloader, hb', hgiven⟩ := heard_destroySound (p := p) hl hb hst
    have hl' := (called_deliver (i := i) (p := p) hl .bridge .destroySound).ledger
    obtain ⟨hfreed, hloader'⟩ := heard_destroyed (p := (s.deliver .bridge .destroySound i p).1) hl' hb'
    exact ⟨hgiven.trans hfreed, hloader'.trans hloader⟩

end Backstage

end Soundstage
