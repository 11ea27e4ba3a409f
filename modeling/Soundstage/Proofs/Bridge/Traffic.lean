import Mathlib.Data.List.Induction
import Mathlib.Data.List.Nodup
import Soundstage.Proofs.Bridge.Custody

/-!
# Calls in flight

Any number of calls of one bridge, whose atomic steps interleave in any order. The table is free while
a file is decoded, so a call that wants to store its sound may find that the binding has moved on;
then it drops the sound, and nobody releases it.

Main statement: `traffic_in_custody`. Every live sound is held by one call, by one loaded binding, or
was dropped; what was decoded and is not live was released once, and no release is refused. As long
as no two loads of one instance overlap, nothing is dropped. `overlapping_loads_strand` shows that
this is needed.
-/

namespace Soundstage

/-- A bridge with calls in flight, and what became of its sounds. No step reads the last three. -/
structure Traffic where
  stage : Backstage ScriptedLoader
  /-- All calls in the order in which they came in; an answered one stays as its reply. -/
  calls : List Task := []
  decoded : List SoundId := []
  released : List SoundId := []
  /-- The sounds whose binding had moved on. -/
  dropped : List SoundId := []

/-- What can happen next: a call comes in, a call that came in takes its next step, or the files change. -/
inductive Traffic.Beat
  | enter (call : BridgeCall)
  | step (k : Nat)
  | files (disk : Disk) (files : List Path)

namespace Task

variable {L : Type}

/-- The instance whose sound a call loads, from its look-up to its store. -/
def loads : Task → Option InstanceId
  | .decode i .. => some i
  | .store i .. => some i
  | _ => none

/-- The sound that the next step drops. -/
def drops (s : Backstage L) : Task → Option SoundId
  | .store i sound _ =>
    match s.binding? i with
    | some b => if b.state.canBecome .loaded then none else some sound
    | none => none
  | _ => none

/-- The sound that the next step decodes. -/
def decodes [Loader L] (s : Backstage L) : Task → Option SoundId
  | .decode _ path mode _ => (Loader.decode s.disk path mode s.loader).1.toOption
  | _ => none

end Task

namespace Traffic

/-- The `k`-th call takes its next step. -/
def step (s : Traffic) (k : Nat) : Traffic :=
  match s.calls[k]? with
  | none => s
  | some t =>
    { stage := (t.step s.stage).2
      calls := s.calls.set k (t.step s.stage).1
      decoded := s.decoded ++ (t.decodes s.stage).toList
      released := s.released ++ t.givesBack.toList
      dropped := s.dropped ++ (t.drops s.stage).toList }

def beat (s : Traffic) : Beat → Traffic
  | .enter call => { s with calls := s.calls ++ [call.task] }
  | .step k => s.step k
  | .files disk files =>
    { s with stage := { s.stage with disk, loader := { s.stage.loader with files } } }

/-- The traffic of a new bridge. -/
def run (disk : Disk) (files : List Path) (beats : List Beat) : Traffic :=
  beats.foldl beat { stage := { disk, loader := .ofFiles files } }

/-- No call is in flight. -/
def Idle (s : Traffic) : Prop := ∀ t ∈ s.calls, t.reply?.isSome = true

/-- No two calls load the sound of one instance. -/
def Apart (s : Traffic) : Prop := (s.calls.filterMap Task.loads).Nodup

theorem run_concat (disk : Disk) (files : List Path) (beats : List Beat) (b : Beat) :
    run disk files (beats ++ [b]) = (run disk files beats).beat b := by
  unfold run
  rw [List.foldl_append]
  rfl

/-- Either nobody takes a step, or one call does and the others stay as they are. -/
theorem step_cases (s : Traffic) (k : Nat) : s.step k = s ∨
    ∃ before t after, s.calls = before ++ t :: after ∧
      s.step k =
        { stage := (t.step s.stage).2
          calls := before ++ (t.step s.stage).1 :: after
          decoded := s.decoded ++ (t.decodes s.stage).toList
          released := s.released ++ t.givesBack.toList
          dropped := s.dropped ++ (t.drops s.stage).toList } := by
  unfold step
  cases hk : s.calls[k]? with
  | none => exact .inl rfl
  | some t =>
    obtain ⟨hlt, ht⟩ := List.getElem?_eq_some_iff.mp hk
    refine .inr ⟨s.calls.take k, t, s.calls.drop (k + 1), ?_, ?_⟩
    · rw [← ht, List.getElem_cons_drop, List.take_append_drop]
    · dsimp only
      rw [List.set_eq_take_append_cons_drop, if_pos hlt]

end Traffic

/-! ### Sounds are accounted for -/

/-- The live sounds are those decoded and not released, and nothing was decoded or released twice. -/
structure Accounted (l : ScriptedLoader) (decoded released : List SoundId) : Prop where
  live : ∀ x, l.IsLive x ↔ x ∈ decoded ∧ x ∉ released
  decodedOnce : decoded.Nodup
  releasedOnce : released.Nodup
  genuine : ∀ x ∈ released, x ∈ decoded
  issued : ∀ x ∈ decoded, x.val ≤ l.issued

namespace Accounted

variable {l l' : ScriptedLoader} {decoded released : List SoundId} {x : SoundId}

theorem decode {disk : Disk} {path : Path} {mode : DecodeMode} (h : Accounted l decoded released)
    (hd : l.decode disk path mode = (.ok x, l')) : Accounted l' (decoded ++ [x]) released := by
  have hnext : x = l.next ∧ l'.issued = l.issued + 1 := by
    unfold ScriptedLoader.decode at hd
    split at hd <;> cases hd
    exact ⟨rfl, rfl⟩
  have hnew : x ∉ decoded := by
    intro hx
    have := h.issued x hx
    rw [hnext.1, ScriptedLoader.next] at this
    dsimp only at this
    omega
  refine ⟨fun y => ?_, ?_, h.releasedOnce, fun y hy => List.mem_append_left _ (h.genuine y hy), ?_⟩
  · rw [ScriptedLoader.isLive_decode hd, h.live, List.mem_append, List.mem_singleton]
    constructor
    · rintro (rfl | ⟨hy, hn⟩)
      · exact ⟨.inr rfl, fun hr => hnew (h.genuine _ hr)⟩
      · exact ⟨.inl hy, hn⟩
    · rintro ⟨hy | rfl, hn⟩
      · exact .inr ⟨hy, hn⟩
      · exact .inl rfl
  · rw [← List.concat_eq_append]
    exact h.decodedOnce.concat hnew
  · intro y hy
    rw [hnext.2]
    rcases List.mem_append.mp hy with hy | hy
    · exact Nat.le_succ_of_le (h.issued y hy)
    · cases List.mem_singleton.mp hy
      rw [hnext.1]
      exact Nat.le_refl _

theorem release (h : Accounted l decoded released) (hr : l.release x = .ok l') :
    Accounted l' decoded (released ++ [x]) := by
  have hlive : l.IsLive x := by
    intro hn
    rw [ScriptedLoader.release_eq_error_iff.mpr ⟨hn, rfl⟩] at hr
    cases hr
  have hissued : l'.issued = l.issued := by
    unfold ScriptedLoader.release at hr
    split at hr <;> cases hr
    rfl
  obtain ⟨hx, hnr⟩ := (h.live x).mp hlive
  refine ⟨fun y => ?_, h.decodedOnce, ?_, fun y hy => ?_, fun y hy => hissued ▸ h.issued y hy⟩
  · rw [ScriptedLoader.isLive_release hr, h.live, List.mem_append, List.mem_singleton]
    constructor
    · rintro ⟨hne, hy, hn⟩
      exact ⟨hy, fun hm => hm.elim hn hne⟩
    · rintro ⟨hy, hn⟩
      exact ⟨fun e => hn (.inr e), hy, fun hm => hn (.inl hm)⟩
  · rw [← List.concat_eq_append]
    exact h.releasedOnce.concat hnr
  · rcases List.mem_append.mp hy with hy | hy
    · exact h.genuine y hy
    · cases List.mem_singleton.mp hy
      exact hx

theorem step {s : Backstage ScriptedLoader} (h : Accounted s.loader decoded released) (t : Task)
    (hback : ∀ x, t.givesBack = some x → ∃ l', s.loader.release x = .ok l') :
    Accounted (t.step s).2.loader (decoded ++ (t.decodes s).toList) (released ++ t.givesBack.toList) := by
  rw [Task.loader_step]
  split
  · rename_i i path mode props
    simp only [Task.decodes, Task.givesBack, Option.toList_none, List.append_nil]
    cases hd : Loader.decode s.disk path mode s.loader with
    | mk result l' =>
      cases result with
      | ok x => exact h.decode hd
      | error e =>
        rw [ScriptedLoader.live_of_decode_error hd]
        simp only [Except.toOption, Option.toList_none, List.append_nil]
        exact ⟨h.live, h.decodedOnce, h.releasedOnce, h.genuine, h.issued⟩
  · rename_i hne
    have hnone : t.decodes s = none := by
      cases t with
      | decode i path mode props => exact absurd rfl (hne i path mode props)
      | _ => rfl
    rw [hnone, Option.toList_none, List.append_nil]
    cases hg : t.givesBack with
    | none => simpa using h
    | some x =>
      obtain ⟨l', hr⟩ := hback x hg
      rw [Option.bind_some, show Loader.release x s.loader = .ok l' from hr]
      exact h.release hr

end Accounted

/-! ### One step among many -/

/-- A binding of `i`, if there is one, waits for its sound. -/
def Backstage.Waits {L : Type} (s : Backstage L) (i : InstanceId) : Prop :=
  ∀ b, s.binding? i = some b → b.state = .awaitingLoad

section

variable {L : Type} {s : Backstage L} {i j : InstanceId}

theorem Backstage.Waits.insert (h : s.Waits i) {b : Binding} (hb : i = j → b.state = .awaitingLoad) :
    (s.withTable (s.bridge.table.insert j b)).Waits i := by
  intro c hc
  rw [Backstage.binding?_insert] at hc
  split at hc
  · cases hc
    exact hb ‹_›
  · exact h c hc

theorem Backstage.Waits.erase (h : s.Waits i) : (s.withTable (s.bridge.table.erase j)).Waits i := by
  intro c hc
  rw [Backstage.binding?_erase] at hc
  split at hc
  · cases hc
  · exact h c hc

theorem Backstage.Waits.congr {s' : Backstage L} (h : s.Waits i) (hb : s'.bridge.table = s.bridge.table) :
    s'.Waits i := by
  intro c hc
  unfold Backstage.binding? at hc
  rw [hb] at hc
  exact h c hc

namespace Task

theorem table_stepFree [Loader L] (b : Binding) (props : Props) :
    (stepFree i b props s).2.bridge.table = s.bridge.table := by
  have hloaded : ∀ text : String, ((((s.say .debug text).sayMove i .loaded .releasing).releaseLoaded i
      b.loaded).bridge).table = s.bridge.table := fun text =>
    congrArg Bridge.table (Backstage.bridge_releaseLoaded _ i b.loaded)
  unfold stepFree
  by_cases hst : b.state = .loaded
  · rw [if_pos hst]
    dsimp only
    split <;> exact hloaded _
  · rw [if_neg hst]
    dsimp only
    split <;> rfl

/-- Only a store sets a waiting binding in motion. -/
theorem waits_step [Loader L] (h : s.Waits i) (t : Task)
    (hstore : ∀ x props, t ≠ .store i x props) : (t.step s).2.Waits i := by
  cases t with
  | bind j path mode =>
    simp only [step, stepBind]
    split <;> exact (h.congr rfl).insert fun _ => rfl
  | lookup j props =>
    simp only [step, stepLookup]
    split
    · exact h
    · split
      · exact h
      · exact (h.congr rfl).insert fun _ => rfl
      · exact h
  | decode j path mode props =>
    simp only [step, stepDecode, Backstage.decodeFile]
    cases Loader.decode s.disk path mode s.loader with
    | mk result l' => cases result <;> exact h.congr rfl
  | store j x props =>
    have hij : i ≠ j := fun e => hstore x props (e ▸ rfl)
    simp only [step, stepStore]
    split
    · exact h
    · split
      · exact (h.congr rfl).insert fun e => absurd e hij
      · exact h
  | unload j props =>
    simp only [step, stepUnload]
    split
    · exact h
    · rename_i b hb
      split
      · exact h
      · split
        · exact (h.congr rfl).insert fun e => absurd (h b (e ▸ hb)) ‹_›
        · exact h
  | remove j props =>
    simp only [step, stepRemove]
    split
    · exact h
    · exact h.erase
  | retire j stale =>
    have hb : (s.releaseLoaded j stale).bridge.table = s.bridge.table := by rw [s.bridge_releaseLoaded]
    exact h.congr hb
  | discard j x props => exact h.congr (congrArg Bridge.table (s.bridge_releaseLoaded j (some x)))
  | giveBack j o props => exact h.congr (congrArg Bridge.table (s.bridge_releaseLoaded j o))
  | free j b props => exact h.congr (table_stepFree b props)
  | done reply => exact h

theorem Undisturbed.waits {t : Task} (h : t.Undisturbed s) (ht : t.loads = some i) : s.Waits i := by
  have wait : (∃ b, s.binding? i = some b ∧ b.state = .awaitingLoad) → s.Waits i := by
    rintro ⟨b, hb, hst⟩ c hc
    rw [hb] at hc
    cases hc
    exact hst
  cases t with
  | decode => cases ht; exact wait h
  | store => cases ht; exact wait h
  | _ => cases ht

/-- A load begins with a look-up and goes on after the file is decoded. -/
theorem loads_step [Loader L] {t : Task} (ht : (t.step s).1.loads = some i) :
    (∃ props, t = .lookup i props) ∨ ∃ path mode props, t = .decode i path mode props := by
  cases t with
  | lookup j props =>
    refine .inl ⟨props, ?_⟩
    simp only [step, stepLookup] at ht
    split at ht
    · cases ht
    · split at ht <;> cases ht <;> rfl
  | decode j path mode props =>
    refine .inr ⟨path, mode, props, ?_⟩
    simp only [step, stepDecode] at ht
    split at ht <;> cases ht
    rfl
  | bind | store | unload | remove | free =>
    simp only [step, stepBind, stepStore, stepUnload, stepRemove, stepFree] at ht
    repeat' split at ht
    all_goals cases ht
  | retire | discard | giveBack | done => cases ht

/-- A load that goes on finds its binding waiting. -/
theorem waits_of_loads_step [Loader L] {t : Task} (h : t.loads = some i → s.Waits i)
    (ht : (t.step s).1.loads = some i) : (t.step s).2.Waits i := by
  rcases loads_step ht with ⟨props, rfl⟩ | ⟨path, mode, props, rfl⟩
  · have hu : (Task.lookup i props).Undisturbed s := trivial
    exact hu.step.waits ht
  · exact waits_step (h rfl) _ fun x props' => by simp

theorem fits_of_waits {t : Task} (h : ∀ i, t.loads = some i → s.Waits i) : t.Fits s := by
  cases t with
  | store i x props => exact h i rfl
  | _ => trivial

theorem drops_eq_none {t : Task} (h : t.Fits s) : t.drops s = none := by
  cases t with
  | store i x props =>
    simp only [drops]
    split
    · rw [h _ ‹_›, if_pos (by decide)]
    · rfl
  | _ => rfl

end Task

end

namespace Ledger

variable {L : Type} [Loader L] [LawfulLoader L] {s : Backstage L} {held : List SoundId}

theorem perm {held' : List SoundId} (h : Ledger s held) (hp : held.Perm held') : Ledger s held' := by
  refine ⟨h.sane, h.settled, fun x => ?_, h.once, hp.nodup_iff.mp h.nodup, fun hb hx hm => ?_⟩
  · rw [h.live, hp.mem_iff]
  · exact h.apart hb hx (hp.mem_iff.mpr hm)

/-- A step of a call that others have disturbed either keeps all sounds in hand or drops one. -/
theorem step_or_drop {t : Task} (h : Ledger s (t.held ++ held)) (ht : t.Settled) :
    Ledger (t.step s).2 ((t.step s).1.held ++ ((t.drops s).toList ++ held)) := by
  by_cases hf : t.Fits s
  · have hnone : t.drops s = none := by
      cases t with
      | store i x props =>
        simp only [Task.drops]
        split
        · rw [hf _ ‹_›, if_pos (by decide)]
        · rfl
      | _ => rfl
    rw [hnone]
    exact h.step ht hf
  · cases t with
    | store i x props =>
      unfold Task.Fits at hf
      push Not at hf
      obtain ⟨b, hb, hst⟩ := hf
      have hno : b.state.canBecome .loaded = false := by
        cases hs : b.state <;> first | rfl | exact absurd hs hst
      simp only [Task.step, Task.stepStore, Task.drops, hb, hno]
      exact h
    | _ => exact absurd trivial hf

end Ledger

/-! ### The whole traffic -/

namespace Traffic

variable {s : Traffic}

/-- What holds at every point, whatever the calls in flight do to one another. -/
structure Booked (s : Traffic) : Prop where
  ledger : Ledger s.stage (s.calls.flatMap Task.held ++ s.dropped)
  settled : ∀ t ∈ s.calls, t.Settled
  accounted : Accounted s.stage.loader s.decoded s.released

namespace Booked

theorem start (disk : Disk) (files : List Path) : Booked { stage := { disk, loader := .ofFiles files } } := by
  have hdead : ∀ x, ¬(ScriptedLoader.ofFiles files).IsLive x := fun x h => h rfl
  refine ⟨.empty rfl (fun x hx => absurd hx (hdead x)) hdead, fun t ht => absurd ht List.not_mem_nil, ?_⟩
  exact ⟨fun x => by simp [hdead x], .nil, .nil, by simp, by simp⟩

/-- What a call holds is live, so the loader takes it back. -/
theorem release_isOk (h : s.Booked) {t : Task} (ht : t ∈ s.calls) {x : SoundId} (hx : t.givesBack = some x) :
    ∃ l, s.stage.loader.release x = .ok l := by
  refine LawfulLoader.release_isOk ((h.ledger.live x).mpr (.inl (List.mem_append_left _ ?_)))
  exact List.mem_flatMap.mpr ⟨t, ht, Task.mem_held_of_givesBack hx⟩

theorem step (h : s.Booked) (k : Nat) : (s.step k).Booked := by
  rcases s.step_cases k with he | ⟨before, t, after, hsplit, he⟩ <;> rw [he]
  · exact h
  · have ht : t ∈ s.calls := by rw [hsplit]; exact List.mem_append_right _ (List.mem_cons_self ..)
    -- what the other calls hold stands aside during the step
    let aside := before.flatMap Task.held ++ after.flatMap Task.held ++ s.dropped
    have hin : Ledger s.stage (t.held ++ aside) := by
      refine h.ledger.perm (List.perm_iff_count.mpr fun x => ?_)
      simp only [hsplit, aside, List.flatMap_append, List.flatMap_cons, List.count_append]
      omega
    have hout := hin.step_or_drop (h.settled t ht)
    refine ⟨?_, fun u hu => ?_, h.accounted.step t fun x => h.release_isOk ht⟩
    · refine hout.perm (List.perm_iff_count.mpr fun x => ?_)
      simp only [aside, List.flatMap_append, List.flatMap_cons, List.count_append]
      omega
    · rcases List.mem_cons.mp (List.perm_middle.mem_iff.mp hu) with rfl | hu
      · exact Task.settled_step hin.settled t
      · exact h.settled u (by rw [hsplit]; exact List.perm_middle.mem_iff.mpr (List.mem_cons_of_mem _ hu))

theorem beat (h : s.Booked) (b : Beat) : (s.beat b).Booked := by
  cases b with
  | enter call =>
    have hheld : call.task.held = [] := by
      cases call with
      | bind => rfl
      | dispatch kind => cases kind <;> rfl
    refine ⟨?_, fun t ht => ?_, h.accounted⟩
    · simpa only [Traffic.beat, List.flatMap_append, List.flatMap_singleton, hheld, List.append_nil]
        using h.ledger
    · rcases List.mem_append.mp ht with ht | ht
      · exact h.settled t ht
      · cases List.mem_singleton.mp ht
        cases call with
        | bind => trivial
        | dispatch kind => cases kind <;> trivial
  | step k => exact h.step k
  | files disk files =>
    have ha := h.accounted
    exact ⟨h.ledger.relend rfl h.ledger.sane fun _ => Iff.rfl, h.settled,
      ⟨ha.live, ha.decodedOnce, ha.releasedOnce, ha.genuine, ha.issued⟩⟩

theorem run (disk : Disk) (files : List Path) (beats : List Beat) : (run disk files beats).Booked := by
  induction beats using List.reverseRecOn with
  | nil => exact start disk files
  | append_singleton beats b ih =>
    rw [run_concat]
    exact ih.beat b

end Booked

/-- What holds as long as the loads of each instance come one after another. -/
structure Spared (s : Traffic) : Prop where
  waits : ∀ t ∈ s.calls, ∀ i, t.loads = some i → s.stage.Waits i
  dropped : s.dropped = []

namespace Spared

theorem step (h : s.Spared) (ha : s.Apart) (k : Nat) : (s.step k).Spared := by
  rcases s.step_cases k with he | ⟨before, t, after, hsplit, he⟩ <;> rw [he]
  · exact h
  · have ht : t ∈ s.calls := by rw [hsplit]; exact List.mem_append_right _ (List.mem_cons_self ..)
    -- no other call loads what this one is about to store
    have halone : ∀ u ∈ before ++ after, ∀ i, u.loads = some i → t.loads ≠ some i := by
      intro u hu i hui hti
      have hnd : (s.calls.filterMap Task.loads).Nodup := ha
      rw [hsplit, List.filterMap_append, List.filterMap_cons_some hti] at hnd
      have hi := (List.nodup_middle.mp hnd).notMem
      rw [← List.filterMap_append] at hi
      exact hi (List.mem_filterMap.mpr ⟨u, hu, hui⟩)
    refine ⟨fun u hu i hui => ?_, ?_⟩
    · rcases List.mem_cons.mp (List.perm_middle.mem_iff.mp hu) with rfl | hu
      · exact Task.waits_of_loads_step (h.waits t ht i) hui
      · have hold : u ∈ s.calls := by rw [hsplit]; exact List.perm_middle.mem_iff.mpr (List.mem_cons_of_mem _ hu)
        refine Task.waits_step (h.waits u hold i hui) t fun x props e => ?_
        exact halone u hu i hui (by rw [e]; rfl)
    · dsimp only
      rw [h.dropped, Task.drops_eq_none (Task.fits_of_waits (h.waits t ht))]
      rfl

theorem beat (h : s.Spared) (ha : s.Apart) (b : Beat) : (s.beat b).Spared := by
  cases b with
  | enter call =>
    refine ⟨fun t ht i hti => ?_, h.dropped⟩
    rcases List.mem_append.mp ht with ht | ht
    · exact h.waits t ht i hti
    · cases List.mem_singleton.mp ht
      cases call with
      | bind => cases hti
      | dispatch kind => cases kind <;> cases hti
  | step k => exact h.step ha k
  | files disk files => exact ⟨h.waits, h.dropped⟩

theorem run {disk : Disk} {files : List Path} {beats : List Beat}
    (h : ∀ before, before <+: beats → (Traffic.run disk files before).Apart) :
    (Traffic.run disk files beats).Spared := by
  induction beats using List.reverseRecOn with
  | nil => exact ⟨fun t ht => absurd ht List.not_mem_nil, rfl⟩
  | append_singleton beats b ih =>
    rw [run_concat]
    exact (ih fun before hb => h before (hb.trans (List.prefix_append ..))).beat
      (h beats (List.prefix_append ..)) b

end Spared

theorem held_of_idle (h : s.Idle) : s.calls.flatMap Task.held = [] := by
  refine List.flatMap_eq_nil_iff.mpr fun t ht => ?_
  have hr := h t ht
  cases t with
  | done reply => rfl
  | _ => cases hr

end Traffic

/-- Calls of one bridge may interleave in any way. A sound is live just as long as a call holds it, a
loaded binding has it, or it was dropped, and only one of these at a time; a decoded sound that is
not live was released once; no release is refused. If no two loads of one instance ever overlap, no
sound is dropped, so between calls the live sounds are those of the loaded bindings. -/
theorem traffic_in_custody (disk : Disk) (files : List Path) (beats : List Traffic.Beat) :
    let s := Traffic.run disk files beats
    let kept := s.calls.flatMap Task.held ++ s.dropped
    (∀ x, s.stage.loader.live.contains x = true ↔
      x ∈ kept ∨ ∃ i b, s.stage.binding? i = some b ∧ b.state = .loaded ∧ b.loaded = some x) ∧
    kept.Nodup ∧ (∀ i b x, s.stage.binding? i = some b → b.loaded = some x → x ∉ kept) ∧
    (∀ i j b c x, s.stage.binding? i = some b → s.stage.binding? j = some c →
      b.loaded = some x → c.loaded = some x → i = j) ∧
    (∀ x, s.stage.loader.live.contains x = true ↔ x ∈ s.decoded ∧ x ∉ s.released) ∧
    s.decoded.Nodup ∧ s.released.Nodup ∧
    (∀ t ∈ s.calls, ∀ x, t.givesBack = some x → ∃ l, s.stage.loader.release x = .ok l) ∧
    ((∀ before, before <+: beats → (Traffic.run disk files before).Apart) →
      s.dropped = [] ∧ (s.Idle → ∀ x, s.stage.loader.live.contains x = true ↔
        ∃ i b, s.stage.binding? i = some b ∧ b.state = .loaded ∧ b.loaded = some x)) := by
  intro s kept
  have h : s.Booked := .run disk files beats
  have hcontains : ∀ x, s.stage.loader.live.contains x = true ↔ s.stage.loader.IsLive x := fun x => by
    rw [Table.contains_iff, ← Option.ne_none_iff_exists']
    exact Iff.rfl
  have hkeeper : ∀ x, s.stage.loader.live.contains x = true ↔
      x ∈ kept ∨ ∃ i b, s.stage.binding? i = some b ∧ b.state = .loaded ∧ b.loaded = some x := by
    intro x
    rw [hcontains]
    refine (h.ledger.live x).trans (or_congr Iff.rfl ?_)
    constructor
    · rintro ⟨i, b, hb, hx⟩
      exact ⟨i, b, hb, (h.ledger.settled hb).sound.mp (by rw [hx]; rfl), hx⟩
    · rintro ⟨i, b, hb, -, hx⟩
      exact ⟨i, b, hb, hx⟩
  refine ⟨hkeeper, h.ledger.nodup, fun i b x => h.ledger.apart, fun i j b c x => h.ledger.once,
    fun x => (hcontains x).trans (h.accounted.live x), h.accounted.decodedOnce, h.accounted.releasedOnce,
    fun t ht x => h.release_isOk ht, fun hapart => ?_⟩
  have hdropped : s.dropped = [] := (Traffic.Spared.run hapart).dropped
  refine ⟨hdropped, fun hidle x => ?_⟩
  have hnone : kept = [] := by
    simp only [kept, Traffic.held_of_idle hidle, hdropped, List.append_nil]
  rw [hkeeper, hnone]
  simp

/-- Two loads of one instance overlap: while the first has looked up its binding, the second runs from
end to end. The sound of the first is decoded, dropped, and stays live for good. -/
theorem overlapping_loads_strand :
    let create : Traffic.Beat := .enter (.dispatch .createSound ⟨1⟩ {})
    let s := Traffic.run .empty [⟨"a.wav"⟩]
      [.enter (.bind ⟨1⟩ ⟨"a.wav"⟩ .programmerSound), .step 0, create, .step 1,
        create, .step 2, .step 2, .step 2, .step 1, .step 1]
    s.Idle ∧ s.stage.loader.live.contains ⟨2⟩ = true ∧ s.released = [] ∧
      ∀ i b, s.stage.binding? i = some b → b.loaded ≠ some ⟨2⟩ := by
  intro create s
  have htable : s.stage.bridge.table.entries =
      [(⟨1⟩, ⟨⟨"a.wav"⟩, .programmerSound, .loaded, some ⟨1⟩⟩)] := by decide +kernel
  refine ⟨by unfold Traffic.Idle; decide +kernel, by decide +kernel, by decide +kernel, fun i b hb => ?_⟩
  unfold Backstage.binding? Table.get? at hb
  rw [htable, Table.find] at hb
  split at hb <;> cases hb
  decide

end Soundstage
