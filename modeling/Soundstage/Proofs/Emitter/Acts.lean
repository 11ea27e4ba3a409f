import Soundstage.Proofs.Engine.Writes

/-!
# What an emitter does to its instances

One statement for each operation that neither creates nor starts anything: the rig is rewritten
(`Wrote`) by the call of the engine, on just the instances that were meant, and the handles become
what the statement says. The lists of handles never name an instance twice; that is why one pass
over them rewrites each instance once.
-/

namespace Soundstage

open Playable Staged

namespace Handle

/-- The handle once its instance was given up, if that is one of `ids`. -/
def mark (ids : List InstanceId) (h : Handle) : Handle :=
  if h.instanceId ∈ ids then { h with released := true } else h

@[simp]
theorem instanceId_mark (ids : List InstanceId) (h : Handle) : (h.mark ids).instanceId = h.instanceId := by
  unfold mark
  split <;> rfl

theorem mark_of_not_mem {ids : List InstanceId} {h : Handle} (hm : h.instanceId ∉ ids) : h.mark ids = h :=
  if_neg hm

theorem map_mark_of_not_mem {ids : List InstanceId} {hs : List Handle}
    (hm : ∀ h ∈ hs, h.instanceId ∉ ids) : hs.map (mark ids) = hs := by
  refine (List.map_congr_left fun h hh => ?_).trans (List.map_id hs)
  exact mark_of_not_mem (hm h hh)

end Handle

namespace Emitter

theorem markReleased_eq (i : InstanceId) {hs : List Handle} (hnd : (hs.map Handle.instanceId).Nodup) :
    markReleased i hs = hs.map (Handle.mark [i]) := by
  induction hs with
  | nil => rfl
  | cons h rest ih =>
    obtain ⟨hh, hnd⟩ := List.nodup_cons.mp hnd
    unfold markReleased
    split
    · rename_i hi
      have hrest : rest.map (Handle.mark [i]) = rest := by
        refine Handle.map_mark_of_not_mem fun g hg hm => hh ?_
        rw [hi, ← List.mem_singleton.mp hm]
        exact List.mem_map_of_mem hg
      rw [List.map_cons, hrest]
      simp [Handle.mark, hi]
    · rename_i hi
      rw [List.map_cons, ih hnd, Handle.mark_of_not_mem (by simpa using hi)]

/-! ### Which instances -/

section

variable {E L : Type} [Loader L] [Engine E L]

/-- The instances that `releaseEach` gives up. -/
def kept (hs : List Handle) (r : Rig E L) : List InstanceId :=
  (hs.filter fun h => !h.released && r.isValid h.instanceId).map Handle.instanceId

theorem kept_sublist (hs : List Handle) (r : Rig E L) : (kept hs r).Sublist (hs.map Handle.instanceId) :=
  List.filter_sublist.map _

theorem kept_cons_of_skip {h : Handle} {hs : List Handle} {r : Rig E L}
    (hk : (h.released || !r.isValid h.instanceId) = true) : kept (h :: hs) r = kept hs r := by
  unfold kept
  rw [List.filter_cons_of_neg (by simpa [or_iff_not_imp_left] using hk)]

theorem kept_cons {h : Handle} {hs : List Handle} {r : Rig E L}
    (hk : ¬(h.released || !r.isValid h.instanceId) = true) : kept (h :: hs) r = h.instanceId :: kept hs r := by
  unfold kept
  rw [List.filter_cons_of_pos (by simpa using hk), List.map_cons]

theorem mem_dead_iff (em : Emitter) {r : Rig E L} {h : Handle} (hm : h ∈ em.handles) :
    h.instanceId ∈ em.dead r ↔ r.isValid h.instanceId = false := by
  simp only [dead, List.mem_map, List.mem_filter]
  constructor
  · rintro ⟨g, ⟨-, hg⟩, e⟩
    rw [← e]
    simpa using hg
  · exact fun hv => ⟨h, ⟨hm, by simp [hv]⟩, rfl⟩

/-- A tick forgets just the handles whose instances are gone. -/
theorem tick_emitter (em : Emitter) (position : Vec3) (r : Rig E L) :
    (em.tick position r).2.1 =
      { em.setPosition position with handles := em.handles.filter fun h => r.isValid h.instanceId } := by
  have live : (em.handles.filter fun h => !((em.setPosition position).dead r).contains h.instanceId) =
      em.handles.filter fun h => r.isValid h.instanceId := by
    refine List.filter_congr fun h hh => ?_
    have := mem_dead_iff (em.setPosition position) (r := r) hh
    cases hv : r.isValid h.instanceId <;> simp [this, hv]
  unfold tick
  dsimp only
  split
  · rename_i hempty
    rw [List.isEmpty_iff.mp hempty] at live
    rw [live.symm.trans (List.filter_eq_self.mpr fun _ _ => rfl)]
    rfl
  · exact congrArg (fun hs => { em.setPosition position with handles := hs }) live

end

variable {E L X S : Type} [Loader L] [LawfulLoader L] [Engine E L] [Staged E X S] [Playable X S]
  [LawfulEngine E L X S] {hs : List Handle}

/-! ### Writes to one instance -/

theorem register_wrote (i : InstanceId) (receiver : Receiver) (r : Rig E L) :
    Wrote (onEach [i] (receive receiver)) r (register i receiver r) :=
  .attempt r _ (LawfulEngine.setReceiver r.engine i receiver)

theorem place_wrote (em : Emitter) (i : InstanceId) (r : Rig E L) :
    Wrote (onEach [i] (Playable.place em.attributes)) r (em.place i r) :=
  .attempt r _ (LawfulEngine.setAttributes r.engine i em.attributes)

theorem release_wrote (i : InstanceId) (r : Rig E L) :
    Wrote (onEach [i] Playable.release) r (release i r) :=
  .attempt r _ (LawfulEngine.release r.engine i)

theorem stopInstance_wrote (i : InstanceId) (mode : StopMode) (r : Rig E L) :
    Wrote (onEach [i] (Playable.stop r.setting mode)) r (stopInstance i mode r).2 := by
  have h := Wrote.act r (LawfulEngine.stop r.engine i mode)
  unfold stopInstance
  generalize r.act (Engine.stop i mode) = c at h ⊢
  obtain ⟨result, r'⟩ := c
  cases result with
  | ok _ => exact h
  | error e => exact h.then_say _ (by decide)

theorem stopInstance_isOk {i : InstanceId} {r : Rig E L} (mode : StopMode) (h : r.instance? i ≠ none) :
    (stopInstance i mode r).1 = true := by
  obtain ⟨e, he⟩ := LawfulEngine.stop_isOk (L := L) mode h
  simp only [stopInstance, Rig.act, he]

theorem stopInstance_backstage {i : InstanceId} {r : Rig E L} (mode : StopMode) (h : r.instance? i ≠ none) :
    (stopInstance i mode r).2.toBackstage = r.toBackstage := by
  obtain ⟨e, he⟩ := LawfulEngine.stop_isOk (L := L) mode h
  simp only [stopInstance, Rig.act, he]

theorem releaseHandle_wrote (i : InstanceId) (r : Rig E L) :
    Wrote (onEach [i] Playable.release) r (releaseHandle i r).2 := by
  have h := Wrote.act r (LawfulEngine.release r.engine i)
  unfold releaseHandle
  generalize r.act (Engine.release i) = c at h ⊢
  obtain ⟨result, r'⟩ := c
  cases result with
  | ok _ => exact h
  | error e => exact h.then_say _ (by decide)

theorem releaseHandle_isOk {i : InstanceId} {r : Rig E L} (h : r.instance? i ≠ none) :
    (releaseHandle i r).1 = true := by
  obtain ⟨e, he⟩ := LawfulEngine.release_isOk (L := L) h
  simp only [releaseHandle, Rig.act, he]

theorem releaseHandle_backstage {i : InstanceId} {r : Rig E L} (h : r.instance? i ≠ none) :
    (releaseHandle i r).2.toBackstage = r.toBackstage := by
  obtain ⟨e, he⟩ := LawfulEngine.release_isOk (L := L) h
  simp only [releaseHandle, Rig.act, he]

/-! ### Writes to every instance -/

theorem pushFloat_wrote (name : String) (value : Float32) (r : Rig E L) (h : Handle) :
    Wrote (onEach [h.instanceId] (Playable.setFloat name value)) r (pushFloat name value r h) := by
  unfold pushFloat
  split
  · exact .absent (Rig.absent ‹_›)
  · exact .attempt r _ (LawfulEngine.setFloat r.engine h.instanceId name value)

theorem pushLabel_wrote (name label : String) (r : Rig E L) (h : Handle) :
    Wrote (onEach [h.instanceId] (Playable.setLabel name label)) r (pushLabel name label r h) := by
  unfold pushLabel
  split
  · exact .absent (Rig.absent ‹_›)
  · exact .attempt r _ (LawfulEngine.setLabel r.engine h.instanceId name label)

theorem moveHandle_wrote (em : Emitter) (r : Rig E L) (h : Handle) :
    Wrote (onEach [h.instanceId] (Playable.place em.attributes)) r (em.moveHandle r h) := by
  unfold moveHandle
  split
  · exact .absent (Rig.absent ‹_›)
  · exact em.place_wrote h.instanceId r

theorem stopEach_wrote (mode : StopMode) (hnd : (hs.map Handle.instanceId).Nodup) (r : Rig E L) :
    Wrote (onEach (hs.map Handle.instanceId) (Playable.stop r.setting mode)) r (stopEach mode hs r).2 := by
  induction hs generalizing r with
  | nil => exact .nowhere r _
  | cons h rest ih =>
    obtain ⟨hh, hnd⟩ := List.nodup_cons.mp hnd
    have first : ∀ {r'}, Wrote (onEach [h.instanceId] (Playable.stop r.setting mode)) r r' → Wrote
        (onEach ((h :: rest).map Handle.instanceId) (Playable.stop r.setting mode)) r (stopEach mode rest r').2 := by
      intro r' h'
      have hrest := ih hnd r'
      rw [h'.setting] at hrest
      exact (h'.trans hrest).congr fun {j x} _ => onEach_cons hh j x
    unfold stopEach
    split
    · exact first (.absent (Rig.absent ‹_›))
    · exact first (stopInstance_wrote h.instanceId mode r)

include X S in
/-- Stopping what is there is never refused, so there is nothing to log. -/
theorem stopEach_backstage (mode : StopMode) (hs : List Handle) (r : Rig E L) :
    (stopEach mode hs r).2.toBackstage = r.toBackstage := by
  induction hs generalizing r with
  | nil => rfl
  | cons h rest ih =>
    unfold stopEach
    cases hv : r.isValid h.instanceId with
    | false => exact ih r
    | true => exact (ih _).trans (stopInstance_backstage mode (Rig.present hv))

/-- What was kept and is there is given up, and marked so. -/
theorem releaseEach_spec (hnd : (hs.map Handle.instanceId).Nodup) (r : Rig E L) :
    Wrote (onEach (kept hs r) Playable.release) r (releaseEach hs r).2.2 ∧
      (releaseEach hs r).2.1 = hs.map (Handle.mark (kept hs r)) := by
  induction hs generalizing r with
  | nil => exact ⟨.nowhere r _, rfl⟩
  | cons h rest ih =>
    obtain ⟨hh, hnd⟩ := List.nodup_cons.mp hnd
    have hout : h.instanceId ∉ kept rest r := fun hm => hh ((kept_sublist rest r).subset hm)
    unfold releaseEach
    split
    · rename_i hskip
      obtain ⟨hw, hm⟩ := ih hnd r
      rw [kept_cons_of_skip hskip, List.map_cons, Handle.mark_of_not_mem hout]
      exact ⟨hw, congrArg (h :: ·) hm⟩
    · rename_i hkeep
      have hv : r.isValid h.instanceId = true := (by simpa using hkeep : _ ∧ _).2
      have hok := releaseHandle_isOk (Rig.present hv)
      have first := releaseHandle_wrote h.instanceId r
      generalize releaseHandle h.instanceId r = c at hok first ⊢
      obtain ⟨released, r'⟩ := c
      cases hok
      dsimp only at first ⊢
      obtain ⟨hw, hm⟩ := ih hnd r'
      have same : kept rest r' = kept rest r := by
        unfold kept
        simp only [first.isValid]
      -- the others are marked alike, as none of them is of the first instance
      have others : rest.map (Handle.mark (h.instanceId :: kept rest r)) = rest.map (Handle.mark (kept rest r)) := by
        refine List.map_congr_left fun g hg => ?_
        have hne : g.instanceId ≠ h.instanceId := fun e => hh (e ▸ List.mem_map_of_mem hg)
        unfold Handle.mark
        simp only [List.mem_cons, hne, false_or]
      rw [same] at hw hm
      rw [kept_cons hkeep, List.map_cons, others, if_pos rfl, hm]
      exact ⟨(first.trans hw).congr fun {j x} _ => onEach_cons hout j x, by simp [Handle.mark]⟩

include X S in
theorem releaseEach_backstage (hs : List Handle) (r : Rig E L) :
    (releaseEach hs r).2.2.toBackstage = r.toBackstage := by
  induction hs generalizing r with
  | nil => rfl
  | cons h rest ih =>
    unfold releaseEach
    split
    · exact ih r
    · rename_i hkeep
      have hv : r.isValid h.instanceId = true := (by simpa using hkeep : _ ∧ _).2
      have hboth := (ih (releaseHandle h.instanceId r).2).trans (releaseHandle_backstage (Rig.present hv))
      dsimp only
      split <;> exact hboth

/-! ### The operations of an emitter -/

theorem stopAll_wrote {em : Emitter} (mode : StopMode) (hnd : (em.handles.map Handle.instanceId).Nodup)
    (r : Rig E L) : Wrote (onEach (em.handles.map Handle.instanceId) (Playable.stop r.setting mode)) r
      (em.stopAll mode r).2 :=
  stopEach_wrote mode hnd r

theorem releaseKept_spec {em : Emitter} (hnd : (em.handles.map Handle.instanceId).Nodup) (r : Rig E L) :
    Wrote (onEach (kept em.handles r) Playable.release) r (em.releaseKept r).2.2 ∧
      (em.releaseKept r).2.1 = { em with handles := em.handles.map (Handle.mark (kept em.handles r)) } := by
  obtain ⟨hw, hm⟩ := releaseEach_spec hnd r
  exact ⟨hw, congrArg (fun hs => { em with handles := hs }) hm⟩

theorem setFloat_wrote {em : Emitter} (name : String) (value : Float32)
    (hnd : (em.handles.map Handle.instanceId).Nodup) (r : Rig E L) :
    Wrote (onEach (em.handles.map Handle.instanceId) (Playable.setFloat name value)) r (em.setFloat name value r).2 :=
  .foldl (pushFloat_wrote name value) hnd r

theorem setLabel_wrote {em : Emitter} (name label : String) (hnd : (em.handles.map Handle.instanceId).Nodup)
    (r : Rig E L) :
    Wrote (onEach (em.handles.map Handle.instanceId) (Playable.setLabel name label)) r (em.setLabel name label r).2 :=
  .foldl (pushLabel_wrote name label) hnd r

theorem stop_wrote (em : Emitter) (event : String) (mode : StopMode) (r : Rig E L) :
    ∃ hs : List Handle, hs ⊆ em.handles ∧ (hs.map Handle.instanceId).Nodup ∧
      Wrote (onEach (hs.map Handle.instanceId) (Playable.stop r.setting mode)) r (em.stop event mode r).2 := by
  unfold stop
  split
  · refine ⟨[], List.nil_subset _, List.nodup_nil, ?_⟩
    exact (Wrote.nowhere r _).then_say _ (by decide)
  · rename_i h hh
    exact ⟨[h], by simpa using List.mem_of_find?_eq_some hh, by simp, stopInstance_wrote h.instanceId mode r⟩

/-- What stopping by handle comes to. -/
inductive Stopped (mode : StopMode) (i : InstanceId) (em : Emitter) (r : Rig E L) : Bool × Emitter × Rig E L → Prop
  /-- The instance is gone or not of this emitter. -/
  | nothing : (∀ h ∈ em.handles, h.instanceId = i → r.instance? i = none) → Stopped mode i em r (false, em, r)
  | stopped {h : Handle} {r' : Rig E L} : h ∈ em.handles → h.instanceId = i → h.released = true →
    r.instance? i ≠ none → Wrote (onEach [i] (Playable.stop r.setting mode)) r r' → Stopped mode i em r (true, em, r')
  | released {h : Handle} {r' r'' : Rig E L} : h ∈ em.handles → h.instanceId = i → h.released = false →
    r.instance? i ≠ none → Wrote (onEach [i] (Playable.stop r.setting mode)) r r' →
    Wrote (onEach [i] Playable.release) r' r'' →
    Stopped mode i em r (true, { em with handles := em.handles.map (Handle.mark [i]) }, r'')

theorem stopHandle_stopped {em : Emitter} (hnd : (em.handles.map Handle.instanceId).Nodup) (handle : Handle)
    (mode : StopMode) (r : Rig E L) : Stopped mode handle.instanceId em r (em.stopHandle handle mode r) := by
  unfold stopHandle
  cases hf : em.handle? handle.instanceId with
  | none =>
    refine .nothing fun h hh hi => ?_
    have := List.find?_eq_none.mp hf h hh
    simp [hi] at this
  | some owned =>
    have hm : owned ∈ em.handles := List.mem_of_find?_eq_some hf
    have hi : owned.instanceId = handle.instanceId := by simpa using List.find?_some hf
    rw [← hi]
    dsimp only
    split
    · exact .nothing fun _ _ _ => Rig.absent ‹_›
    · rename_i hv
      replace hv : r.isValid owned.instanceId = true := by simpa using hv
      have hlive := Rig.present hv
      have hok := stopInstance_isOk mode hlive
      have hstop := stopInstance_wrote owned.instanceId mode r
      generalize stopInstance owned.instanceId mode r = c at hok hstop ⊢
      obtain ⟨stopped, r'⟩ := c
      cases hok
      dsimp only at hstop ⊢
      split
      · exact .stopped hm rfl ‹_› hlive hstop
      · rename_i hrel
        have hok' := releaseHandle_isOk (Rig.present ((hstop.isValid _).trans hv))
        have hgive := releaseHandle_wrote owned.instanceId r'
        generalize releaseHandle owned.instanceId r' = c at hok' hgive ⊢
        obtain ⟨released, r''⟩ := c
        cases hok'
        dsimp only at hgive ⊢
        rw [markReleased_eq _ hnd]
        exact .released hm rfl (by simpa using hrel) hlive hstop hgive

theorem tick_wrote {em : Emitter} (position : Vec3) (hnd : (em.handles.map Handle.instanceId).Nodup) (r : Rig E L) :
    Wrote (onEach (em.handles.map Handle.instanceId) (Playable.place { em.attributes with position })) r
      (em.tick position r).2.2 := by
  have h : Wrote _ r (em.handles.foldl (em.setPosition position).moveHandle r) :=
    .foldl (moveHandle_wrote (em.setPosition position)) hnd r
  unfold tick
  dsimp only
  split
  · exact h
  · exact h.then_say _ (by decide)

end Emitter

end Soundstage
