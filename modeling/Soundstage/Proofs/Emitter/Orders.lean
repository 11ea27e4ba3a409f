import Mathlib.Data.List.Nodup
import Soundstage.Proofs.Emitter.Posting
import Soundstage.Proofs.Engine.Recorded

/-!
# The orders of an emitter

What an emitter does to a rig with a record is what it does to the rig, with its orders written down; and each
operation says which these are. All of them are carried out: an emitter asks whether an instance is there before it
stops it or gives it up, a stop leaves it there, and so does the start of a new one.
-/

namespace Soundstage

open Staged

/-- Stop each of these instances. -/
def stops (mode : StopMode) (ids : List InstanceId) : List Entry := ids.map fun i => (.stop i mode, true)

/-- Give up each of these instances. -/
def releases (ids : List InstanceId) : List Entry := ids.map fun i => (.release i, true)

/-- The orders of a post: what is not kept is given up as soon as it was started. -/
def Handle.orders (h : Handle) : List Entry := if h.released then releases [h.instanceId] else []

/-- The orders of a post that may have failed. -/
def postOrders (answer : Option Handle) : List Entry := answer.elim [] Handle.orders

/-! ### What makes no orders -/

section

variable {E L : Type} (r : Rig E L) (es : List Entry)

theorem Emitter.checkFile_recorded (em : Emitter) (file : Path) :
    em.checkFile file (r.recorded es) = (em.checkFile file r).recorded es := by
  unfold checkFile
  rw [Rig.toBackstage_recorded]
  split <;> rfl

theorem Emitter.bindFile_recorded [Loader L] (i : InstanceId) (file : Path) :
    bindFile i file (r.recorded es) = (bindFile i file r).recorded es := by
  unfold bindFile
  rw [Rig.toBackstage_recorded]
  rcases r.toBackstage.bind i file .programmerSound with ⟨_ | _, b⟩ <;> rfl

variable [Loader L] [Engine E L]

theorem Params.applyTo_recorded (p : Params) (i : InstanceId) :
    p.applyTo i (r.recorded es) = (p.applyTo i r).recorded es := by
  have floats : ∀ (r : Rig E L) (e : String × Float32),
      writeFloat i (r.recorded es) e = (writeFloat i r e).recorded es := fun r e => r.attempt_recorded es _ _
  have labels : ∀ (r : Rig E L) (e : String × String),
      writeLabel i (r.recorded es) e = (writeLabel i r e).recorded es := fun r e => r.attempt_recorded es _ _
  unfold applyTo
  rw [List.foldl_hom (Rig.recorded · es) floats, List.foldl_hom (Rig.recorded · es) labels]

namespace Emitter

variable (em : Emitter)

theorem create_recorded (event : String) :
    em.create event (r.recorded es) = ((em.create event r).1, (em.create event r).2.recorded es) := by
  unfold create
  rw [Rig.create_recorded]
  rcases r.create event with ⟨_ | i, r'⟩ <;> rfl

theorem register_recorded (i : InstanceId) (receiver : Receiver) :
    register i receiver (r.recorded es) = (register i receiver r).recorded es :=
  r.attempt_recorded es _ _

theorem place_recorded (i : InstanceId) : em.place i (r.recorded es) = (em.place i r).recorded es :=
  r.attempt_recorded es _ _

theorem prepare_recorded (i : InstanceId) : em.prepare i (r.recorded es) = (em.prepare i r).recorded es := by
  unfold prepare
  rw [place_recorded, Params.applyTo_recorded]

theorem startOrSay_recorded (i : InstanceId) (event : String) :
    em.startOrSay i event (r.recorded es) = (em.startOrSay i event r).recorded es := by
  unfold startOrSay
  rw [Rig.start_recorded]
  rcases r.start i with ⟨_ | _, r'⟩ <;> rfl

theorem setFloat_recorded (name : String) (value : Float32) : em.setFloat name value (r.recorded es) =
    ((em.setFloat name value r).1, (em.setFloat name value r).2.recorded es) := by
  have push : ∀ (r : Rig E L) (h : Handle),
      pushFloat name value (r.recorded es) h = (pushFloat name value r h).recorded es := fun r h => by
    unfold pushFloat
    rw [Rig.isValid_recorded]
    split
    · rfl
    · exact r.attempt_recorded es _ _
  unfold setFloat
  rw [List.foldl_hom (Rig.recorded · es) push]

theorem setLabel_recorded (name label : String) : em.setLabel name label (r.recorded es) =
    ((em.setLabel name label r).1, (em.setLabel name label r).2.recorded es) := by
  have push : ∀ (r : Rig E L) (h : Handle),
      pushLabel name label (r.recorded es) h = (pushLabel name label r h).recorded es := fun r h => by
    unfold pushLabel
    rw [Rig.isValid_recorded]
    split
    · rfl
    · exact r.attempt_recorded es _ _
  unfold setLabel
  rw [List.foldl_hom (Rig.recorded · es) push]

theorem tick_recorded (position : Vec3) : em.tick position (r.recorded es) =
    ((em.tick position r).1, (em.tick position r).2.1, (em.tick position r).2.2.recorded es) := by
  have move : ∀ (em : Emitter) (r : Rig E L) (h : Handle),
      em.moveHandle (r.recorded es) h = (em.moveHandle r h).recorded es := fun em r h => by
    unfold moveHandle
    rw [Rig.isValid_recorded]
    split
    · rfl
    · exact em.place_recorded r es h.instanceId
  unfold tick
  dsimp only
  rw [List.foldl_hom (Rig.recorded · es) (move _)]
  change (if ((em.setPosition position).dead r).isEmpty then _ else _) = _
  split <;> rfl

end Emitter

end

/-! ### Orders -/

namespace Emitter

variable {E L X S : Type} [Loader L] [LawfulLoader L] [Engine E L] [Staged E X S] [Playable X S]
  [LawfulEngine E L X S] {i : InstanceId} {r : Rig E L} (es : List Entry)

include X S

theorem stopInstance_recorded (mode : StopMode) (h : r.instance? i ≠ none) : stopInstance i mode (r.recorded es) =
    ((stopInstance i mode r).1, (stopInstance i mode r).2.recorded (es ++ stops mode [i])) := by
  obtain ⟨e, he⟩ := LawfulEngine.stop_isOk (L := L) mode h
  unfold stopInstance
  rw [show (r.recorded es).act (Engine.stop i mode) = _ from r.act_order es he (.stop i mode)]
  simp only [Rig.act, he]
  rfl

theorem releaseHandle_recorded (h : r.instance? i ≠ none) : releaseHandle i (r.recorded es) =
    ((releaseHandle i r).1, (releaseHandle i r).2.recorded (es ++ releases [i])) := by
  obtain ⟨e, he⟩ := LawfulEngine.release_isOk (L := L) h
  unfold releaseHandle
  rw [show (r.recorded es).act (Engine.release i) = _ from r.act_order es he (.release i)]
  simp only [Rig.act, he]
  rfl

theorem release_recorded (h : r.instance? i ≠ none) :
    release i (r.recorded es) = (release i r).recorded (es ++ releases [i]) := by
  obtain ⟨e, he⟩ := LawfulEngine.release_isOk (L := L) h
  exact r.attempt_order es he (.release i) _

/-- The instances of these handles that are there. -/
def present (hs : List Handle) (r : Rig E L) : List InstanceId :=
  (hs.filter fun h => r.isValid h.instanceId).map Handle.instanceId

theorem stopEach_recorded (mode : StopMode) (hs : List Handle) (r : Rig E L) : stopEach mode hs (r.recorded es) =
    ((stopEach mode hs r).1, (stopEach mode hs r).2.recorded (es ++ stops mode (present hs r))) := by
  induction hs generalizing r es with
  | nil => simp [stopEach, present, stops]
  | cons h rest ih =>
    unfold stopEach
    rw [Rig.isValid_recorded]
    cases hv : r.isValid h.instanceId with
    | false =>
      have hp : present (h :: rest) r = present rest r := by simp [present, hv]
      rw [hp]
      exact ih es r
    | true =>
      have hp : present (h :: rest) r = h.instanceId :: present rest (stopInstance h.instanceId mode r).2 := by
        have hsame := (stopInstance_wrote h.instanceId mode r).isValid
        simp [present, hv, hsame]
      rw [hp, stopInstance_recorded es mode (Rig.present hv)]
      simp only [Bool.not_true, Bool.false_eq_true, if_false]
      rw [ih, List.append_assoc]
      rfl

theorem stopAll_recorded (em : Emitter) (mode : StopMode) (r : Rig E L) : em.stopAll mode (r.recorded es) =
    ((em.stopAll mode r).1, (em.stopAll mode r).2.recorded (es ++ stops mode (present em.handles r))) :=
  stopEach_recorded es mode em.handles r

theorem releaseEach_recorded (hs : List Handle) (r : Rig E L) : releaseEach hs (r.recorded es) =
    ((releaseEach hs r).1, (releaseEach hs r).2.1, (releaseEach hs r).2.2.recorded (es ++ releases (kept hs r))) := by
  induction hs generalizing r es with
  | nil => simp [releaseEach, kept, releases]
  | cons h rest ih =>
    unfold releaseEach
    rw [Rig.isValid_recorded]
    by_cases hskip : (h.released || !r.isValid h.instanceId) = true
    · rw [if_pos hskip, if_pos hskip, kept_cons_of_skip hskip, ih]
    · have hv : r.isValid h.instanceId = true := (by simpa using hskip : _ ∧ _).2
      have hp : kept rest r = kept rest (releaseHandle h.instanceId r).2 := by
        have hsame := (releaseHandle_wrote h.instanceId r).isValid
        simp [kept, hsame]
      rw [if_neg hskip, if_neg hskip, kept_cons hskip, hp, releaseHandle_recorded es (Rig.present hv)]
      dsimp only
      rw [ih, List.append_assoc]
      split <;> rfl

theorem releaseKept_recorded (em : Emitter) (r : Rig E L) : em.releaseKept (r.recorded es) =
    ((em.releaseKept r).1, (em.releaseKept r).2.1,
      (em.releaseKept r).2.2.recorded (es ++ releases (kept em.handles r))) := by
  unfold releaseKept
  rw [releaseEach_recorded]

theorem stop_recorded (em : Emitter) (event : String) (mode : StopMode) (r : Rig E L) :
    em.stop event mode (r.recorded es) = ((em.stop event mode r).1, (em.stop event mode r).2.recorded
      (es ++ stops mode ((em.oldest? event r).map Handle.instanceId).toList)) := by
  unfold stop
  rw [show em.oldest? event (r.recorded es) = em.oldest? event r from rfl]
  cases ho : em.oldest? event r with
  | none => simp [stops, Rig.say_recorded]
  | some h =>
    have hv : r.isValid h.instanceId = true := by
      have := List.find?_some ho
      simp only [Bool.and_eq_true] at this
      exact this.1
    dsimp only
    rw [stopInstance_recorded es mode (Rig.present hv)]
    rfl

/-- The orders of stopping by handle: a stop if the instance is the emitter's and is there, and a release if it was
kept until then. -/
def handleOrders (em : Emitter) (handle : Handle) (mode : StopMode) (r : Rig E L) : List Entry :=
  match em.handle? handle.instanceId with
  | none => []
  | some owned =>
    if r.isValid owned.instanceId then
      stops mode [owned.instanceId] ++ if owned.released then [] else releases [owned.instanceId]
    else []

theorem handleOrders_of_absent {em : Emitter} {handle : Handle} (mode : StopMode)
    (h : ∀ g ∈ em.handles, g.instanceId = handle.instanceId → r.instance? handle.instanceId = none) :
    em.handleOrders handle mode r = [] := by
  unfold handleOrders
  cases hf : em.handle? handle.instanceId with
  | none => rfl
  | some owned =>
    have hi : owned.instanceId = handle.instanceId := by simpa using List.find?_some hf
    have hv : r.isValid owned.instanceId = false :=
      Rig.isValid_eq_false.mpr (hi ▸ h owned (List.mem_of_find?_eq_some hf) hi)
    simp [hv]

theorem handleOrders_of_mem {em : Emitter} {handle g : Handle} (hnd : (em.handles.map Handle.instanceId).Nodup)
    (hg : g ∈ em.handles) (hi : g.instanceId = handle.instanceId) (mode : StopMode)
    (hlive : r.instance? handle.instanceId ≠ none) : em.handleOrders handle mode r =
      stops mode [handle.instanceId] ++ if g.released then [] else releases [handle.instanceId] := by
  unfold handleOrders
  cases hf : em.handle? handle.instanceId with
  | none =>
    have := List.find?_eq_none.mp hf g hg
    simp [hi] at this
  | some owned =>
    have hi' : owned.instanceId = handle.instanceId := by simpa using List.find?_some hf
    cases List.inj_on_of_nodup_map hnd (List.mem_of_find?_eq_some hf) hg (hi'.trans hi.symm)
    have hv : r.isValid handle.instanceId = true := by
      rw [Rig.isValid_eq, Option.isSome_iff_ne_none]
      exact hlive
    simp [hi, hv]

theorem stopHandle_recorded (em : Emitter) (handle : Handle) (mode : StopMode) (r : Rig E L) :
    em.stopHandle handle mode (r.recorded es) = ((em.stopHandle handle mode r).1, (em.stopHandle handle mode r).2.1,
      (em.stopHandle handle mode r).2.2.recorded (es ++ em.handleOrders handle mode r)) := by
  unfold stopHandle handleOrders
  cases em.handle? handle.instanceId with
  | none => simp
  | some owned =>
    dsimp only
    rw [Rig.isValid_recorded]
    cases hv : r.isValid owned.instanceId with
    | false => simp
    | true =>
      have hok := stopInstance_isOk mode (Rig.present hv)
      have hw := stopInstance_wrote owned.instanceId mode r
      rw [stopInstance_recorded es mode (Rig.present hv)]
      generalize stopInstance owned.instanceId mode r = c at hok hw ⊢
      obtain ⟨stopped, r'⟩ := c
      cases hok
      dsimp only at hw ⊢
      cases owned.released with
      | true => simp
      | false =>
        have hv' := Rig.present ((hw.isValid _).trans hv)
        rw [releaseHandle_recorded _ hv']
        have hok' := releaseHandle_isOk hv'
        generalize releaseHandle owned.instanceId r' = c at hok' ⊢
        obtain ⟨released, r''⟩ := c
        cases hok'
        simp

/-! ### Posting -/

theorem startOrSay_present (em : Emitter) (event : String) (h : r.instance? i ≠ none) :
    (em.startOrSay i event r).instance? i ≠ none := by
  obtain ⟨x, hx⟩ := Option.ne_none_iff_exists'.mp h
  obtain ⟨x', hx', -⟩ := LawfulEngine.start_begun hx
  have hstart : (r.start i).2.instance? i ≠ none := by
    rw [show (r.start i).2.instance? i = _ from hx']
    simp
  rcases em.startOrSay_cases i event r with ⟨-, he⟩ | ⟨err, -, he⟩ <;> rw [he]
  · exact hstart
  · exact hstart

theorem launch_recorded (em : Emitter) (event : String) (fileBacked keep : Bool) (h : r.instance? i ≠ none) :
    em.launch i event fileBacked keep (r.recorded es) = ((em.launch i event fileBacked keep r).1,
      (em.launch i event fileBacked keep r).2.1, (em.launch i event fileBacked keep r).2.2.recorded
        (es ++ (em.launch i event fileBacked keep r).1.orders)) := by
  unfold launch
  rw [startOrSay_recorded]
  cases keep with
  | true => simp [Handle.orders]
  | false =>
    have hrelease := release_recorded es (em.startOrSay_present event h)
    simp only [Bool.false_eq_true, if_false, hrelease]
    rfl

theorem prepare_present (em : Emitter) {event : String} {r' : Rig E L} (h : em.create event r = (some i, r'))
    (receiver : Receiver) : (em.prepare i (register i receiver r')).instance? i ≠ none := by
  rcases em.create_cases event r with ⟨_, hc, -⟩ | ⟨j, _, hc, hm⟩ <;> cases h.symm.trans hc
  have hw := ((register_wrote i receiver r').trans (em.place_wrote i _)).trans (em.params.applyTo_wrote i _)
  unfold prepare
  rw [← Option.isSome_iff_ne_none, hw.isSome_iff, hm.self]
  rfl

theorem post_recorded (em : Emitter) (event : String) (keep : Bool) (r : Rig E L) : em.post event keep (r.recorded es) =
    ((em.post event keep r).1, (em.post event keep r).2.1,
      (em.post event keep r).2.2.recorded (es ++ postOrders (em.post event keep r).1)) := by
  unfold post
  rw [create_recorded]
  cases hc : em.create event r with
  | mk result r' =>
    cases result with
    | none => simp [postOrders]
    | some i =>
      dsimp only
      rw [register_recorded, prepare_recorded,
        launch_recorded es em event false keep (em.prepare_present hc (.lifecycle em.entity))]
      rfl

theorem postFile_recorded (em : Emitter) (template : String) (file : Path) (keep : Bool) (r : Rig E L) :
    em.postFile template file keep (r.recorded es) = ((em.postFile template file keep r).1,
      (em.postFile template file keep r).2.1, (em.postFile template file keep r).2.2.recorded
        (es ++ postOrders (em.postFile template file keep r).1)) := by
  unfold postFile
  rw [checkFile_recorded, create_recorded]
  cases hc : em.create template (em.checkFile file r) with
  | mk result r' =>
    cases result with
    | none => simp [postOrders]
    | some i =>
      -- the engine does not hear of the binding
      have hbound : (bindFile i file (em.prepare i (register i .bridge r'))).instance? i ≠ none := by
        have hengine : ∀ r : Rig E L, (bindFile i file r).engine = r.engine := fun r => by
          unfold bindFile
          rcases r.toBackstage.bind i file .programmerSound with ⟨_ | _, b⟩ <;> rfl
        unfold Rig.instance?
        rw [hengine]
        exact em.prepare_present hc .bridge
      dsimp only
      rw [register_recorded, prepare_recorded, bindFile_recorded, launch_recorded es em template true keep hbound]
      rfl

theorem play_recorded (em : Emitter) (c : Cue) (r : Rig E L) : em.play c (r.recorded es) =
    ((em.play c r).1, (em.play c r).2.1, (em.play c r).2.2.recorded (es ++ postOrders (em.play c r).1)) := by
  obtain ⟨event, file, keep⟩ := c
  cases file with
  | none => exact post_recorded es em event keep r
  | some file => exact postFile_recorded es em event file keep r

end Emitter

end Soundstage
