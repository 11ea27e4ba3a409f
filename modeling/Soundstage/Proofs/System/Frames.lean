import Mathlib.Algebra.BigOperators.Group.List.Basic
import Mathlib.Algebra.GroupWithZero.Nat
import Soundstage.Proofs.System.Origins
import Soundstage.Proofs.System.Teardown

/-!
# What a tick does

A tick of a system updates the engine and then ticks one emitter after the other. `Ticked os` says what has become of a
system when the emitters of the owners `os` were ticked: they have moved, they have lost the handles of what is not
there, and what is left of their instances was told where it is now. As no two owners track one instance, one more
emitter adds just itself (`Ticked.trans`), in whatever order they come. Main statement: `tick_exact`.
-/

namespace Soundstage

open Playable Staged

/-! ### One emitter -/

namespace Emitter

section

variable {E L : Type} [Loader L] [Engine E L]

/-- What a tick makes of an emitter: it is at `position`, and has the handles of what is there. -/
def settled (position : Vec3) (r : Rig E L) (em : Emitter) : Emitter :=
  { em.setPosition position with handles := em.handles.filter fun h => r.isValid h.instanceId }

theorem tick_count (em : Emitter) (position : Vec3) (r : Rig E L) :
    (em.tick position r).1 = em.handles.countP fun h => !r.isValid h.instanceId := by
  have hdead : ((em.setPosition position).dead r).length = em.handles.countP fun h => !r.isValid h.instanceId := by
    rw [dead, List.length_map, ← List.countP_eq_length_filter]
    rfl
  unfold tick
  dsimp only
  split
  · rename_i hempty
    rw [← hdead, List.isEmpty_iff.mp hempty]
    rfl
  · exact hdead

/-- What lines in the journal and writes of attributes keep, ticks keep. -/
theorem tick_keeps {P : Rig E L → Prop} (hsay : ∀ {r level text}, P r → P (r.say level text))
    (hset : ∀ {r i attributes e}, Engine.setAttributes (L := L) i attributes r.engine = .ok e → P r →
      P { r with engine := e }) (em : Emitter) (position : Vec3) {r : Rig E L} (h : P r) :
    P (em.tick position r).2.2 := by
  have hmove : ∀ (em : Emitter) {r : Rig E L} (g : Handle), P r → P (em.moveHandle r g) := by
    intro em r g h
    unfold moveHandle place Rig.attempt
    split
    · exact h
    · split
      · exact hset ‹_› h
      · exact hsay h
  have hall : ∀ (em : Emitter) (hs : List Handle) {r : Rig E L}, P r → P (hs.foldl em.moveHandle r) := by
    intro em hs
    induction hs with
    | nil => exact id
    | cons g rest ih => exact fun h => ih (hmove em g h)
  unfold tick
  dsimp only
  split
  · exact hall _ _ h
  · exact hsay (hall _ _ h)

end

end Emitter

/-! ### One after the other -/

namespace System

variable {E L : Type}

def owners (s : System E L) : List Owner := s.emitters.keys.map Owner.entity ++ [.music]

theorem mem_owners {s : System E L} {o : Owner} : o ∈ s.owners ↔ s.emitterOf o ≠ none := by
  rcases o with e | _
  · have hkey : e ∈ s.emitters.keys ↔ s.emitter? e ≠ none := by
      rw [emitter?, Ne, Table.get?_eq_none_iff, not_not]
    simpa [owners, emitterOf] using hkey
  · simp [owners, emitterOf]

/-- Where a tick moves the emitter of an owner. -/
def destination (s : System E L) (transform : EntityId → Option Vec3) : Owner → Emitter → Vec3
  | .entity e, em => (transform e).getD em.position
  | .music, _ => s.listener.position

variable [Loader L] [Engine E L]

/-- How many handles of an owner are of instances that are not there. -/
def staleCount (s : System E L) (o : Owner) : Nat := (s.handlesOf o).countP fun h => !s.rig.isValid h.instanceId

end System

/-- From `s` to `s'`, the emitters of the owners `os` were ticked, and lost `n` handles. -/
structure Ticked {E L X S : Type} [Loader L] [Engine E L] [Staged E X S] [Playable X S]
    (position : Owner → Emitter → Vec3) (os : List Owner) (s : System E L) (n : Nat) (s' : System E L) : Prop where
  count : n = (os.map s.staleCount).sum
  emitterOf : ∀ o, s'.emitterOf o =
    if o ∈ os then (s.emitterOf o).map fun em => em.settled (position o em) s.rig else s.emitterOf o
  placed : ∀ {o em h}, o ∈ os → s.emitterOf o = some em → h ∈ em.handles → s'.rig.instance? h.instanceId =
    (s.rig.instance? h.instanceId).map (Playable.place { em.attributes with position := position o em })
  others : ∀ {i}, (∀ o ∈ os, i ∉ s.view.ids o) → s'.rig.instance? i = s.rig.instance? i
  isValid : ∀ i, s'.rig.isValid i = s.rig.isValid i
  backstage : s'.rig.toBackstage = { s.rig.toBackstage with journal := s'.rig.journal }
  listener : s'.listener = s.listener
  config : s'.config = s.config

namespace Ticked

section

variable {E L X S : Type} [Loader L] [Engine E L] [Staged E X S] [Playable X S] {position : Owner → Emitter → Vec3}
  {os more : List Owner} {s s' s'' : System E L} {n m : Nat} {o : Owner}

theorem refl (position : Owner → Emitter → Vec3) (s : System E L) : Ticked position [] s 0 s :=
  ⟨rfl, fun _ => rfl, nofun, fun _ => rfl, fun _ => rfl, rfl, rfl, rfl⟩

theorem nobody (he : s.emitterOf o = none) : Ticked position [o] s 0 s := by
  refine ⟨?_, fun p => ?_, fun {p em h} hp hem => ?_, fun _ => rfl, fun _ => rfl, rfl, rfl, rfl⟩
  · simp [System.staleCount, System.handlesOf, he]
  · split
    · rw [List.mem_singleton.mp ‹p ∈ [o]›, he]
      rfl
    · rfl
  · rw [List.mem_singleton.mp hp, he] at hem
    cases hem

theorem emitterOf_of_not_mem (h : Ticked position os s n s') (ho : o ∉ os) : s'.emitterOf o = s.emitterOf o := by
  rw [h.emitterOf, if_neg ho]

theorem handlesOf_of_not_mem (h : Ticked position os s n s') (ho : o ∉ os) : s'.handlesOf o = s.handlesOf o := by
  rw [System.handlesOf, h.emitterOf_of_not_mem ho]
  rfl

theorem ids_of_not_mem (h : Ticked position os s n s') (ho : o ∉ os) : s'.view.ids o = s.view.ids o :=
  congrArg (List.map Handle.instanceId) (h.handlesOf_of_not_mem ho)

theorem settled_eq (h : Ticked position os s n s') (place : Vec3) (em : Emitter) :
    em.settled place s'.rig = em.settled place s.rig := by
  unfold Emitter.settled
  simp only [h.isValid]

/-- First these owners, then more: neither meets an instance of the others. -/
theorem trans [LawfulLoader L] (ho : Orderly s.view) (h : Ticked position os s n s')
    (h' : Ticked position more s' m s'') (hd : ∀ o ∈ os, o ∉ more) :
    Ticked position (os ++ more) s (n + m) s'' := by
  have hout : ∀ {o}, o ∈ more → o ∉ os := fun hm hos => hd _ hos hm
  -- what an owner tracks is tracked by no other, before and after
  have apart : ∀ {p em g o}, s.emitterOf p = some em → g ∈ em.handles → o ≠ p → g.instanceId ∉ s.view.ids o := by
    intro p em g o hem hg hne hm
    exact hne (ho.owner_unique hm (System.tracks_iff.mp ⟨em, hem, g, hg, rfl⟩))
  refine ⟨?_, fun o => ?_, fun {o em g} hmem hem hg => ?_, fun {i} hi => ?_, fun i => ?_, ?_, ?_, ?_⟩
  · have hlater : more.map s'.staleCount = more.map s.staleCount := by
      refine List.map_congr_left fun o hm => ?_
      unfold System.staleCount
      rw [h.handlesOf_of_not_mem (hout hm)]
      simp only [h.isValid]
    rw [List.map_append, List.sum_append, h.count, h'.count, hlater]
  · rw [h'.emitterOf]
    by_cases hm : o ∈ more
    · rw [if_pos hm, if_pos (List.mem_append_right _ hm), h.emitterOf_of_not_mem (hout hm)]
      simp only [h.settled_eq]
    · rw [if_neg hm, h.emitterOf]
      simp only [List.mem_append, hm, or_false]
  · rcases List.mem_append.mp hmem with hos | hm
    · rw [h'.others, h.placed hos hem hg]
      intro p hp
      rw [h.ids_of_not_mem (hout hp)]
      exact apart hem hg fun e => hout hp (e ▸ hos)
    · rw [h'.placed hm ((h.emitterOf_of_not_mem (hout hm)).trans hem) hg, h.others]
      exact fun p hp => apart hem hg fun e => hout hm (e ▸ hp)
  · rw [h'.others, h.others]
    · exact fun o hos => hi o (List.mem_append_left _ hos)
    · intro o hm
      rw [h.ids_of_not_mem (hout hm)]
      exact hi o (List.mem_append_right _ hm)
  · exact (h'.isValid i).trans (h.isValid i)
  · rw [h'.backstage, h.backstage]
  · exact h'.listener.trans h.listener
  · exact h'.config.trans h.config

/-! Where everybody who has an emitter is ticked, what was done to an instance can be read off what is tracked
afterwards. -/

variable (h : Ticked position os s n s') (hall : ∀ {o em}, s.emitterOf o = some em → o ∈ os)

include h hall

theorem emitters (o : Owner) : s'.emitterOf o = (s.emitterOf o).map fun em => em.settled (position o em) s.rig := by
  rw [h.emitterOf]
  split
  · rfl
  · cases hem : s.emitterOf o with
    | none => rfl
    | some em => exact absurd (hall hem) ‹_›

/-- What is tracked afterwards was tracked before, by an emitter that was moved, and is there. -/
theorem source {em' : Emitter} {g : Handle} (hem' : s'.emitterOf o = some em') (hg : g ∈ em'.handles) :
    ∃ em, s.emitterOf o = some em ∧ g ∈ em.handles ∧
      em'.attributes = { em.attributes with position := position o em } ∧ s.rig.isValid g.instanceId = true := by
  rw [h.emitters hall, Option.map_eq_some_iff] at hem'
  obtain ⟨em, hem, rfl⟩ := hem'
  obtain ⟨hg, hv⟩ := List.mem_filter.mp hg
  exact ⟨em, hem, hg, rfl, hv⟩

theorem valid {g : Handle} (hg : g ∈ s'.handlesOf o) : s'.rig.isValid g.instanceId = true := by
  unfold System.handlesOf at hg
  cases hem : s'.emitterOf o with
  | none => rw [hem] at hg; cases hg
  | some em' =>
    rw [hem] at hg
    obtain ⟨em, -, -, -, hv⟩ := h.source hall hem hg
    exact (h.isValid _).trans hv

theorem tracked {em' : Emitter} {g : Handle} (hem' : s'.emitterOf o = some em') (hg : g ∈ em'.handles) :
    s'.rig.instance? g.instanceId = (s.rig.instance? g.instanceId).map (Playable.place em'.attributes) := by
  obtain ⟨em, hem, hg, hattributes, -⟩ := h.source hall hem' hg
  rw [hattributes]
  exact h.placed (hall hem) hem hg

theorem untracked [LawfulLoader L] [LawfulEngine E L X S] {i : InstanceId} (hout : ∀ o, ¬s'.Tracks o i) :
    s'.rig.instance? i = s.rig.instance? i := by
  cases hv : s.rig.isValid i with
  | false => rw [Rig.isValid_eq_false.mp hv, Rig.isValid_eq_false.mp ((h.isValid i).trans hv)]
  | true =>
    refine h.others fun o _ hi => ?_
    obtain ⟨em, hem, g, hg, rfl⟩ := System.tracks_iff.mpr hi
    exact hout o ⟨_, (h.emitters hall o).trans (congrArg _ hem), g, List.mem_filter.mpr ⟨hg, hv⟩, rfl⟩

end

variable {E L X S : Type} [Loader L] [LawfulLoader L] [Engine E L] [Staged E X S] [Playable X S]
  [LawfulEngine E L X S] {position : Owner → Emitter → Vec3} {s : System E L}

theorem one (ho : Orderly s.view) {s' : System E L} {o : Owner} {em : Emitter} (he : s.emitterOf o = some em)
    (hrig : s'.rig = (em.tick (position o em) s.rig).2.2)
    (hown : ∀ p, s'.emitterOf p = if p = o then some (em.tick (position o em) s.rig).2.1 else s.emitterOf p)
    (hlistener : s'.listener = s.listener) (hconfig : s'.config = s.config) :
    Ticked position [o] s (em.tick (position o em) s.rig).1 s' := by
  have hids : s.view.ids o = em.handles.map Handle.instanceId := (System.reads_emitterOf he).ids
  have hw := em.tick_wrote (position o em) (hids ▸ ho.nodup o) s.rig
  rw [← hids, ← hrig] at hw
  refine ⟨?_, fun p => ?_, fun {p em' g} hp hem hg => ?_, fun {i} hi => ?_, hw.isValid, hw.backstage, hlistener,
    hconfig⟩
  · simp [em.tick_count, System.staleCount, System.handlesOf, he]
  · rw [hown, em.tick_emitter]
    by_cases hp : p = o
    · subst hp
      rw [if_pos rfl, if_pos (List.mem_singleton_self _), he]
      rfl
    · rw [if_neg hp, if_neg (by simpa using hp)]
  · cases List.mem_singleton.mp hp
    cases he.symm.trans hem
    rw [hw.instances]
    exact Option.map_congr fun x _ => onEach_of_mem (hids ▸ List.mem_map_of_mem hg) x
  · exact hw.others (hi o (List.mem_singleton_self _))

theorem tickEntity (ho : Orderly s.view) (transform : EntityId → Option Vec3) (entity : EntityId)
    (hposition : ∀ em, position (.entity entity) em = (transform entity).getD em.position) :
    Ticked position [.entity entity] s (s.tickEntity transform entity).1 (s.tickEntity transform entity).2 := by
  unfold System.tickEntity
  cases he : s.emitter? entity with
  | none => exact .nobody he
  | some em =>
    dsimp only
    rw [← hposition]
    exact one ho (o := .entity entity) he rfl (System.emitterOf_withEmitter _ _ _) rfl rfl

theorem tickEach (transform : EntityId → Option Vec3) {order : List EntityId} (hnd : order.Nodup)
    (hposition : ∀ e em, position (.entity e) em = (transform e).getD em.position) (ho : Orderly s.view) :
    Ticked position (order.map Owner.entity) s (System.tickEach transform order s).1
      (System.tickEach transform order s).2 := by
  induction order generalizing s with
  | nil => exact .refl position s
  | cons entity rest ih =>
    obtain ⟨hout, hnd⟩ := List.nodup_cons.mp hnd
    have hone := tickEntity ho transform entity (hposition entity)
    refine hone.trans ho (ih hnd (ho.plainly (System.tickEntity_plainly ho transform entity))) fun o hm => ?_
    rw [List.mem_singleton.mp hm]
    simpa using hout

/-- Once the engine was updated, each emitter is ticked, that of the music last. -/
theorem tickIn (ho : Orderly s.view) (transform : EntityId → Option Vec3) {order : List EntityId} (hnd : order.Nodup) :
    Ticked (s.destination transform) (order.map Owner.entity ++ [.music]) { s with rig := s.rig.update }
      (s.tickIn order transform).1 (s.tickIn order transform).2 := by
  have hup := ho.plainly (.single .update rfl : Plainly s.view { s with rig := s.rig.update }.view)
  have hposition : ∀ e em, s.destination transform (.entity e) em = (transform e).getD em.position := fun _ _ => rfl
  have heach := tickEach transform hnd hposition hup
  have hp := System.tickEach_plainly transform order hup
  unfold System.tickIn
  dsimp only
  generalize System.tickEach transform order { s with rig := s.rig.update } = c at heach hp ⊢
  obtain ⟨n, s'⟩ := c
  dsimp only at heach hp ⊢
  have hmusic : s.destination transform .music s'.music = s'.listener.position := by rw [heach.listener]; rfl
  refine heach.trans hup ?_ (by simp)
  rw [← hmusic]
  exact one (hup.plainly hp) (o := .music) rfl rfl (fun p => by cases p <;> simp [System.emitterOf]; rfl) rfl rfl

end Ticked

/-! ### The scripted engine -/

namespace ScriptedEngine

/-- Nothing has changed but the instances. -/
def SameBut (e e' : ScriptedEngine) : Prop := e' = e.withInstances e'.instances

theorem SameBut.withInstances {e e' : ScriptedEngine} (h : SameBut e e')
    (instances : Table InstanceId ScriptedInstance) : SameBut e (e'.withInstances instances) := by
  unfold SameBut at h
  have hboth := congrArg (fun f : ScriptedEngine => f.withInstances instances) h
  exact hboth

theorem SameBut.setAttributes {e e' e'' : ScriptedEngine} (h : SameBut e e') {i : InstanceId} {attributes : Attributes}
    (hset : Engine.setAttributes (L := ScriptedLoader) i attributes e' = .ok e'') : SameBut e e'' := by
  change write i _ e' = _ at hset
  unfold write at hset
  split at hset
  · cases hset
  · split at hset <;> cases hset
    exact h.withInstances _

section

variable {L : Type} [Loader L] {e : ScriptedEngine} {r : Rig ScriptedEngine L}

theorem SameBut.destroy (h : SameBut e r.engine) (i : InstanceId) : SameBut e (destroy r i).engine := by
  unfold ScriptedEngine.destroy
  split
  · exact h
  · dsimp only
    split <;> exact h.withInstances _

theorem SameBut.destroyAll (ids : List InstanceId) {r : Rig ScriptedEngine L} (h : SameBut e r.engine) :
    SameBut e (destroyAll r ids).engine := by
  induction ids generalizing r with
  | nil => exact h
  | cons i rest ih => exact ih (h.destroy i)

theorem sameBut_update (r : Rig ScriptedEngine L) :
    SameBut { r.engine with updates := r.engine.updates + 1 } (update r).engine :=
  .destroyAll r.engine.done rfl

end

end ScriptedEngine

namespace System

variable {s : System ScriptedEngine ScriptedLoader}

theorem tickEntity_sameBut {e : ScriptedEngine} (transform : EntityId → Option Vec3) (entity : EntityId)
    (h : e.SameBut s.rig.engine) : e.SameBut (s.tickEntity transform entity).2.rig.engine := by
  unfold tickEntity
  split
  · exact h
  · exact Emitter.tick_keeps (P := fun r => e.SameBut r.engine) id (fun hset h => h.setAttributes hset) _ _ h

theorem tickEach_sameBut {e : ScriptedEngine} (transform : EntityId → Option Vec3) (order : List EntityId)
    {s : System ScriptedEngine ScriptedLoader} (h : e.SameBut s.rig.engine) :
    e.SameBut (tickEach transform order s).2.rig.engine := by
  induction order generalizing s with
  | nil => exact h
  | cons entity rest ih => exact ih (tickEntity_sameBut transform entity h)

/-- A tick updates a scripted engine once, and writes to its instances alone. -/
theorem tickIn_sameBut (s : System ScriptedEngine ScriptedLoader) (order : List EntityId)
    (transform : EntityId → Option Vec3) : ScriptedEngine.SameBut
      { s.rig.engine with updates := s.rig.engine.updates + 1 } (s.tickIn order transform).2.rig.engine :=
  Emitter.tick_keeps (P := fun r => ScriptedEngine.SameBut { s.rig.engine with updates := s.rig.engine.updates + 1 }
    r.engine) id (fun hset h => h.setAttributes hset) _ _
    (tickEach_sameBut transform order (ScriptedEngine.sameBut_update s.rig))

end System

/-! ### Exactness -/

/-- What a tick of `s` comes to. -/
structure Framed (transform : EntityId → Option Vec3) (s : System ScriptedEngine ScriptedLoader) (n : Nat)
    (s' : System ScriptedEngine ScriptedLoader) : Prop where
  /-- The engine is updated once, and nothing of it changes but the instances. -/
  engine : s'.rig.engine =
    { s.rig.engine with updates := s.rig.engine.updates + 1, instances := s'.rig.engine.instances }
  /-- The update takes away what is over, and leaves the rest as it is. -/
  updated : ∀ i, s.rig.update.instance? i = (s.rig.instance? i).filter fun x => !x.isDone
  /-- It comes first: the bridge hears nothing after it. -/
  backstage : s'.rig.toBackstage = { s.rig.update.toBackstage with journal := s'.rig.journal }
  /-- Emitters move, and lose the handles of what is gone then. Of nothing else they have anything changes. -/
  emitters : ∀ o, s'.emitterOf o =
    (s.emitterOf o).map fun em => em.settled (s.destination transform o em) s.rig.update
  valid : ∀ o, ∀ h ∈ s'.handlesOf o, s'.rig.isValid h.instanceId = true
  /-- The answer counts the handles that were lost. -/
  count : n = (s.owners.map fun o => (s.handlesOf o).countP fun h => !s.rig.update.isValid h.instanceId).sum
  written : ∀ {o em h x}, s'.emitterOf o = some em → h ∈ em.handles → s.rig.update.instance? h.instanceId = some x →
    x.rejectsWrites = false → s'.rig.instance? h.instanceId =
      some { x with attributes := some em.attributes, attributeWrites := x.attributeWrites + 1 }
  /-- An instance that rejects the write stays as it is, and is still tracked. -/
  rejected : ∀ {i x}, s.rig.update.instance? i = some x → x.rejectsWrites = true → s'.rig.instance? i = some x
  untracked : ∀ {i}, (∀ o, ¬s'.Tracks o i) → s'.rig.instance? i = s.rig.update.instance? i
  listener : s'.listener = s.listener
  config : s'.config = s.config

theorem ScriptedEngine.update_instance? (r : Rig ScriptedEngine ScriptedLoader) (h : Ledger r.toBackstage [])
    (i : InstanceId) : r.update.instance? i = (r.instance? i).filter fun x => !x.isDone := by
  have hc : Cleared (fun j => ∃ x, r.instance? j = some x ∧ x.isDone = true) r r.update :=
    LawfulEngine.update_cleared r h
  cases hx : r.instance? i with
  | none => exact (hc.left i (by simp [hx])).trans hx
  | some x =>
    cases hdone : x.isDone with
    | true =>
      rw [hc.taken i ⟨x, hx, hdone⟩]
      simp [Option.filter, hdone]
    | false =>
      rw [hc.left i (by simp [hx, hdone]), hx]
      simp [Option.filter, hdone]

theorem Framed.of_orderly {s : System ScriptedEngine ScriptedLoader} (ho : Orderly s.view)
    (transform : EntityId → Option Vec3) (visit : Visit) : let c := s.tickIn (visit.order s.emitters.keys) transform
    Framed transform s c.1 c.2 := by
  intro c
  have hperm := visit.perm s.emitters.keys
  have howners : ((visit.order s.emitters.keys).map Owner.entity ++ [Owner.music]).Perm s.owners :=
    (hperm.map _).append_right _
  have ht : Ticked (s.destination transform) _ { s with rig := s.rig.update } c.1 c.2 :=
    .tickIn ho transform (hperm.nodup_iff.mpr s.emitters.nodup)
  have hall : ∀ {o em}, s.emitterOf o = some em → o ∈ (visit.order s.emitters.keys).map Owner.entity ++ [.music] :=
    fun hem => howners.mem_iff.mpr (System.mem_owners.mpr (by rw [hem]; simp))
  have htracked : ∀ {o em h x}, c.2.emitterOf o = some em → h ∈ em.handles →
      s.rig.update.instance? h.instanceId = some x →
        c.2.rig.instance? h.instanceId = some (ScriptedInstance.place em.attributes x) :=
    fun hem hh hx => (ht.tracked hall hem hh).trans (congrArg (Option.map _) hx)
  refine ⟨s.tickIn_sameBut _ transform, ScriptedEngine.update_instance? s.rig ho.ledger, ht.backstage,
    ht.emitters hall, fun o h hh => ht.valid hall hh, ?_, fun hem hh hx hr => ?_, fun {i x} hx hr => ?_,
    ht.untracked hall, ht.listener, ht.config⟩
  · exact ht.count.trans (howners.map _).sum_eq
  · rw [htracked hem hh hx, ScriptedInstance.place, if_neg (by simp [hr])]
  · by_cases hi : ∃ o, c.2.Tracks o i
    · obtain ⟨o, em, hem, h, hh, rfl⟩ := hi
      rw [htracked hem hh hx, ScriptedInstance.place, if_pos hr]
    · exact (ht.untracked hall fun o ho => hi ⟨o, ho⟩).trans hx

/-- A tick is exact. In every state that a run can reach, and in whatever order the emitters are visited, it updates
the engine once and first. Then each emitter has the handles, in their order, whose instances are still there, and is
where its entity is, the music where the listener is; what it tracks and takes writes was told so once. The answer
counts the handles that were lost, and nothing else has changed. -/
theorem tick_exact (events : List String) (config : Config) (files : List Path) (disk : Disk)
    (turns : List (Turn ScriptedEvent)) (visit : Visit) (transform : EntityId → Option Vec3) :
    let s := scriptedRun events config files disk turns
    let c := s.tickIn (visit.order s.emitters.keys) transform
    Framed transform s c.1 c.2 :=
  .of_orderly (scriptedRun_orderly events config files disk turns) transform visit

/-- What was kept stays tracked when it ends. -/
example :
    let s := scriptedRun ["Step"] {} [] .empty [.request (.post ⟨1⟩ "Step" false), .request (.post ⟨1⟩ "Step" true),
      .event (.finish ⟨1⟩), .event (.finish ⟨2⟩)]
    let c := s.tick fun _ => none
    (c.1, (c.2.handlesOf (.entity ⟨1⟩)).map Handle.instanceId) = (1, [⟨2⟩]) := by
  decide +kernel

end Soundstage
