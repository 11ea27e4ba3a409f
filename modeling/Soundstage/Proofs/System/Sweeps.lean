import Soundstage.Proofs.Engine.Farewells
import Soundstage.Proofs.Engine.Removal
import Soundstage.Proofs.System.Aftermath
import Soundstage.Proofs.System.Rounds

/-!
# Sweeps

An update of the mixing engine takes instances away one after the other, and each says farewell on its way. `sweep` is
what that comes to, all at once: there is nothing in it that depends on the order of the instances but that of the
lines, the answers and the callbacks seen (`sweep_perm`). Main statement: `order_shows_in_records_alone`.
-/

namespace Soundstage

open Backstage

namespace Table

variable {κ α : Type} [DecidableEq κ]

def eraseAll (t : Table κ α) (ks : List κ) : Table κ α := ks.foldl erase t

theorem eraseAll_perm (t : Table κ α) {ks ks' : List κ} (h : ks.Perm ks') : t.eraseAll ks = t.eraseAll ks' :=
  h.foldl_eq' (fun j _ k _ t => t.erase_comm j k) t

theorem eraseAll_append (t : Table κ α) (ks ls : List κ) : t.eraseAll (ks ++ ls) = (t.eraseAll ks).eraseAll ls :=
  List.foldl_append

end Table

theorem StreamingLoader.releaseLoaded (s : Backstage StreamingLoader) (i : InstanceId) (o : Option SoundId) :
    (s.releaseLoaded i o).loader = { s.loader with sounds := s.loader.sounds.eraseAll o.toList } := by
  rw [Backstage.loader_releaseLoaded]
  cases o with
  | none => rfl
  | some x =>
    change (StreamingLoader.release x s.loader).toOption.getD s.loader = _
    unfold StreamingLoader.release
    cases hx : s.loader.sounds.get? x with
    | some sound => rw [if_pos (Table.contains_iff.mpr ⟨sound, hx⟩)]; rfl
    | none =>
      have hout : ¬s.loader.sounds.contains x = true := by simp [Table.contains, hx]
      rw [if_neg hout]
      change s.loader = { s.loader with sounds := s.loader.sounds.erase x }
      rw [Table.erase_of_get?_eq_none hx]

/-- The rigs differ in the order of what was logged, answered and seen at most. -/
structure Rig.Akin {E L : Type} (r r' : Rig E L) : Prop where
  same : r' = { r with journal := r'.journal, answered := r'.answered, seen := r'.seen }
  journal : r'.journal.Perm r.journal
  answered : r'.answered.Perm r.answered
  seen : r'.seen.Perm r.seen

namespace MixingEngine

variable (r : Rig MixingEngine StreamingLoader)

/-- What the journal says when `i` goes away. -/
def lastLines (i : InstanceId) : List Line :=
  (r.instance? i).elim [] fun x => (x.receiver.elim [] fun receiver => r.toBackstage.lastLines receiver i x.props) ++
    [⟨.trace, "Audio: destroyed " ++ i.text ++ " ('" ++ x.event ++ "')"⟩]

/-- What a host sees when `i` goes away. -/
def lastSeen (i : InstanceId) : List (CallbackKind × InstanceId) :=
  (r.instance? i).elim [] fun x => x.receiver.elim [] fun receiver => Backstage.lastSeen receiver i x.props

/-- The sounds that the bindings of `ids` have loaded. -/
def loadedBy (ids : List InstanceId) : List SoundId := ids.filterMap fun i => (r.binding? i).bind Binding.loaded

/-- The rig once the instances in `ids` have gone away, with their bindings and the sounds of those. -/
def sweep (ids : List InstanceId) : Rig MixingEngine StreamingLoader where
  disk := r.disk
  loader := { r.loader with sounds := r.loader.sounds.eraseAll (loadedBy r ids) }
  bridge := ⟨r.bridge.table.eraseAll ids, r.bridge.freed + ids.countP fun i => (r.binding? i).isSome⟩
  journal := r.journal ++ ids.flatMap (lastLines r)
  answered := r.answered ++ ids.flatMap r.owed
  seen := r.seen ++ ids.flatMap (lastSeen r)
  engine := r.engine.removeAll ids

variable {r} {ids ids' : List InstanceId} {i : InstanceId}

theorem loadedBy_singleton (r : Rig MixingEngine StreamingLoader) (i : InstanceId) :
    loadedBy r [i] = ((r.binding? i).bind Binding.loaded).toList := by
  cases h : (r.binding? i).bind Binding.loaded <;> simp [loadedBy, h]

theorem sweep_cons (h : i ∉ ids) : sweep (sweep r [i]) ids = sweep r (i :: ids) := by
  -- those that go later find what they would have found had they gone first
  have hne : ∀ {j}, j ∈ ids → j ≠ i := fun hj e => h (e ▸ hj)
  have hbinding : ∀ j ∈ ids, (sweep r [i]).binding? j = r.binding? j := fun j hj =>
    Table.get?_erase_of_ne _ (hne hj)
  have hinstance : ∀ j ∈ ids, (sweep r [i]).instance? j = r.instance? j := fun j hj =>
    (get?_removeAll r.engine [i] j).trans (if_neg (by simpa using hne hj))
  have hlines : ids.flatMap (lastLines (sweep r [i])) = ids.flatMap (lastLines r) := by
    refine List.flatMap_congr fun j hj => ?_
    unfold lastLines Backstage.lastLines
    rw [hinstance j hj, hbinding j hj]
  have hseen : ids.flatMap (lastSeen (sweep r [i])) = ids.flatMap (lastSeen r) := by
    refine List.flatMap_congr fun j hj => ?_
    unfold lastSeen
    rw [hinstance j hj]
  have hloaded : loadedBy (sweep r [i]) ids = loadedBy r ids :=
    List.filterMap_congr fun j hj => by rw [hbinding j hj]
  rw [show i :: ids = [i] ++ ids from rfl, sweep, hlines, hseen, owed_congr hbinding, countP_bound_congr hbinding,
    hloaded]
  unfold sweep
  simp only [loadedBy, removeAll, Table.eraseAll_append, List.foldl_append, List.filterMap_append, List.countP_append,
    List.flatMap_append, List.append_assoc, Nat.add_assoc]

theorem sweep_perm (h : ids.Perm ids') : (sweep r ids).Akin (sweep r ids') := by
  refine ⟨?_, (h.symm.flatMap_right _).append_left _, (h.symm.flatMap_right _).append_left _,
    (h.symm.flatMap_right _).append_left _⟩
  have hsounds : r.loader.sounds.eraseAll (loadedBy r ids) = r.loader.sounds.eraseAll (loadedBy r ids') :=
    Table.eraseAll_perm _ (h.filterMap _)
  have htable : r.bridge.table.eraseAll ids = r.bridge.table.eraseAll ids' := Table.eraseAll_perm _ h
  have hengine : r.engine.removeAll ids = r.engine.removeAll ids' := removeAll_perm _ h
  unfold sweep
  simp only [hsounds, htable, hengine, h.countP_eq]

theorem destroy_eq {streams : InstanceId → Prop} {v : View MixingEngine StreamingLoader} (ho : Orderly v)
    (hc : Conducted streams v.rig) (i : InstanceId) : destroy v.rig i = sweep v.rig [i] := by
  suffices hback : (destroy v.rig i).toBackstage = (sweep v.rig [i]).toBackstage from
    congrArg₂ Rig.mk hback (destroy_engine v.rig i)
  cases hx : v.rig.engine.instances.get? i with
  | none =>
    have hb : v.rig.binding? i = none := by
      refine Classical.byContradiction fun hb => ?_
      obtain ⟨x, hx', -⟩ := ho.bound hb
      cases hx.symm.trans hx'
    have herase : v.rig.bridge.table.erase i = v.rig.bridge.table := Table.erase_of_get?_eq_none hb
    have hinstance : v.rig.instance? i = none := hx
    rw [destroy_absent hx]
    simp [sweep, loadedBy, lastLines, lastSeen, owed, hb, hinstance, Table.eraseAll, herase]
  | some x =>
    have hinstance : v.rig.instance? i = some x := hx
    rw [backstage_destroy hx, parting_eq ho.ledger (Conducted.receiver_iff ho hc hx) (hc.sound hx),
      StreamingLoader.releaseLoaded, ← loadedBy_singleton]
    simp [sweep, lastLines, lastSeen, hinstance, Table.eraseAll, say]

theorem destroyAll_eq {streams : InstanceId → Prop} {v : View MixingEngine StreamingLoader} (ho : Orderly v)
    (hc : Conducted streams v.rig) (hids : ids.Nodup) : destroyAll v.rig ids = sweep v.rig ids := by
  induction ids generalizing v with
  | nil => simp [destroyAll, sweep, loadedBy, Table.eraseAll, removeAll]
  | cons i rest ih =>
    obtain ⟨hi, hrest⟩ := List.nodup_cons.mp hids
    have ho' : Orderly (v.withRig (destroy v.rig i)) := ho.drift (.of_cleared (destroy_cleared v.rig i ho.ledger))
    have hnext := ih ho' (hc.destroy ho.ledger i).1 hrest
    change destroyAll (destroy v.rig i) rest = _
    refine hnext.trans ?_
    change sweep (destroy v.rig i) rest = _
    rw [destroy_eq ho hc, sweep_cons hi]

/-- What an update of the mixing engine takes away, and that it does not matter in which order. -/
structure Tidy (r : Rig MixingEngine StreamingLoader) : Prop where
  due : ∀ i, i ∈ r.engine.done ↔ ∃ x, r.instance? i = some x ∧ x.released = true ∧
    ∀ sound, x.sound = some sound → sound.stopped = true
  once : r.engine.done.Nodup
  instances : ∀ i, (update r).instance? i = if i ∈ r.engine.done then none else r.instance? i
  /-- All that happens: each of them is taken off the tables, and its farewell recorded, once. -/
  swept : update r = sweep r r.engine.done
  order : ∀ ids : List InstanceId, ids.Perm r.engine.done → (update r).Akin (destroyAll r ids)

theorem Tidy.of_conducted {streams : InstanceId → Prop} {v : View MixingEngine StreamingLoader} (ho : Orderly v)
    (hc : Conducted streams v.rig) : Tidy v.rig where
  due i := by
    rw [mem_done_iff]
    refine exists_congr fun x => and_congr_right fun _ => ?_
    unfold MixingInstance.isDone MixingInstance.isFinished
    cases x.sound <;> simp
  once := v.rig.engine.nodup_done
  instances := destroyAll_instance? v.rig _
  swept := destroyAll_eq ho hc v.rig.engine.nodup_done
  order ids h := by
    have hnodup := v.rig.engine.nodup_done
    rw [update, destroyAll_eq ho hc hnodup, destroyAll_eq ho hc (h.nodup_iff.mpr hnodup)]
    exact sweep_perm h.symm

end MixingEngine

/-- The order of hash maps shows in the order of the records alone. At every point of every run, a tick and a shutdown
come to the same in whatever order the entities are visited, but for the order of the journal. An update of the mixing
engine takes away what was given up and has ended, each once, and nothing else; in whatever order it does, the engine,
the bridge and the loader come out the same. -/
theorem order_shows_in_records_alone :
    (∀ events config files disk turns, (scriptedRun events config files disk turns).Unordered) ∧
    ∀ own device config disk turns, (mixingRun own device config disk turns).Unordered ∧
      MixingEngine.Tidy (mixingRun own device config disk turns).rig := by
  refine ⟨fun events config files disk turns => ?_, fun own device config disk turns => ?_⟩
  · exact .of_orderly (scriptedRun_orderly events config files disk turns)
  · have ho := mixingRun_orderly own device config disk turns
    exact ⟨.of_orderly ho, .of_conducted ho (mixingRun_conducted own device config disk turns)⟩

end Soundstage
