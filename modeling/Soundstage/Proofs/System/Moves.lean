import Mathlib.Logic.Function.Basic
import Soundstage.Proofs.Emitter.Posting
import Soundstage.System

/-!
# Moves

A system as its owners see it: the rig, and for every owner the handles and the parameters of its
emitter, both empty where there is none. Whatever a request does is a run of a few kinds of moves
between such views. What is to hold of every run is shown for each kind of move, and follows for
all requests at once.
-/

namespace Soundstage

open Playable Staged Function

/-- Whom an emitter belongs to. The music has one of its own, whatever the entities are called. -/
inductive Owner
  | entity (entity : EntityId)
  | music
  deriving DecidableEq

structure View (E L : Type) where
  rig : Rig E L
  handles : Owner → List Handle
  params : Owner → Params

namespace View

variable {E L : Type}

/-- The instances that an owner tracks. -/
def ids (v : View E L) (o : Owner) : List InstanceId := (v.handles o).map Handle.instanceId

theorem mem_ids {v : View E L} {o : Owner} {i : InstanceId} : i ∈ v.ids o ↔ ∃ h ∈ v.handles o, h.instanceId = i :=
  List.mem_map

def withRig (v : View E L) (rig : Rig E L) : View E L := { v with rig }

def withHandles (v : View E L) (o : Owner) (hs : List Handle) : View E L :=
  { v with handles := update v.handles o hs }

theorem handles_withHandles (v : View E L) (o p : Owner) (hs : List Handle) :
    (v.withHandles o hs).handles p = if p = o then hs else v.handles p := update_apply ..

def withParams (v : View E L) (o : Owner) (p : Params) : View E L := { v with params := update v.params o p }

/-- Without the emitters of the entities in `gone`. -/
def without (v : View E L) (gone : EntityId → Bool) : View E L where
  rig := v.rig
  handles
    | .entity e => if gone e then [] else v.handles (.entity e)
    | .music => v.handles .music
  params
    | .entity e => if gone e then {} else v.params (.entity e)
    | .music => v.params .music

/-- An instance that is tracked by new handles was tracked before, if they are of instances that were. -/
theorem mem_ids_of_withHandles {v : View E L} {o p : Owner} {hs : List Handle} {i : InstanceId}
    (hsub : ∀ g ∈ hs, g.instanceId ∈ v.ids p) (hi : i ∈ (v.withHandles p hs).ids o) : i ∈ v.ids o := by
  obtain ⟨g, hg, rfl⟩ := mem_ids.mp hi
  rw [handles_withHandles] at hg
  split at hg
  · subst o
    exact hsub g hg
  · exact mem_ids.mpr ⟨g, hg, rfl⟩

theorem mem_ids_concat {v : View E L} {o p : Owner} {g : Handle} {i : InstanceId} :
    i ∈ (v.withHandles o (v.handles o ++ [g])).ids p ↔ i ∈ v.ids p ∨ p = o ∧ i = g.instanceId := by
  unfold ids
  rw [handles_withHandles]
  split
  · subst p
    simp
  · simp [*]

theorem mem_ids_of_without {v : View E L} {o : Owner} {gone : EntityId → Bool} {i : InstanceId}
    (hi : i ∈ (v.without gone).ids o) : i ∈ v.ids o ∧ (v.without gone).params o = v.params o := by
  obtain ⟨g, hg, rfl⟩ := mem_ids.mp hi
  rcases o with e | _
  · change g ∈ (if gone e then [] else _) at hg
    split at hg
    · cases hg
    · exact ⟨mem_ids.mpr ⟨g, hg, rfl⟩, if_neg ‹_›⟩
  · exact ⟨hi, rfl⟩

end View

namespace System

variable {E L : Type}

def emitterOf (s : System E L) : Owner → Option Emitter
  | .entity e => s.emitter? e
  | .music => some s.music

def handlesOf (s : System E L) (o : Owner) : List Handle := (s.emitterOf o).elim [] (·.handles)

def paramsOf (s : System E L) (o : Owner) : Params := (s.emitterOf o).elim {} (·.params)

def view (s : System E L) : View E L := ⟨s.rig, s.handlesOf, s.paramsOf⟩

end System

inductive Deed
  /-- Nothing but lines in the journal. -/
  | calm
  | stop (owner : Owner) (ids : List InstanceId) (mode : StopMode)
  | place (owner : Owner) (attributes : Attributes)
  | setFloat (owner : Owner) (name : String) (value : Float32)
  | setLabel (owner : Owner) (name label : String)
  | release (owner : Owner) (ids : List InstanceId)
  /-- The handles of instances that are gone are forgotten. -/
  | reap (owner : Owner)
  /-- Emitters with nothing left to stop or to give up are forgotten. -/
  | forget (gone : EntityId → Bool)
  | post (owner : Owner) (handle : Handle)
  /-- The update of the engine. -/
  | update

namespace Deed

/-- Neither a post nor a parameter, and no emitter is forgotten. -/
def isPlain : Deed → Bool
  | setFloat .. | setLabel .. | post .. | forget _ => false
  | _ => true

/-- Whether an instance comes in or is given up. -/
def changesHands : Deed → Bool
  | release .. | post .. => true
  | _ => false

end Deed

section

variable {E L X S : Type} [Loader L] [Engine E L] [Staged E X S] [Playable X S]

/-- Nothing of what these handles track is left to stop or to give up. -/
def Silent (r : Rig E L) (hs : List Handle) : Prop :=
  ∀ h ∈ hs, ∀ x, r.instance? h.instanceId = some x → (status x).released = true ∧ (status x).stopped = true

inductive Move : View E L → Deed → View E L → Prop
  | calm {v : View E L} {r : Rig E L} : Wrote (fun _ x => x) v.rig r → Move v .calm (v.withRig r)
  | stop {v : View E L} {r : Rig E L} {o : Owner} {ids : List InstanceId} {mode : StopMode} : ids ⊆ v.ids o →
    Wrote (onEach ids (Playable.stop v.rig.setting mode)) v.rig r → Move v (.stop o ids mode) (v.withRig r)
  | place {v : View E L} {r : Rig E L} {o : Owner} {attributes : Attributes} :
    Wrote (onEach (v.ids o) (Playable.place attributes)) v.rig r → Move v (.place o attributes) (v.withRig r)
  | setFloat {v : View E L} {r : Rig E L} {o : Owner} {name : String} {value : Float32} :
    Wrote (onEach (v.ids o) (Playable.setFloat name value)) v.rig r →
    Move v (.setFloat o name value) ((v.withRig r).withParams o ((v.params o).setFloat name value))
  | setLabel {v : View E L} {r : Rig E L} {o : Owner} {name label : String} :
    Wrote (onEach (v.ids o) (Playable.setLabel name label)) v.rig r →
    Move v (.setLabel o name label) ((v.withRig r).withParams o ((v.params o).setLabel name label))
  | release {v : View E L} {r : Rig E L} {o : Owner} {ids : List InstanceId} :
    (∀ i ∈ ids, v.rig.instance? i ≠ none ∧ ∃ h ∈ v.handles o, h.instanceId = i ∧ h.released = false) →
    Wrote (onEach ids Playable.release) v.rig r →
    Move v (.release o ids) ((v.withRig r).withHandles o ((v.handles o).map (Handle.mark ids)))
  | reap {v : View E L} {o : Owner} :
    Move v (.reap o) (v.withHandles o ((v.handles o).filter fun h => v.rig.isValid h.instanceId))
  | forget {v : View E L} {gone : EntityId → Bool} : (∀ e, gone e = true → Silent v.rig (v.handles (.entity e))) →
    Move v (.forget gone) (v.without gone)
  | post {v : View E L} {made begun r : Rig E L} {o : Owner} {em : Emitter} {c : Cue} {i : InstanceId} :
    em.params = v.params o → em.Posted c i v.rig made begun r →
    Move v (.post o (c.handle i)) ((v.withRig r).withHandles o (v.handles o ++ [c.handle i]))
  | update {v : View E L} : Move v .update (v.withRig v.rig.update)

inductive Moves : View E L → List Deed → View E L → Prop
  | nil {v : View E L} : Moves v [] v
  | cons {v w u : View E L} {d : Deed} {ds : List Deed} : Move v d w → Moves w ds u → Moves v (d :: ds) u

namespace Moves

variable {v w u : View E L} {ds es : List Deed} {d : Deed}

theorem single (h : Move v d w) : Moves v [d] w := .cons h .nil

theorem trans (h : Moves v ds w) (h' : Moves w es u) : Moves v (ds ++ es) u := by
  induction h with
  | nil => exact h'
  | cons hm _ ih => exact .cons hm (ih h')

/-- What moves of some kinds keep, a run of such moves keeps. -/
theorem keeps_among {P : View E L → Prop} {kinds : Deed → Prop}
    (hstep : ∀ {v d w}, kinds d → Move v d w → P v → P w) (h : Moves v ds w) (hds : ∀ d ∈ ds, kinds d) (hv : P v) :
    P w := by
  induction h with
  | nil => exact hv
  | cons hm _ ih =>
    exact ih (fun d hd => hds d (List.mem_cons_of_mem _ hd)) (hstep (hds _ (List.mem_cons_self ..)) hm hv)

theorem keeps {P : View E L → Prop} (hstep : ∀ {v d w}, Move v d w → P v → P w) (h : Moves v ds w)
    (hv : P v) : P w :=
  h.keeps_among (fun _ => hstep) (fun _ _ => trivial) hv

end Moves

/-- Plain moves led from `v` to `w`. -/
def Plainly (v w : View E L) : Prop := ∃ ds, (∀ d ∈ ds, d.isPlain = true) ∧ Moves v ds w

namespace Plainly

variable {v w u : View E L} {d : Deed}

theorem refl (v : View E L) : Plainly v v := ⟨[], fun _ hd => absurd hd List.not_mem_nil, .nil⟩

theorem single (h : Move v d w) (hd : d.isPlain = true) : Plainly v w :=
  ⟨[d], fun _ he => List.mem_singleton.mp he ▸ hd, .single h⟩

theorem cast (h : Plainly v w) (e : u = w) : Plainly v u := e ▸ h

theorem trans (h : Plainly v w) (h' : Plainly w u) : Plainly v u := by
  obtain ⟨ds, hp, hm⟩ := h
  obtain ⟨es, hp', hm'⟩ := h'
  exact ⟨ds ++ es, fun d hd => (List.mem_append.mp hd).elim (hp d) (hp' d), hm.trans hm'⟩

end Plainly

end

end Soundstage
