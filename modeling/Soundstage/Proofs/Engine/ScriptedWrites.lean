import Soundstage.Proofs.Emitter.Posting
import Soundstage.Proofs.Engine.Scripted

/-!
# What is written to a scripted instance

A scripted instance that takes writes records them all, oldest first, and the last one under a name
is the one that counts. Main statements: dressing an instance writes the parameters to it in the
order of their names (`Written.dress`), and replaying writes on top of them gives the same values
as setting them would (`lastOf_append`).
-/

namespace Soundstage

open Playable

/-- The parameters after these values were set. -/
def Params.after (p : Params) (floats : List (String × Float32)) (labels : List (String × String)) : Params :=
  ⟨floats.foldl (fun m e => m.insert e.1 e.2) p.floats, labels.foldl (fun m e => m.insert e.1 e.2) p.labels⟩

theorem Params.after_after (p : Params) (fs gs : List (String × Float32)) (ls ks : List (String × String)) :
    (p.after fs ls).after gs ks = p.after (fs ++ gs) (ls ++ ks) := by
  simp [after]

namespace ScriptedInstance

/-- If it still takes writes, these were written to `x` on its way to `x'`, and no others. -/
def Written (floats : List (String × Float32)) (labels : List (String × String)) (x x' : ScriptedInstance) : Prop :=
  x'.rejectsWrites = false →
    x.rejectsWrites = false ∧ x'.floatWrites = x.floatWrites ++ floats ∧ x'.labelWrites = x.labelWrites ++ labels

namespace Written

variable {x x' x'' : ScriptedInstance} {fs gs : List (String × Float32)} {ls ks : List (String × String)}

theorem same (hr : x'.rejectsWrites = x.rejectsWrites) (hf : x'.floatWrites = x.floatWrites)
    (hl : x'.labelWrites = x.labelWrites) : Written [] [] x x' :=
  fun h => ⟨hr ▸ h, by simpa using hf, by simpa using hl⟩

theorem refl (x : ScriptedInstance) : Written [] [] x x := same rfl rfl rfl

theorem trans (h : Written fs ls x x') (h' : Written gs ks x' x'') : Written (fs ++ gs) (ls ++ ks) x x'' := by
  intro hr
  obtain ⟨hr', hf', hl'⟩ := h' hr
  obtain ⟨hr'', hf, hl⟩ := h hr'
  exact ⟨hr'', by rw [hf', hf, List.append_assoc], by rw [hl', hl, List.append_assoc]⟩

theorem setFloat (name : String) (value : Float32) (x : ScriptedInstance) :
    Written [(name, value)] [] x (Playable.setFloat name value x) := by
  change Written _ _ x (x.setFloat name value)
  unfold ScriptedInstance.setFloat
  intro h
  split at h <;> rename_i hr
  · exact absurd (hr.symm.trans h) (by decide)
  · rw [if_neg hr]
    exact ⟨by simpa using hr, rfl, (List.append_nil _).symm⟩

theorem setLabel (name label : String) (x : ScriptedInstance) :
    Written [] [(name, label)] x (Playable.setLabel name label x) := by
  change Written _ _ x (x.setLabel name label)
  unfold ScriptedInstance.setLabel
  intro h
  split at h <;> rename_i hr
  · exact absurd (hr.symm.trans h) (by decide)
  · rw [if_neg hr]
    exact ⟨by simpa using hr, (List.append_nil _).symm, rfl⟩

theorem place (attributes : Attributes) (x : ScriptedInstance) : Written [] [] x (Playable.place attributes x) := by
  change Written _ _ x (x.place attributes)
  unfold ScriptedInstance.place
  split
  · exact refl x
  · exact same rfl rfl rfl

theorem onEach {ids : List InstanceId} {j : InstanceId} {g : ScriptedInstance → ScriptedInstance}
    (hg : ∀ x, Written [] [] x (g x)) (x : ScriptedInstance) : Written [] [] x (onEach ids g j x) := by
  unfold Soundstage.onEach
  split
  · exact hg x
  · exact refl x

/-- All at once, the numbers first. -/
theorem dress (p : Params) (x : ScriptedInstance) : Written p.floats.entries p.labels.entries x (p.dress x) := by
  have floats : ∀ (l : List (String × Float32)) (x : ScriptedInstance),
      Written l [] x (l.foldl (fun x e => Playable.setFloat e.1 e.2 x) x) := by
    intro l
    induction l with
    | nil => exact refl
    | cons e rest ih => exact fun x => (setFloat e.1 e.2 x).trans (ih _)
  have labels : ∀ (l : List (String × String)) (x : ScriptedInstance),
      Written [] l x (l.foldl (fun x e => Playable.setLabel e.1 e.2 x) x) := by
    intro l
    induction l with
    | nil => exact refl
    | cons e rest ih => exact fun x => (setLabel e.1 e.2 x).trans (ih _)
  have h := (floats p.floats.entries x).trans (labels p.labels.entries _)
  rw [List.append_nil, List.nil_append] at h
  exact h

end Written

theorem rejectsWrites_dress (p : Params) (x : ScriptedInstance) : (p.dress x).rejectsWrites = x.rejectsWrites := by
  refine Params.dress_same rejectsWrites (fun name value x => ?_) (fun name label x => ?_) p x
  · change (x.setFloat name value).rejectsWrites = _
    unfold ScriptedInstance.setFloat
    split <;> rfl
  · change (x.setLabel name label).rejectsWrites = _
    unfold ScriptedInstance.setLabel
    split <;> rfl

/-! ### Reading back -/

section

variable {α : Type}

theorem lastOf_concat (writes : List (String × α)) (e : String × α) (name : String) :
    lastOf (writes ++ [e]) name = if e.1 = name then some e.2 else lastOf writes name := by
  unfold lastOf
  rw [List.reverse_append]
  by_cases h : e.1 = name <;> simp [h]

theorem lastOf_of_not_mem {writes : List (String × α)} {name : String} (h : name ∉ writes.map Prod.fst) :
    lastOf writes name = none := by
  unfold lastOf
  rw [Option.map_eq_none_iff, List.find?_eq_none]
  intro e he
  rw [decide_eq_true_iff]
  rintro rfl
  exact h (List.mem_map_of_mem (List.mem_reverse.mp he))

/-- Of names that differ the first is also the last. -/
theorem lastOf_eq_find {writes : List (String × α)} (h : (writes.map Prod.fst).Nodup) (name : String) :
    lastOf writes name = NameMap.find name writes := by
  induction writes with
  | nil => rfl
  | cons e rest ih =>
    obtain ⟨n, v⟩ := e
    rw [List.map_cons, List.nodup_cons] at h
    have hcons : lastOf ((n, v) :: rest) name = (lastOf rest name).or (if n = name then some v else none) := by
      unfold lastOf
      rw [List.reverse_cons, List.find?_append]
      by_cases hn : n = name <;> cases rest.reverse.find? _ <;> simp [hn]
    rw [hcons, NameMap.find]
    by_cases hn : name = n
    · subst hn
      rw [lastOf_of_not_mem h.1]
      simp
    · rw [ih h.2, if_neg hn, if_neg (Ne.symm hn), Option.or_none]

/-- The last of the writes wins, as the last insertion does. -/
theorem lastOf_append (m : NameMap α) (writes : List (String × α)) (name : String) :
    lastOf (m.entries ++ writes) name = (writes.foldl (fun m e => m.insert e.1 e.2) m).get? name := by
  have replay : ∀ (writes before : List (String × α)) (m : NameMap α), (∀ name, lastOf before name = m.get? name) →
      lastOf (before ++ writes) name = (writes.foldl (fun m e => m.insert e.1 e.2) m).get? name := by
    intro writes
    induction writes with
    | nil => exact fun before m h => by rw [List.append_nil]; exact h name
    | cons e rest ih =>
      intro before m h
      rw [List.append_cons]
      refine ih _ _ fun name => ?_
      rw [lastOf_concat, h]
      by_cases he : e.1 = name
      · subst he; simp
      · rw [if_neg he, NameMap.get?_insert_of_ne _ _ (Ne.symm he)]
  exact replay writes m.entries m fun name => lastOf_eq_find m.names_nodup name

end

end ScriptedInstance

end Soundstage
