import Soundstage.Proofs.Emitter.Errands
import Soundstage.Proofs.System.Origins

/-!
# Rounds

A tick and a shutdown go round the entities, and every emitter runs its errand. As no two emitters track one instance,
two of them that come after each other may as well come the other way round, so the order of the whole round makes no
difference but to the order of the journal (`round_perm`).
-/

namespace Soundstage

/-- Where both keys are there already, it does not matter which is put first. -/
theorem Table.insert_comm {κ α : Type} [DecidableEq κ] {t : Table κ α} {j k : κ} {a b : α} (hj : t.get? j = some a)
    (hk : t.get? k = some b) (hne : j ≠ k) (v w : α) : (t.insert j v).insert k w = (t.insert k w).insert j v := by
  have hk' : (t.insert j v).get? k = some b := (get?_insert_of_ne _ _ (Ne.symm hne)).trans hk
  have hj' : (t.insert k w).get? j = some a := (get?_insert_of_ne _ _ hne).trans hj
  refine ext_get? ?_ fun i => ?_
  · rw [keys_insert_of_some w hk', keys_insert_of_some v hj, keys_insert_of_some v hj', keys_insert_of_some w hk]
  · simp only [get?_insert]
    by_cases hi : i = k
    · rw [if_pos hi, if_neg fun e => hne (e.symm.trans hi), if_pos hi]
    · rw [if_neg hi, if_neg hi]

open Staged

variable {E L X S : Type}

/-- The instances that an emitter tracks. -/
def Emitter.ids (em : Emitter) : List InstanceId := em.handles.map Handle.instanceId

namespace System

/-- The systems differ in the order of the lines in their journals at most. -/
structure Alike (s s' : System E L) : Prop where
  same : s' = { s with rig := s'.rig }
  rig : s.rig.Alike s'.rig

/-- So do what is counted and the systems. -/
structure Tie (c c' : Nat × System E L) : Prop where
  count : c'.1 = c.1
  alike : c.2.Alike c'.2

theorem Alike.emitter? {s s' : System E L} (h : Alike s s') (e : EntityId) : s'.emitter? e = s.emitter? e := by
  rw [h.same]
  rfl

namespace Tie

variable {c c' c'' : Nat × System E L}

theorem refl (c : Nat × System E L) : Tie c c := ⟨rfl, rfl, .refl _⟩

theorem trans (h : Tie c c') (h' : Tie c' c'') : Tie c c'' := by
  refine ⟨h'.count.trans h.count, ?_, h.alike.rig.trans h'.alike.rig⟩
  rw [h'.alike.same, h.alike.same]

end Tie

/-- No instance is tracked by the emitters of two entities. -/
def Separate (s : System E L) : Prop := ∀ {e e' em em'}, s.emitter? e = some em → s.emitter? e' = some em' →
  e ≠ e' → em.ids.Disjoint em'.ids

/-- The emitter of an entity, if it has one, acts, and what it counts is added. -/
def visit (act : EntityId → Emitter → Rig E L → (Nat × Emitter) × Rig E L) (c : Nat × System E L) (e : EntityId) :
    Nat × System E L :=
  match c.2.emitter? e with
  | none => c
  | some em =>
    (c.1 + (act e em c.2.rig).1.1, { c.2 with rig := (act e em c.2.rig).2 }.withEmitter (act e em c.2.rig).1.2 e)

/-- When emitters act, that is an errand about their instances, and they track no others afterwards. -/
structure Minding [Staged E X S] [Fixture E] (act : EntityId → Emitter → Rig E L → (Nat × Emitter) × Rig E L) :
    Prop where
  errand : ∀ e (em : Emitter), Errand em.ids (act e em)
  ids : ∀ e (em : Emitter) (r : Rig E L), (act e em r).1.2.ids ⊆ em.ids

section

variable {act : EntityId → Emitter → Rig E L → (Nat × Emitter) × Rig E L} {c c' : Nat × System E L} {e e' : EntityId}

theorem visit_none (h : c.2.emitter? e = none) : visit act c e = c := by
  unfold visit
  rw [h]

theorem visit_some {em : Emitter} (h : c.2.emitter? e = some em) : visit act c e =
    (c.1 + (act e em c.2.rig).1.1,
      { c.2 with rig := (act e em c.2.rig).2 }.withEmitter (act e em c.2.rig).1.2 e) := by
  unfold visit
  rw [h]

theorem emitter?_visit_of_ne (h : e' ≠ e) : (visit act c e).2.emitter? e' = c.2.emitter? e' := by
  cases he : c.2.emitter? e with
  | none => rw [visit_none he]
  | some em =>
    rw [visit_some he]
    exact Table.get?_insert_of_ne _ _ h

variable [Staged E X S] [Fixture E] (hm : Minding act)

include hm

theorem Separate.visit (hs : c.2.Separate) (e : EntityId) : (visit act c e).2.Separate := by
  cases he : c.2.emitter? e with
  | none => rwa [visit_none he]
  | some em =>
    -- whoever was visited tracks no more than before
    have hsub : ∀ {p em'}, (System.visit act c e).2.emitter? p = some em' →
        ∃ em, c.2.emitter? p = some em ∧ em'.ids ⊆ em.ids := by
      intro p em' hp
      by_cases hpe : p = e
      · subst hpe
        rw [visit_some he] at hp
        cases (Table.get?_insert_self ..).symm.trans hp
        exact ⟨em, he, hm.ids p em _⟩
      · rw [emitter?_visit_of_ne hpe] at hp
        exact ⟨em', hp, fun _ => id⟩
    intro p q em₁ em₂ hp hq hne i hi hi'
    obtain ⟨em₁', hp', hsub₁⟩ := hsub hp
    obtain ⟨em₂', hq', hsub₂⟩ := hsub hq
    exact hs hp' hq' hne (hsub₁ hi) (hsub₂ hi')

theorem visit_tie (h : Tie c c') (e : EntityId) : Tie (visit act c e) (visit act c' e) := by
  cases he : c.2.emitter? e with
  | none =>
    rw [visit_none he, visit_none ((h.alike.emitter? e).trans he)]
    exact h
  | some em =>
    rw [visit_some he, visit_some ((h.alike.emitter? e).trans he)]
    obtain ⟨ha, hr⟩ := (hm.errand e em).alike h.alike.rig
    rw [ha, h.count]
    refine ⟨rfl, ?_, hr⟩
    dsimp only [withEmitter]
    rw [h.alike.same]

theorem visit_comm (hs : c.2.Separate) (e e' : EntityId) :
    Tie (visit act (visit act c e) e') (visit act (visit act c e') e) := by
  by_cases hne : e = e'
  · subst hne
    exact .refl _
  cases he : c.2.emitter? e with
  | none =>
    rw [visit_none he, visit_none ((emitter?_visit_of_ne hne).trans he)]
    exact .refl _
  | some em =>
    cases he' : c.2.emitter? e' with
    | none =>
      rw [visit_none he', visit_none ((emitter?_visit_of_ne (Ne.symm hne)).trans he')]
      exact .refl _
    | some em' =>
      obtain ⟨ha, hb, hr⟩ := (hm.errand e em).comm (hm.errand e' em') (hs he he' hne) c.2.rig
      rw [visit_some ((emitter?_visit_of_ne hne).trans he), visit_some he',
        visit_some ((emitter?_visit_of_ne (Ne.symm hne)).trans he'), visit_some he]
      dsimp only [withEmitter]
      rw [ha, hb, Table.insert_comm he he' hne]
      exact ⟨Nat.add_right_comm .., rfl, hr⟩

theorem round_tie (order : List EntityId) (h : Tie c c') : Tie (order.foldl (visit act) c) (order.foldl (visit act) c') := by
  induction order generalizing c c' with
  | nil => exact h
  | cons e rest ih => exact ih (visit_tie hm h e)

/-- Whatever the order of a round, what is counted is the same, and so is the system but for the order of its
journal. -/
theorem round_perm {order order' : List EntityId} (hp : order.Perm order') (hs : c.2.Separate) :
    Tie (order.foldl (visit act) c) (order'.foldl (visit act) c) := by
  induction hp generalizing c with
  | nil => exact .refl c
  | cons e _ ih => exact ih (hs.visit hm e)
  | swap e e' rest => exact round_tie hm rest (visit_comm hm hs e' e)
  | trans _ _ ih ih' => exact (ih hs).trans (ih' hs)

end

/-! ### Ticks and shutdowns -/

section

variable [Loader L] [Engine E L]

def ticking (transform : EntityId → Option Vec3) (e : EntityId) (em : Emitter) (r : Rig E L) :
    (Nat × Emitter) × Rig E L :=
  let c := em.tick ((transform e).getD em.position) r
  ((c.1, c.2.1), c.2.2)

def quieting (_ : EntityId) (em : Emitter) (r : Rig E L) : (Nat × Emitter) × Rig E L :=
  ((0, (quiet em r).1), (quiet em r).2)

theorem round_ticking (transform : EntityId → Option Vec3) (order : List EntityId) (n : Nat) (s : System E L) :
    order.foldl (visit (ticking transform)) (n, s) =
      (n + (tickEach transform order s).1, (tickEach transform order s).2) := by
  induction order generalizing n s with
  | nil => rfl
  | cons e rest ih =>
    have hone : visit (ticking transform) (n, s) e =
        (n + (s.tickEntity transform e).1, (s.tickEntity transform e).2) := by
      unfold visit tickEntity
      dsimp only
      cases s.emitter? e <;> rfl
    rw [List.foldl_cons, hone, ih, Nat.add_assoc]
    rfl

theorem round_quieting (order : List EntityId) (n : Nat) (s : System E L) :
    order.foldl (visit quieting) (n, s) = (n, order.foldl quietEntity s) := by
  induction order generalizing s with
  | nil => rfl
  | cons e rest ih =>
    have hone : visit quieting (n, s) e = (n, s.quietEntity e) := by
      unfold visit quietEntity
      dsimp only
      cases s.emitter? e <;> rfl
    rw [List.foldl_cons, hone, ih]
    rfl

end

section

variable [Loader L] [Engine E L] [Staged E X S] [Fixture E] [DiscreetEngine E]

theorem minding_ticking (transform : EntityId → Option Vec3) :
    Minding (ticking transform : EntityId → Emitter → Rig E L → (Nat × Emitter) × Rig E L) := by
  refine ⟨fun e em => em.tick_errand _, fun e em r i hi => ?_⟩
  change i ∈ (em.tick ((transform e).getD em.position) r).2.1.ids at hi
  rw [em.tick_emitter] at hi
  exact (List.filter_sublist.map Handle.instanceId).subset hi

theorem minding_quieting : Minding (quieting : EntityId → Emitter → Rig E L → (Nat × Emitter) × Rig E L) := by
  refine ⟨fun e em => em.quiet_errand.map fun em => (0, em), fun e em r i hi => ?_⟩
  have hids := congrArg (List.map Handle.instanceId) (em.origins_quiet r)
  rw [List.map_map, List.map_map] at hids
  change i ∈ (quiet em r).1.handles.map Handle.instanceId at hi
  change i ∈ em.handles.map Handle.instanceId
  exact hids.subst (motive := fun ids => i ∈ ids) hi

end

theorem separate_of_orderly [Loader L] [LawfulLoader L] [Staged E X S] [Playable X S] {s : System E L}
    (h : Orderly s.view) : s.Separate := by
  intro e e' em em' he he' hne i hi hi'
  have hids : ∀ {p em}, s.emitter? p = some em → s.view.ids (.entity p) = em.ids := fun {p em} hp =>
    (reads_emitterOf (o := .entity p) hp).ids
  exact hne (Owner.entity.inj (h.owner_unique (hids he ▸ hi) (hids he' ▸ hi')))

section

variable [Loader L] [LawfulLoader L] [Engine E L] [Staged E X S] [Playable X S] [Fixture E] [DiscreetEngine E]
  {s : System E L}

theorem tickIn_perm (h : Orderly s.view) {order order' : List EntityId} (hp : order.Perm order')
    (transform : EntityId → Option Vec3) : Tie (s.tickIn order transform) (s.tickIn order' transform) := by
  have hs : Separate { s with rig := s.rig.update } := separate_of_orderly h
  have hround := round_perm (c := (0, { s with rig := s.rig.update })) (minding_ticking transform) hp hs
  rw [round_ticking, round_ticking, Nat.zero_add, Nat.zero_add] at hround
  unfold tickIn
  dsimp only
  generalize tickEach transform order { s with rig := s.rig.update } = c at hround ⊢
  generalize tickEach transform order' { s with rig := s.rig.update } = c' at hround ⊢
  obtain ⟨n, s₁⟩ := c
  obtain ⟨n', s₂⟩ := c'
  obtain ⟨hcount, hsame, hrig⟩ := hround
  change n' = n at hcount
  change s₂ = { s₁ with rig := s₂.rig } at hsame
  change s₁.rig.Alike s₂.rig at hrig
  have hmusic : s₂.music = s₁.music := by rw [hsame]
  have hlistener : s₂.listener = s₁.listener := by rw [hsame]
  -- the music comes last, and finds the same
  obtain ⟨ha, hr⟩ := (s₁.music.tick_errand s₁.listener.position).alike hrig
  obtain ⟨hn, hem⟩ := Prod.mk.inj ha
  dsimp only
  rw [hmusic, hlistener]
  refine ⟨congrArg₂ _ hcount hn, ?_, hr⟩
  dsimp only
  rw [hem, hsame]

variable [LawfulEngine E L X S]

omit [Fixture E] [DiscreetEngine E] in
include X S in
theorem quietEach_backstage (order : List EntityId) (s : System E L) :
    (order.foldl quietEntity s).rig.toBackstage = s.rig.toBackstage := by
  induction order generalizing s with
  | nil => rfl
  | cons e rest ih =>
    refine (ih (s.quietEntity e)).trans ?_
    unfold quietEntity
    split
    · rfl
    · exact (Emitter.releaseEach_backstage _ _).trans (Emitter.stopEach_backstage _ _ _)

theorem shutdownIn_perm (h : Orderly s.view) {order order' : List EntityId} (hp : order.Perm order') :
    s.shutdownIn order = s.shutdownIn order' := by
  have hround := round_perm (c := (0, s)) minding_quieting hp (separate_of_orderly h)
  rw [round_quieting, round_quieting] at hround
  have hback := (quietEach_backstage order' s).trans (quietEach_backstage order s).symm
  -- nothing was logged, so there are no lines to be ordered
  have hrig : (order'.foldl quietEntity s).rig = (order.foldl quietEntity s).rig :=
    congrArg₂ Rig.mk hback hround.alike.rig.engine
  have hsame : order'.foldl quietEntity s = order.foldl quietEntity s := by
    refine hround.alike.same.trans ?_
    dsimp only
    rw [hrig]
  unfold shutdownIn
  rw [hsame]

end

/-- What comes of a tick or a shutdown of `s`, in whatever order the entities are visited. -/
structure Unordered [Loader L] [Engine E L] (s : System E L) : Prop where
  /-- Only the journal may show the order. -/
  tick : ∀ {order order' : List EntityId}, order.Perm s.emitters.keys → order'.Perm s.emitters.keys →
    ∀ transform, Tie (s.tickIn order transform) (s.tickIn order' transform)
  shutdown : ∀ {order order' : List EntityId}, order.Perm s.emitters.keys → order'.Perm s.emitters.keys →
    s.shutdownIn order = s.shutdownIn order'

theorem Unordered.of_orderly [Loader L] [LawfulLoader L] [Engine E L] [Staged E X S] [Playable X S]
    [LawfulEngine E L X S] [Fixture E] [DiscreetEngine E] {s : System E L} (h : Orderly s.view) : s.Unordered :=
  ⟨fun hp hp' => tickIn_perm h (hp.trans hp'.symm), fun hp hp' => shutdownIn_perm h (hp.trans hp'.symm)⟩

end System

end Soundstage
