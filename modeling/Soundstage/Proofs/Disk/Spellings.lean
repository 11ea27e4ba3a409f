import Mathlib.Data.List.Basic
import Soundstage.Loader.Streaming

/-!
# Spellings of one path

Paths with the same components are one key, but not all of their spellings lead somewhere: each piece, a blank one
after a trailing slash too, needs a directory to start from. A spelling that does lead somewhere leads where the steps
of the path lead, and those the components tell; so two spellings never lead to different places (`resolve_unique`).
-/

namespace Soundstage

namespace Text

theorem pieces_cons_self (sep : Char) (cs : List Char) : pieces sep (sep :: cs) = [] :: pieces sep cs := by
  simp [pieces]

/-- Only a text that is empty or starts with the separator has a blank first piece. -/
theorem pieces_cons_of_ne {sep c : Char} (h : c ≠ sep) (cs : List Char) :
    ∃ p ps, pieces sep (c :: cs) = (c :: p) :: ps := by
  unfold pieces
  rw [if_neg h]
  cases pieces sep cs with
  | nil => exact ⟨[], [], rfl⟩
  | cons p ps => exact ⟨p, ps, rfl⟩

end Text

namespace Path

/-- The piece that a component is read from. -/
def Component.piece : Component → List Char
  | root => []
  | here => ['.']
  | up => ['.', '.']
  | name text => text

theorem Component.piece_ofPiece (piece : List Char) : (ofPiece piece).piece = piece := by
  unfold ofPiece
  split
  · rename_i h
    exact h.symm
  · split
    · rename_i h
      exact h.symm
    · rfl

theorem Component.ofPiece_injective : Function.Injective ofPiece :=
  Function.LeftInverse.injective piece_ofPiece

theorem Component.ofPiece_ne_root (piece : List Char) : ofPiece piece ≠ root := by
  unfold ofPiece
  split
  · simp
  · split <;> simp

/-- A path that is not empty starts at the root, or with a piece that is a component whatever it is. -/
theorem components_cases {p : Path} (h : p.text.toList ≠ []) :
    (p.isAbsolute = true ∧ p.components = .root :: p.steps.map Component.ofPiece) ∨
      ∃ first rest, p.pieces = first :: rest ∧ p.isAbsolute = false ∧
        p.components = Component.ofPiece first :: (rest.filter isStep).map Component.ofPiece := by
  obtain ⟨c, cs, hcs⟩ := List.exists_cons_of_ne_nil h
  by_cases hc : c = '/'
  · subst hc
    have hpieces : p.pieces = [] :: Text.pieces '/' cs := by
      rw [pieces, hcs, Text.pieces_cons_self]
    refine .inl ⟨by simp [isAbsolute, hcs], ?_⟩
    rw [components, steps, hpieces, List.filter_cons_of_neg (by simp [isStep]), componentsOf,
      if_neg (fun hne => hne rfl), if_neg (Text.pieces_ne_nil '/' cs)]
  · obtain ⟨first, rest, hcut⟩ := Text.pieces_cons_of_ne hc cs
    have hpieces : p.pieces = (c :: first) :: rest := by rw [pieces, hcs, hcut]
    refine .inr ⟨_, _, hpieces, by simp [isAbsolute, hcs, hc], ?_⟩
    rw [components, hpieces, componentsOf, if_pos (List.cons_ne_nil c first)]

/-- The components of a path tell where it starts and which steps it takes. -/
theorem steps_of_same {p q : Path} (hp : p.text.toList ≠ []) (hq : q.text.toList ≠ []) (h : p.same q = true) :
    p.isAbsolute = q.isAbsolute ∧ p.steps = q.steps := by
  have hinj := Component.ofPiece_injective
  have he : p.components = q.components := by simpa [same] using h
  rcases components_cases hp with ⟨habs, hpc⟩ | ⟨first, rest, hpieces, habs, hpc⟩ <;>
    rcases components_cases hq with ⟨habs', hqc⟩ | ⟨first', rest', hpieces', habs', hqc⟩ <;>
    rw [hpc, hqc, List.cons.injEq] at he
  · exact ⟨habs.trans habs'.symm, List.map_injective_iff.mpr hinj he.2⟩
  · exact absurd he.1.symm (Component.ofPiece_ne_root first')
  · exact absurd he.1 (Component.ofPiece_ne_root first)
  · refine ⟨habs.trans habs'.symm, ?_⟩
    have hrest : rest.filter isStep = rest'.filter isStep := List.map_injective_iff.mpr hinj he.2
    rw [steps, steps, hpieces, hpieces', hinj he.1, List.filter_cons, List.filter_cons, hrest]

end Path

namespace Disk

variable {d : Disk} {p q : Path} {a b s : Spot}

/-- Pieces that are no steps can be left out of a way that leads somewhere. -/
theorem follow_steps {pieces : List (List Char)} (h : d.follow s pieces = .ok a) :
    d.follow s (pieces.filter Path.isStep) = .ok a := by
  induction pieces generalizing s with
  | nil => exact h
  | cons piece rest ih =>
    unfold follow at h
    split at h
    · rename_i next hnext
      cases hstep : Path.isStep piece with
      | true =>
        rw [List.filter_cons_of_pos hstep]
        unfold follow
        rw [hnext]
        exact ih h
      | false =>
        have hstay : next = s := by
          unfold advance at hnext
          split at hnext
          · cases hnext
          · cases hnext
          · rw [hstep] at hnext
            cases hnext
            rfl
        rw [List.filter_cons_of_neg (by simp [hstep]), ← hstay]
        exact ih h
    · cases h

theorem resolve_ok (h : d.resolve p = .ok a) : p.text.toList ≠ [] ∧ d.follow (d.startOf p) p.steps = .ok a := by
  unfold resolve at h
  split at h
  · cases h
  split at h
  · cases h
  split at h
  · cases h
  exact ⟨‹_›, follow_steps h⟩

/-- Spellings of one path that lead somewhere lead to the same place. -/
theorem resolve_unique (h : p.same q = true) (hp : d.resolve p = .ok a) (hq : d.resolve q = .ok b) : a = b := by
  obtain ⟨hpne, hp⟩ := resolve_ok hp
  obtain ⟨hqne, hq⟩ := resolve_ok hq
  obtain ⟨hstart, hsteps⟩ := Path.steps_of_same hpne hqne h
  rw [startOf, hstart, hsteps] at hp
  exact Except.ok.inj (hp.symm.trans hq)

theorem find_ok {node : Node} (h : d.find p = .ok node) : ∃ a, d.resolve p = .ok a ∧ d.nodeAt a = some node := by
  unfold find at h
  split at h
  · cases h
  · rename_i a ha
    split at h
    · rename_i n hn
      cases h
      exact ⟨a, ha, hn⟩
    · cases h

theorem decodeSound_ok {r : Recording} (h : d.decodeSound p = .ok r) :
    d.find p = .ok (.file (.recording r)) := by
  unfold decodeSound at h
  split at h
  · cases h
  · rename_i recording hopen
    have hr : recording = r := by
      split at h <;> cases h
      rfl
    subst hr
    unfold openSound at hopen
    split at hopen <;> cases hopen
    assumption

/-- Spellings of one path that can be decoded are of the same recording. -/
theorem decodeSound_unique {r r' : Recording} (h : p.same q = true) (hp : d.decodeSound p = .ok r)
    (hq : d.decodeSound q = .ok r') : r = r' := by
  obtain ⟨a, ha, hnode⟩ := find_ok (decodeSound_ok hp)
  obtain ⟨b, hb, hnode'⟩ := find_ok (decodeSound_ok hq)
  rw [← resolve_unique h ha hb, hnode] at hnode'
  cases hnode'
  rfl

end Disk

end Soundstage
