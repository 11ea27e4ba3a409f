/-!
# Occurrences

What came in a history, said of one entry and those before it. An entry at the end of a longer history either came
before or is the last (`occurs_concat`).
-/

namespace Soundstage

/-- Something in a list is of this kind, given what comes before it. -/
def Occurs {α : Type} (kind : List α → α → Prop) (l : List α) : Prop :=
  ∃ before a after, l = before ++ a :: after ∧ kind before a

section

variable {α : Type} {kind : List α → α → Prop} {l : List α} {a : α}

theorem not_occurs_nil : ¬Occurs kind [] := by
  rintro ⟨before, a, after, h, -⟩
  exact absurd h (by simp)

theorem occurs_concat : Occurs kind (l ++ [a]) ↔ Occurs kind l ∨ kind l a := by
  constructor
  · rintro ⟨before, b, after, h, hk⟩
    rcases List.eq_nil_or_concat after with rfl | ⟨after, last, rfl⟩
    · obtain ⟨rfl, hb⟩ := List.append_inj' h rfl
      cases hb
      exact .inr hk
    · rw [List.concat_eq_append, ← List.cons_append, ← List.append_assoc] at h
      obtain ⟨rfl, -⟩ := List.append_inj' h rfl
      exact .inl ⟨before, b, after, rfl, hk⟩
  · rintro (⟨before, b, after, rfl, hk⟩ | hk)
    · exact ⟨before, b, after ++ [a], by simp, hk⟩
    · exact ⟨l, a, [], rfl, hk⟩

end

end Soundstage
