/-!
# The order of texts

Texts in the order of their code points, which is also the byte order of their UTF-8 forms. Main
statements: the order is strict and transitive, and of two different texts one stands before the
other (`not_before_self`, `Before.trans`, `before_of_not_before_of_ne`).
-/

namespace Soundstage.Text

/-- Whether the first list stands before the second: it ends first, or has the lesser character where
they first differ. -/
def precedes : List Char → List Char → Bool
  | _, [] => false
  | [], _ :: _ => true
  | a :: as, b :: bs => a.toNat.blt b.toNat || (a == b && precedes as bs)

theorem precedes_cons {a b : Char} {as bs : List Char} :
    precedes (a :: as) (b :: bs) = true ↔
      a.toNat < b.toNat ∨ (a = b ∧ precedes as bs = true) := by
  simp [precedes, Nat.blt_eq]

theorem precedes_trans {as bs cs : List Char} (hab : precedes as bs = true)
    (hbc : precedes bs cs = true) : precedes as cs = true := by
  induction as generalizing bs cs with
  | nil =>
    cases cs with
    | nil => cases bs <;> simp [precedes] at hbc
    | cons c cs => rfl
  | cons a as ih =>
    cases bs with
    | nil => simp [precedes] at hab
    | cons b bs =>
      cases cs with
      | nil => simp [precedes] at hbc
      | cons c cs =>
        rw [precedes_cons] at hab hbc ⊢
        rcases hab with hab | ⟨rfl, hab⟩ <;> rcases hbc with hbc | ⟨rfl, hbc⟩
        · exact .inl (Nat.lt_trans hab hbc)
        · exact .inl hab
        · exact .inl hbc
        · exact .inr ⟨rfl, ih hab hbc⟩

theorem precedes_of_not_precedes_of_ne {as bs : List Char} (h : ¬precedes as bs = true)
    (hne : as ≠ bs) : precedes bs as = true := by
  induction as generalizing bs with
  | nil =>
    cases bs with
    | nil => exact absurd rfl hne
    | cons b bs => exact absurd rfl h
  | cons a as ih =>
    cases bs with
    | nil => rfl
    | cons b bs =>
      rw [precedes_cons] at h ⊢
      rcases Nat.lt_trichotomy b.toNat a.toNat with hlt | heq | hlt
      · exact .inl hlt
      · have hba : b = a := Char.ext (UInt32.toNat_inj.mp heq)
        subst hba
        exact .inr ⟨rfl, ih (fun hp => h (.inr ⟨rfl, hp⟩)) fun he => hne (he ▸ rfl)⟩
      · exact absurd (.inl hlt) h

/-- Whether `a` stands before `b`. -/
def Before (a b : String) : Prop := precedes a.toList b.toList = true

instance (a b : String) : Decidable (Before a b) :=
  inferInstanceAs (Decidable (precedes a.toList b.toList = true))

theorem Before.trans {a b c : String} (hab : Before a b) (hbc : Before b c) : Before a c :=
  precedes_trans hab hbc

theorem precedes_self (as : List Char) : precedes as as = false := by
  induction as with
  | nil => rfl
  | cons a as ih => rw [Bool.eq_false_iff, ne_eq, precedes_cons, ih]; simp

theorem not_before_self (a : String) : ¬Before a a := by
  unfold Before
  rw [precedes_self]
  decide

theorem before_of_not_before_of_ne {a b : String} (h : ¬Before a b) (hne : a ≠ b) : Before b a :=
  precedes_of_not_precedes_of_ne h fun he => hne (String.ext he)

end Soundstage.Text
