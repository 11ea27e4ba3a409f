import Mathlib.Tactic.SplitIfs
import Soundstage.Text.Order

/-!
# The byte order of texts

The order of code points is the order of the bytes of the UTF-8 forms (`before_iff_bytes`): where two
characters differ, the first byte that differs between their encodings decides the same way. The
lengths never decide, as the first byte tells how long an encoding is.
-/

namespace Soundstage.Text

/-- The UTF-8 form of a text. -/
def bytes (s : String) : List UInt8 := s.toUTF8.data.toList

theorem bytes_eq (s : String) : bytes s = s.toList.flatMap String.utf8EncodeChar := by
  unfold bytes
  rw [String.toUTF8_eq_toByteArray, ← String.utf8Encode_toList, List.utf8Encode, List.data_toByteArray]

theorem toNat_lt (c : Char) : c.val.toNat < 0x110000 := by
  rcases c.valid with h | ⟨-, h⟩
  · exact Nat.lt_trans h (by decide)
  · exact h

/-- Of two characters the lesser has the lesser encoding, whatever follows. -/
theorem encode_lt {a b : Char} (h : a.toNat < b.toNat) (as bs : List UInt8) :
    String.utf8EncodeChar a ++ as < String.utf8EncodeChar b ++ bs := by
  have hb := toNat_lt b
  change a.val.toNat < b.val.toNat at h
  unfold String.utf8EncodeChar
  generalize a.val.toNat = m at h ⊢
  generalize b.val.toNat = n at h hb ⊢
  dsimp only
  split_ifs <;> simp only [List.cons_append, List.nil_append, List.cons_lt_cons_iff, UInt8.lt_iff_toNat_lt,
    ← UInt8.toNat_inj, UInt8.toNat_ofNat'] <;> simp (disch := omega) only [Nat.mod_eq_of_lt] <;> omega

theorem bytes_lt_of_precedes {as bs : List Char} (h : precedes as bs = true) :
    as.flatMap String.utf8EncodeChar < bs.flatMap String.utf8EncodeChar := by
  induction as generalizing bs with
  | nil =>
    cases bs with
    | nil => cases h
    | cons b bs =>
      rw [List.flatMap_nil, List.flatMap_cons]
      cases hb : String.utf8EncodeChar b with
      | nil => exact absurd hb String.utf8EncodeChar_ne_nil
      | cons => exact List.nil_lt_cons _ _
  | cons a as ih =>
    cases bs with
    | nil => cases h
    | cons b bs =>
      rw [List.flatMap_cons, List.flatMap_cons]
      rcases precedes_cons.mp h with hlt | ⟨rfl, hrest⟩
      · exact encode_lt hlt _ _
      · exact List.append_left_lt (ih hrest)

theorem before_iff_bytes {a b : String} : Before a b ↔ bytes a < bytes b := by
  have lt : ∀ {a b : String}, Before a b → bytes a < bytes b := fun h => by
    rw [bytes_eq, bytes_eq]
    exact bytes_lt_of_precedes h
  refine ⟨lt, fun h => Classical.byContradiction fun hn => ?_⟩
  by_cases he : a = b
  · exact List.lt_irrefl _ (he ▸ h)
  · exact List.lt_asymm h (lt (before_of_not_before_of_ne hn he))

end Soundstage.Text
