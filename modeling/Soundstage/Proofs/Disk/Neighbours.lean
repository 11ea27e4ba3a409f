import Mathlib.Data.List.DropRight
import Soundstage.Proofs.Disk.Spellings

/-!
# Neighbours of a file

A file that is called from the directory of another one is called from elsewhere by joining its path to the parent of
the other's. Paths are texts, and a parent keeps its spelling but for what stands for nothing at its end. Main
statement: the pieces of the joined path are those that lead to the directory and then those of the path that was
joined to it (`parent_join`).
-/

namespace Soundstage

namespace Text

variable {sep c : Char}

theorem pieces_append (sep : Char) (front rest : List Char) :
    pieces sep (front ++ sep :: rest) = pieces sep front ++ pieces sep rest := by
  induction front with
  | nil => simp [pieces]
  | cons c front ih =>
    rw [List.cons_append, pieces, pieces, ih]
    split
    · rfl
    · cases h : pieces sep front with
      | nil => exact absurd h (pieces_ne_nil sep front)
      | cons p ps => rfl

theorem pieces_of_not_mem {cs : List Char} (h : sep ∉ cs) : pieces sep cs = [cs] := by
  induction cs with
  | nil => rfl
  | cons c cs ih =>
    simp only [List.mem_cons, not_or] at h
    rw [pieces, if_neg (Ne.symm h.1), ih h.2]

theorem not_mem_of_mem_pieces {cs piece : List Char} (h : piece ∈ pieces sep cs) : sep ∉ piece := by
  induction cs generalizing piece with
  | nil =>
    rw [pieces, List.mem_singleton] at h
    simp [h]
  | cons c cs ih =>
    unfold pieces at h
    split at h
    · rcases List.mem_cons.mp h with rfl | h
      · simp
      · exact ih h
    · rename_i hc
      cases hcs : pieces sep cs with
      | nil => exact absurd hcs (pieces_ne_nil sep cs)
      | cons p ps =>
        rw [hcs] at h ih
        rcases List.mem_cons.mp h with rfl | h
        · simp only [List.mem_cons, not_or]
          exact ⟨Ne.symm hc, ih (List.mem_cons_self ..)⟩
        · exact ih (List.mem_cons_of_mem p h)

theorem pieces_join {ps : List (List Char)} (hne : ps ≠ []) (h : ∀ p ∈ ps, sep ∉ p) :
    pieces sep (join sep ps) = ps := by
  induction ps with
  | nil => exact absurd rfl hne
  | cons p ps ih =>
    cases ps with
    | nil => exact pieces_of_not_mem (h p (by simp))
    | cons q ps =>
      rw [join, pieces_append, pieces_of_not_mem (h p (by simp)),
        ih (List.cons_ne_nil q ps) fun r hr => h r (List.mem_cons_of_mem p hr)]
      rfl

theorem join_concat {ps : List (List Char)} (hne : ps ≠ []) (last : List Char) :
    join sep (ps ++ [last]) = join sep ps ++ sep :: last := by
  induction ps with
  | nil => exact absurd rfl hne
  | cons p ps ih =>
    cases ps with
    | nil => rfl
    | cons q ps =>
      have hrest := ih (List.cons_ne_nil q ps)
      simp only [List.cons_append] at hrest
      simp [join, hrest]

/-- The characters of a text are those of its pieces, apart from what separates them. -/
theorem mem_join_iff {ps : List (List Char)} (hc : c ≠ sep) : c ∈ join sep ps ↔ ∃ p ∈ ps, c ∈ p := by
  induction ps with
  | nil => simp [join]
  | cons p ps ih =>
    cases ps with
    | nil => simp [join]
    | cons q ps =>
      rw [join, List.mem_append, List.mem_cons, ih]
      simp [hc]

end Text

namespace Path

variable {p f base : Path} {first last piece : List Char} {ps rest before : List (List Char)}

theorem text_eq (p : Path) : p.text.toList = Text.join '/' p.pieces := (Text.join_pieces '/' p.text.toList).symm

theorem not_mem_piece (h : piece ∈ p.pieces) : '/' ∉ piece := Text.not_mem_of_mem_pieces h

theorem mem_text_iff {c : Char} (hc : c ≠ '/') : c ∈ p.text.toList ↔ ∃ piece ∈ p.pieces, c ∈ piece := by
  rw [text_eq]
  exact Text.mem_join_iff hc

theorem ne_nil_of_isStep (h : isStep piece = true) : piece ≠ [] := by
  rintro rfl
  simp [isStep] at h

theorem isAbsolute_of_pieces (h : p.pieces = first :: rest) :
    p.isAbsolute = true ↔ first = [] ∧ rest ≠ [] := by
  have htext := p.text_eq
  rw [h] at htext
  unfold isAbsolute
  rw [htext, decide_eq_true_iff]
  cases first with
  | nil => cases rest <;> simp [Text.join]
  | cons c first =>
    -- the first piece has no slash in it
    have hc : c ≠ '/' := fun e => not_mem_piece (p := p) (h ▸ List.mem_cons_self ..) (by simp [e])
    rw [Text.join_cons_cons]
    simp [hc]

theorem isAbsolute_eq_false (hf : f.isRelative = true) : f.isAbsolute = false := by simpa [isRelative] using hf

/-- A path that ends in a piece that is not blank has no slash at its end. -/
theorem getLast?_ne_slash (h : p.pieces = ps ++ [last]) (hlast : last ≠ []) :
    p.text.toList ≠ [] ∧ p.text.toList.getLast? ≠ some '/' := by
  have hslash : '/' ∉ last := not_mem_piece (p := p) (by rw [h]; simp)
  have hend : last.getLast? ≠ some '/' := fun e => hslash (List.mem_of_getLast? e)
  rw [p.text_eq, h]
  cases ps with
  | nil => exact ⟨hlast, hend⟩
  | cons first ps =>
    rw [Text.join_concat (List.cons_ne_nil first ps)]
    refine ⟨by simp, ?_⟩
    rw [List.getLast?_append, List.getLast?_cons, Option.some_or]
    cases hl : last.getLast? with
    | none => exact absurd (List.getLast?_eq_none_iff.mp hl) hlast
    | some c => simpa [hl] using hend

/-- Below a directory that is called by a step at its end. -/
theorem join_below (hf : f.isRelative = true) (h : base.pieces = ps ++ [last]) (hlast : last ≠ []) :
    (base.join f).pieces = base.pieces ++ f.pieces ∧ (base.join f).isAbsolute = base.isAbsolute := by
  obtain ⟨hne, hslash⟩ := getLast?_ne_slash h hlast
  have hjoin : base.join f = ⟨base.text ++ "/" ++ f.text⟩ := by
    unfold join
    rw [isAbsolute_eq_false hf, if_neg Bool.false_ne_true, if_neg (not_or.mpr ⟨hne, hslash⟩)]
  have htext : (base.join f).text.toList = base.text.toList ++ '/' :: f.text.toList := by
    rw [hjoin]
    simp
  refine ⟨?_, ?_⟩
  · rw [pieces, htext, Text.pieces_append]
    rfl
  · unfold isAbsolute
    rw [htext, List.head?_append]
    cases hb : base.text.toList with
    | nil => exact absurd hb hne
    | cons c cs => rfl

theorem join_root (hf : f.isRelative = true) :
    (join ⟨"/"⟩ f).pieces = [] :: f.pieces ∧ (join ⟨"/"⟩ f).isAbsolute = true := by
  have hjoin : join ⟨"/"⟩ f = ⟨"/" ++ f.text⟩ := by
    unfold join
    rw [isAbsolute_eq_false hf, if_neg Bool.false_ne_true, if_pos (.inr (by decide))]
  have htext : (join ⟨"/"⟩ f).text.toList = '/' :: f.text.toList := by
    rw [hjoin]
    simp
  exact ⟨by rw [pieces, htext, Text.pieces_cons_self]; rfl, by simp [isAbsolute, htext]⟩

theorem join_nothing (hf : f.isRelative = true) : join ⟨""⟩ f = f := by
  unfold join
  rw [isAbsolute_eq_false hf, if_neg Bool.false_ne_true, if_pos (.inl (by decide))]
  simp

theorem join_text (base f : Path) : ∃ front, (base.join f).text = front ++ f.text := by
  unfold join
  split
  · exact ⟨"", by simp⟩
  · split
    · exact ⟨base.text, rfl⟩
    · exact ⟨base.text ++ "/", rfl⟩

/-! ### Parents -/

theorem trimEnd_concat (h : isStep last = true) : trimEnd (ps ++ [last]) = ps ++ [last] :=
  List.rdropWhile_concat_neg _ _ _ (by simp [h])

/-- What is trimmed off are no steps. -/
theorem trimEnd_append (ps : List (List Char)) :
    ∃ skipped, ps = trimEnd ps ++ skipped ∧ ∀ q ∈ skipped, isStep q = false := by
  refine ⟨ps.rtakeWhile fun piece => !isStep piece, List.rdropWhile_append_rtakeWhile.symm, fun q hq => ?_⟩
  simpa using List.mem_rtakeWhile_imp hq

theorem trimEnd_last (h : trimEnd ps ≠ []) : ∃ front last, trimEnd ps = front ++ [last] ∧ isStep last = true := by
  refine ⟨(trimEnd ps).dropLast, (trimEnd ps).getLast h, (List.dropLast_append_getLast h).symm, ?_⟩
  have hlast : ¬(!isStep ((trimEnd ps).getLast h)) = true := List.rdropWhile_last_not _ ps h
  simpa using hlast

theorem parent?_of_single (h : p.pieces = [last]) (hstep : isStep last = true) : p.parent? = some ⟨""⟩ := by
  unfold parent?
  rw [h]
  exact if_neg (ne_nil_of_isStep hstep)

/-- A parent in the root keeps the slash that stands for it. -/
theorem parent?_of_pieces (h : p.pieces = first :: (ps ++ [last])) (hstep : isStep last = true) :
    p.parent? = some (if first = [] ∧ trimEnd ps = [] then ⟨"/"⟩
      else ⟨String.ofList (Text.join '/' (first :: trimEnd ps))⟩) := by
  unfold parent?
  rw [h]
  dsimp only
  rw [trimEnd_concat hstep]
  cases hps : ps ++ [last] with
  | nil => exact absurd hps (by simp)
  | cons step steps =>
    dsimp only
    rw [← hps, List.dropLast_concat]
    cases htrim : trimEnd ps with
    | nil =>
      by_cases hfirst : first = []
      · simp [hfirst]
      · simp [hfirst, Text.join]
    | cons q qs => simp

/-- A path that is joined to the parent of another one starts where that does, and leads first to the directory that
the last piece of that is called in. -/
theorem parent_join (h : p.pieces = before ++ [last]) (hstep : isStep last = true) (hf : f.isRelative = true) :
    ∃ base kept skipped, p.parent? = some base ∧ before = kept ++ skipped ∧ (∀ q ∈ skipped, isStep q = false) ∧
      (base.join f).isAbsolute = p.isAbsolute ∧ (base.join f).pieces = kept ++ f.pieces := by
  cases before with
  | nil =>
    refine ⟨_, [], [], parent?_of_single h hstep, rfl, by simp, ?_, by rw [join_nothing hf]; rfl⟩
    rw [join_nothing hf, isAbsolute_eq_false hf, eq_comm, ← Bool.not_eq_true, isAbsolute_of_pieces h]
    exact fun e => ne_nil_of_isStep hstep e.1
  | cons first inner =>
    rw [List.cons_append] at h
    have hparent := parent?_of_pieces h hstep
    obtain ⟨skipped, hinner, hskipped⟩ := trimEnd_append inner
    refine ⟨_, first :: trimEnd inner, skipped, hparent, by rw [List.cons_append, ← hinner], hskipped, ?_⟩
    have habs : p.isAbsolute = true ↔ first = [] := (isAbsolute_of_pieces h).trans (and_iff_left (by simp))
    split
    · rename_i hroot
      obtain ⟨hpieces, hrooted⟩ := join_root hf
      rw [hroot.2, hroot.1]
      exact ⟨hrooted.trans (habs.mpr hroot.1).symm, hpieces⟩
    · rename_i hroot
      -- the parent is spelled by the pieces that are kept, and the last of them is not blank
      generalize hbase : (⟨String.ofList (Text.join '/' (first :: trimEnd inner))⟩ : Path) = base
      have hpieces : base.pieces = first :: trimEnd inner := by
        rw [← hbase, pieces, String.toList_ofList]
        refine Text.pieces_join (List.cons_ne_nil _ _) fun q hq => not_mem_piece (p := p) ?_
        rw [h, hinner]
        simp only [List.mem_cons, List.mem_append] at hq ⊢
        exact hq.imp_right fun hq => .inl (.inl hq)
      have hlast : ∃ front last, base.pieces = front ++ [last] ∧ last ≠ [] := by
        by_cases htrim : trimEnd inner = []
        · exact ⟨[], first, by rw [hpieces, htrim]; rfl, fun e => hroot ⟨e, htrim⟩⟩
        · obtain ⟨front, step, hfront, hstep⟩ := trimEnd_last htrim
          exact ⟨first :: front, step, by rw [hpieces, hfront]; rfl, ne_nil_of_isStep hstep⟩
      obtain ⟨front, step, hfront, hne⟩ := hlast
      obtain ⟨hjoined, hstarts⟩ := join_below hf hfront hne
      refine ⟨?_, by rw [hjoined, hpieces]⟩
      rw [hstarts, Bool.eq_iff_iff, habs, isAbsolute_of_pieces hpieces]
      exact and_iff_left_of_imp fun e htrim => hroot ⟨e, htrim⟩

end Path

end Soundstage
