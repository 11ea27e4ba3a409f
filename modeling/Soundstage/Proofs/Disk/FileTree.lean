import Soundstage.Proofs.Disk.Neighbours

/-!
# File trees

What a path names, said of any tree of files that is looked at from one of its directories. A name in a directory
stands for a directory or a file itself, so there are no links; a file is known by the directory that it lies in and its
name there. A disk is such a tree, looked at from its working directory (`Disk.leads_follow`). Main statement: a path
that is joined to the parent of a file's path names what it names from the directory of the file
(`FileTree.joined_to_parent`).
-/

namespace Soundstage

namespace FileTree

/-- What a name stands for in a directory. -/
inductive Entry (D : Type)
  | directory (d : D)
  | file (content : Content)
  deriving DecidableEq, Repr

/-- What a path leads to. -/
inductive Place (D : Type)
  | directory (d : D)
  | file (d : D) (name : List Char) (content : Content)
  deriving DecidableEq, Repr

def Entry.place {D : Type} (d : D) (name : List Char) : Entry D → Place D
  | .directory inner => .directory inner
  | .file content => .file d name content

end FileTree

/-- A tree of files with directories `D`. -/
structure FileTree (D : Type) where
  root : D
  /-- Where relative paths start. -/
  home : D
  /-- The directory around a directory. -/
  up : D → D
  entry : D → List Char → Except FileFault (FileTree.Entry D)

def Content.text? : Content → Except FileFault String
  | .text s => .ok s
  | .bytes bs =>
    match String.fromUTF8? ⟨bs.toArray⟩ with
    | some s => .ok s
    | none => .error .notText
  | .recording _ => .error .notText

namespace Path

/-- Why a path is refused without a look at any directory. -/
def fault? (p : Path) : Option FileFault :=
  if p.text.toList.contains (Char.ofNat 0) then some .nulByte
  else if p.text.toList = [] then some .notFound
  else if Disk.pathLimit < p.text.utf8ByteSize then some .nameTooLong
  else none

theorem not_mem_of_fault?_eq_none {p : Path} (h : p.fault? = none) : Char.ofNat 0 ∉ p.text.toList := by
  intro hnul
  unfold fault? at h
  rw [if_pos (by simpa using hnul)] at h
  cases h

/-- A path that is joined to another is refused for the same reasons, if it brings in the only ones. -/
theorem fault?_join {base f : Path} (hnul : Char.ofNat 0 ∈ (base.join f).text.toList ↔ Char.ofNat 0 ∈ f.text.toList)
    (hne : f.text.toList ≠ []) (hfits : (base.join f).text.utf8ByteSize ≤ Disk.pathLimit) :
    (base.join f).fault? = f.fault? := by
  obtain ⟨front, hfront⟩ := base.join_text f
  have hne' : (base.join f).text.toList ≠ [] := by simp [hfront, hne]
  have hfits' : f.text.utf8ByteSize ≤ Disk.pathLimit := by
    rw [hfront, String.utf8ByteSize_append] at hfits
    omega
  have hcontains : (base.join f).text.toList.contains (Char.ofNat 0) = f.text.toList.contains (Char.ofNat 0) := by
    rw [Bool.eq_iff_iff, List.contains_iff_mem, List.contains_iff_mem, hnul]
  rw [fault?, fault?, hcontains, if_neg hne, if_neg hne', if_neg (Nat.not_lt.mpr hfits),
    if_neg (Nat.not_lt.mpr hfits')]

end Path

namespace FileTree

variable {D : Type}

/-- One piece of a path. -/
def advance (t : FileTree D) : Place D → List Char → Except FileFault (Place D)
  | .file .., _ => .error .notDirectory
  | .directory d, piece =>
    if !Path.isStep piece then .ok (.directory d)
    else if piece = ['.', '.'] then .ok (.directory (t.up d))
    else (t.entry d piece).map (Entry.place d piece)

def follow (t : FileTree D) : Place D → List (List Char) → Except FileFault (Place D)
  | place, [] => .ok place
  | place, piece :: rest => (t.advance place piece).bind fun next => t.follow next rest

/-- Where a path starts that is seen from `d`. -/
def startFrom (t : FileTree D) (d : D) (p : Path) : D := if p.isAbsolute then t.root else d

/-- What a path names, seen from `d`. -/
def named (t : FileTree D) (d : D) (p : Path) : Except FileFault (Place D) :=
  t.follow (.directory (t.startFrom d p)) p.pieces

/-- What comes of opening a path from `d`. Paths that are too long are refused whatever they name. -/
def opened (t : FileTree D) (d : D) (p : Path) : Except FileFault (Place D) :=
  match p.fault? with
  | some fault => .error fault
  | none => t.named d p

/-- The text of a file. -/
def readText (t : FileTree D) (p : Path) : Except FileFault String :=
  match t.opened t.home p with
  | .error fault => .error fault
  | .ok (.directory _) => .error .isDirectory
  | .ok (.file _ _ content) => content.text?

variable {t : FileTree D} {d dir : D} {place : Place D} {name : List Char} {content : Content} {p f : Path}
  {ps qs before kept skipped : List (List Char)}

theorem follow_append (t : FileTree D) (place : Place D) (ps qs : List (List Char)) :
    t.follow place (ps ++ qs) = (t.follow place ps).bind fun next => t.follow next qs := by
  induction ps generalizing place with
  | nil => rfl
  | cons piece ps ih =>
    simp only [List.cons_append, follow]
    cases t.advance place piece with
    | ok next => exact ih next
    | error fault => rfl

/-- There is no way on from a file. -/
theorem follow_of_file (h : t.follow (.file d name content) ps = .ok place) :
    ps = [] ∧ place = .file d name content := by
  cases ps with
  | nil =>
    cases h
    exact ⟨rfl, rfl⟩
  | cons piece ps => cases h

/-- Pieces that are no steps lead nowhere else. -/
theorem follow_skipped (d : D) (h : ∀ q ∈ skipped, Path.isStep q = false) :
    t.follow (.directory d) skipped = .ok (.directory d) := by
  induction skipped with
  | nil => rfl
  | cons q skipped ih =>
    have hq : t.advance (.directory d) q = .ok (.directory d) := by
      simp [advance, h q (List.mem_cons_self ..)]
    unfold follow
    rw [hq]
    exact ih fun q' hq' => h q' (List.mem_cons_of_mem q hq')

theorem follow_kept (h : t.follow (.directory d) (kept ++ skipped) = .ok (.directory dir))
    (hskipped : ∀ q ∈ skipped, Path.isStep q = false) : t.follow (.directory d) kept = .ok (.directory dir) := by
  rw [follow_append] at h
  cases hkept : t.follow (.directory d) kept with
  | error fault =>
    rw [hkept] at h
    cases h
  | ok place =>
    rw [hkept] at h
    change t.follow place skipped = .ok (.directory dir) at h
    cases place with
    | directory d' =>
      rw [follow_skipped d' hskipped] at h
      exact h
    | file d' name content => cases (follow_of_file h).2

theorem advance_file {piece : List Char} (h : t.advance (.directory d) piece = .ok (.file dir name content)) :
    piece = name ∧ d = dir ∧ Path.isStep name = true := by
  dsimp only [advance] at h
  split at h
  · cases h
  rename_i hstep
  split at h
  · cases h
  cases hentry : t.entry d piece with
  | error fault =>
    rw [hentry] at h
    cases h
  | ok entry =>
    rw [hentry] at h
    cases entry <;> cases h
    exact ⟨rfl, rfl, by simpa using hstep⟩

/-- A way that ends at a file leads to its directory first, and then there is its name. -/
theorem follow_file (h : t.follow (.directory d) ps = .ok (.file dir name content)) :
    ∃ before, ps = before ++ [name] ∧ Path.isStep name = true ∧
      t.follow (.directory d) before = .ok (.directory dir) := by
  induction ps generalizing d with
  | nil => cases h
  | cons piece ps ih =>
    unfold follow at h
    cases hpiece : t.advance (.directory d) piece with
    | error fault =>
      rw [hpiece] at h
      cases h
    | ok next =>
      rw [hpiece] at h
      change t.follow next ps = .ok (.file dir name content) at h
      cases next with
      | directory d' =>
        obtain ⟨before, hps, hstep, hbefore⟩ := ih h
        refine ⟨piece :: before, by rw [hps]; rfl, hstep, ?_⟩
        unfold follow
        rw [hpiece]
        exact hbefore
      | file d' name' content' =>
        obtain ⟨rfl, hfile⟩ := follow_of_file h
        cases hfile
        obtain ⟨rfl, rfl, hstep⟩ := advance_file hpiece
        exact ⟨[], rfl, hstep, rfl⟩

/-- What is called `f` from the directory of a file is called by `f` joined to the parent of the path of the file from
where that is called. To open it comes to the same, unless the joined path is too long for that. -/
theorem joined_to_parent (h : t.opened d p = .ok (.file dir name content)) (hf : f.isRelative = true) :
    ∃ base, p.parent? = some base ∧ t.named d (base.join f) = t.named dir f ∧
      (f.text.toList ≠ [] → (base.join f).text.utf8ByteSize ≤ Disk.pathLimit →
        t.opened d (base.join f) = t.opened dir f) := by
  unfold opened at h
  split at h
  · cases h
  rename_i hfault
  obtain ⟨before, hbefore, hstep, hdir⟩ := follow_file h
  obtain ⟨base, kept, skipped, hparent, hsplit, hskipped, hstart, hpieces⟩ := Path.parent_join hbefore hstep hf
  rw [hsplit] at hdir
  have hkept := follow_kept hdir hskipped
  have hnamed : t.named d (base.join f) = t.named dir f := by
    have hfrom : t.startFrom d (base.join f) = t.startFrom d p := by rw [startFrom, startFrom, hstart]
    have hhere : t.startFrom dir f = dir := by
      rw [startFrom, Path.isAbsolute_eq_false hf]
      rfl
    rw [named, named, hfrom, hhere, hpieces, follow_append, hkept]
    rfl
  refine ⟨base, hparent, hnamed, fun hne hfits => ?_⟩
  -- what leads to the directory is a part of the path of the file, which was not refused
  have hnul : Char.ofNat 0 ∈ (base.join f).text.toList ↔ Char.ofNat 0 ∈ f.text.toList := by
    have hslash : Char.ofNat 0 ≠ '/' := by decide
    rw [Path.mem_text_iff hslash, Path.mem_text_iff hslash, hpieces]
    constructor
    · rintro ⟨piece, hpiece, hc⟩
      rcases List.mem_append.mp hpiece with hpiece | hpiece
      · refine absurd ?_ (Path.not_mem_of_fault?_eq_none hfault)
        exact (Path.mem_text_iff hslash).mpr ⟨piece, by simp [hbefore, hsplit, hpiece], hc⟩
      · exact ⟨piece, hpiece, hc⟩
    · rintro ⟨piece, hpiece, hc⟩
      exact ⟨piece, List.mem_append_right kept hpiece, hc⟩
  rw [opened, opened, Path.fault?_join hnul hne hfits, hnamed]

end FileTree

/-! ### Disks -/

namespace Disk

def entry (d : Disk) (s : Spot) (name : List Char) : Except FileFault (FileTree.Entry Spot) :=
  match d.enter s name with
  | .error fault => .error fault
  | .ok target =>
    match d.nodeAt target with
    | some (.file content) => .ok (.file content)
    | _ => .ok (.directory target)

/-- A disk as it is seen from the working directory. -/
def tree (d : Disk) : FileTree Spot where
  root := []
  home := d.home
  up := Spot.up
  entry := d.entry

/-- A directory with directories all around it. -/
def Standing (d : Disk) (s : Spot) : Prop := ∀ t, t <+: s → d.nodeAt t = some .directory

/-- The two ways to say where a path leads agree. -/
inductive Leads (d : Disk) : Except FileFault Spot → Except FileFault (FileTree.Place Spot) → Prop
  | fault (fault : FileFault) : Leads d (.error fault) (.error fault)
  | directory {s : Spot} : d.Standing s → Leads d (.ok s) (.ok (.directory s))
  | file {s : Spot} {name : List Char} {content : Content} : d.nodeAt (s ++ [name]) = some (.file content) →
    Leads d (.ok (s ++ [name])) (.ok (.file s name content))

variable {d : Disk} {s : Spot} {p : Path}

namespace Standing

theorem directory (h : d.Standing s) : d.nodeAt s = some .directory := h s List.prefix_rfl

theorem up (h : d.Standing s) : d.Standing s.up := fun t ht => h t (ht.trans (List.dropLast_prefix s))

theorem home (d : Disk) : d.Standing d.home := fun _ ht => if_pos (List.isPrefixOf_iff_prefix.mpr ht)

theorem root (d : Disk) : d.Standing [] := fun t ht => home d t (ht.trans (List.nil_prefix))

theorem within {name : List Char} (h : d.Standing s) (hnode : d.nodeAt (s ++ [name]) = some .directory) :
    d.Standing (s ++ [name]) := by
  intro t ht
  rcases List.prefix_concat_iff.mp ht with rfl | ht
  · exact hnode
  · exact h t ht

end Standing

/-- Only what is there can be entered. -/
theorem enter_eq_ok {name : List Char} {target : Spot} (h : d.enter s name = .ok target) :
    target = s ++ [name] ∧ ∃ node, d.nodeAt (s ++ [name]) = some node := by
  unfold enter at h
  split at h
  · cases h
  dsimp only at h
  split at h
  · rename_i hthere
    cases h
    exact ⟨rfl, Option.isSome_iff_exists.mp hthere⟩
  · cases h

theorem leads_enter (h : d.Standing s) (name : List Char) :
    d.Leads (d.enter s name) ((d.entry s name).map (FileTree.Entry.place s name)) := by
  unfold entry
  rcases henter : d.enter s name with fault | target
  · exact .fault fault
  obtain ⟨rfl, node, hnode⟩ := enter_eq_ok henter
  dsimp only
  rw [hnode]
  rcases node with _ | content
  · exact .directory (h.within hnode)
  · exact .file hnode

theorem leads_advance (h : d.Standing s) (piece : List Char) :
    d.Leads (d.advance s piece) (d.tree.advance (.directory s) piece) := by
  unfold advance
  rw [h.directory]
  dsimp only [FileTree.advance]
  split
  · exact .directory h
  · split
    · exact .directory h.up
    · exact leads_enter h piece

/-- A disk followed place by place. -/
theorem leads_follow (h : d.Standing s) (pieces : List (List Char)) :
    d.Leads (d.follow s pieces) (d.tree.follow (.directory s) pieces) := by
  induction pieces generalizing s with
  | nil => exact .directory h
  | cons piece rest ih =>
    have hpiece := leads_advance h piece
    unfold follow FileTree.follow
    generalize d.advance s piece = a at hpiece ⊢
    generalize d.tree.advance (.directory s) piece = b at hpiece ⊢
    cases hpiece with
    | fault fault => exact .fault fault
    | directory h' => exact ih h'
    | @file s name content hnode =>
      cases rest with
      | nil => exact .file hnode
      | cons piece rest =>
        have hstuck : d.follow (s ++ [name]) (piece :: rest) = .error .notDirectory := by
          unfold follow advance
          rw [hnode]
        dsimp only
        rw [hstuck]
        exact .fault .notDirectory

theorem resolve_eq (d : Disk) (p : Path) : d.resolve p =
    match p.fault? with
    | some fault => .error fault
    | none => d.follow (d.startOf p) p.pieces := by
  unfold resolve Path.fault?
  split
  · rfl
  split
  · rfl
  split <;> rfl

theorem leads_resolve (d : Disk) (p : Path) : d.Leads (d.resolve p) (d.tree.opened d.tree.home p) := by
  have hstart : d.Standing (d.startOf p) := by
    unfold startOf
    split
    · exact .root d
    · exact .home d
  rw [resolve_eq, FileTree.opened, FileTree.named]
  rcases p.fault? with _ | fault
  · exact leads_follow hstart p.pieces
  · exact .fault fault

theorem readText_tree (d : Disk) (p : Path) : d.tree.readText p = d.readText p := by
  have hleads := d.leads_resolve p
  unfold FileTree.readText readText find
  generalize d.resolve p = a at hleads ⊢
  generalize d.tree.opened d.tree.home p = b at hleads ⊢
  cases hleads with
  | fault fault => rfl
  | directory h =>
    dsimp only
    rw [h.directory]
  | @file s name content hnode =>
    dsimp only
    rw [hnode]
    cases content <;> rfl

end Disk

end Soundstage
