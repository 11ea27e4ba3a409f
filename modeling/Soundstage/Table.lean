/-!
# Tables

A finite map that lists its keys in the order in which they first came in. The type carries that no
key is listed twice, so erasing a key removes it altogether (`get?_erase_self`) and changing one
leaves every other alone (`get?_insert_of_ne`, `get?_modify_of_ne`).
-/

namespace Soundstage

structure Table (κ α : Type) where
  entries : List (κ × α)
  nodup : (entries.map Prod.fst).Nodup

namespace Table

variable {κ α : Type}

@[ext]
theorem ext {s t : Table κ α} (h : s.entries = t.entries) : s = t := by
  cases s; cases t; cases h; rfl

def empty : Table κ α := ⟨[], List.nodup_nil⟩

instance : Inhabited (Table κ α) := ⟨empty⟩

def keys (t : Table κ α) : List κ := t.entries.map Prod.fst

def values (t : Table κ α) : List α := t.entries.map Prod.snd

def size (t : Table κ α) : Nat := t.entries.length

/-- Change every value. -/
def mapValues (f : α → α) (t : Table κ α) : Table κ α :=
  ⟨t.entries.map fun e => (e.1, f e.2), by
    rw [List.map_map]; exact t.nodup⟩

theorem nodup_filter {l : List (κ × α)} (h : (l.map Prod.fst).Nodup) (p : κ × α → Bool) :
    ((l.filter p).map Prod.fst).Nodup :=
  h.sublist (List.filter_sublist.map _)

variable [DecidableEq κ]

/-- The first value listed under `k`. -/
def find (k : κ) : List (κ × α) → Option α
  | [] => none
  | (k', v) :: rest => if k = k' then some v else find k rest

def get? (t : Table κ α) (k : κ) : Option α := find k t.entries

def contains (t : Table κ α) (k : κ) : Bool := (t.get? k).isSome

def filter (p : κ × α → Bool) (t : Table κ α) : Table κ α :=
  ⟨t.entries.filter p, nodup_filter t.nodup p⟩

def erase (t : Table κ α) (k : κ) : Table κ α := t.filter fun e => e.1 ≠ k

theorem map_fst_update (l : List (κ × α)) (k : κ) (f : α → α) :
    (l.map fun e => if e.1 = k then (e.1, f e.2) else e).map Prod.fst = l.map Prod.fst := by
  rw [List.map_map]
  apply List.map_congr_left
  intro e _
  simp only [Function.comp]
  split <;> rfl

/-- Change the value under `k`, if there is one. -/
def modify (t : Table κ α) (k : κ) (f : α → α) : Table κ α :=
  ⟨t.entries.map fun e => if e.1 = k then (e.1, f e.2) else e, by
    rw [map_fst_update]; exact t.nodup⟩

theorem find_eq_none_iff {l : List (κ × α)} {k : κ} : find k l = none ↔ k ∉ l.map Prod.fst := by
  induction l with
  | nil => simp [find]
  | cons e rest ih =>
    obtain ⟨k', v⟩ := e
    by_cases h : k = k' <;> simp [find, h, ih]

theorem get?_eq_none_iff {t : Table κ α} {k : κ} : t.get? k = none ↔ k ∉ t.keys :=
  find_eq_none_iff

theorem nodup_append {l : List (κ × α)} (h : (l.map Prod.fst).Nodup) {k : κ} (v : α)
    (hk : find k l = none) : ((l ++ [(k, v)]).map Prod.fst).Nodup := by
  rw [List.map_append, List.nodup_append]
  refine ⟨h, by simp, ?_⟩
  intro a ha b hb hab
  simp only [List.map_cons, List.map_nil, List.mem_singleton] at hb
  subst hab hb
  exact find_eq_none_iff.mp hk ha

/-- Put `v` under `k`: in the place of the old value, or at the end. -/
def insert (t : Table κ α) (k : κ) (v : α) : Table κ α :=
  match h : find k t.entries with
  | some _ => t.modify k fun _ => v
  | none => ⟨t.entries ++ [(k, v)], nodup_append t.nodup v h⟩

/-- A table with the entries of a list, later ones winning. -/
def ofList (l : List (κ × α)) : Table κ α := l.foldl (fun t e => t.insert e.1 e.2) empty

/-! ### Reading after writing -/

@[simp]
theorem get?_empty (k : κ) : (empty : Table κ α).get? k = none := rfl

theorem find_filter_ne (l : List (κ × α)) (k : κ) :
    find k (l.filter fun e => e.1 ≠ k) = none := by
  rw [find_eq_none_iff]
  simp

theorem find_filter_of_ne (l : List (κ × α)) {j k : κ} (h : j ≠ k) :
    find j (l.filter fun e => e.1 ≠ k) = find j l := by
  induction l with
  | nil => rfl
  | cons e rest ih =>
    obtain ⟨k', v⟩ := e
    by_cases hk : k' = k
    · subst hk
      simpa [find, h] using ih
    · rw [List.filter_cons_of_pos (by simpa using hk)]
      simp only [find, ih]

@[simp]
theorem get?_erase_self (t : Table κ α) (k : κ) : (t.erase k).get? k = none :=
  find_filter_ne t.entries k

theorem get?_erase_of_ne (t : Table κ α) {j k : κ} (h : j ≠ k) :
    (t.erase k).get? j = t.get? j :=
  find_filter_of_ne t.entries h

theorem find_update_self (l : List (κ × α)) (k : κ) (f : α → α) :
    find k (l.map fun e => if e.1 = k then (e.1, f e.2) else e) = (find k l).map f := by
  induction l with
  | nil => rfl
  | cons e rest ih =>
    obtain ⟨k', v⟩ := e
    by_cases h : k = k'
    · subst h; simp [find]
    · have h' : ¬k' = k := fun e => h e.symm
      simp [find, h, h', ih]

theorem find_update_of_ne (l : List (κ × α)) {j k : κ} (f : α → α) (h : j ≠ k) :
    find j (l.map fun e => if e.1 = k then (e.1, f e.2) else e) = find j l := by
  induction l with
  | nil => rfl
  | cons e rest ih =>
    obtain ⟨k', v⟩ := e
    by_cases hk : k' = k
    · subst hk; simp [find, h, ih]
    · simp [find, hk, ih]

@[simp]
theorem get?_modify_self (t : Table κ α) (k : κ) (f : α → α) :
    (t.modify k f).get? k = (t.get? k).map f :=
  find_update_self t.entries k f

theorem get?_modify_of_ne (t : Table κ α) {j k : κ} (f : α → α) (h : j ≠ k) :
    (t.modify k f).get? j = t.get? j :=
  find_update_of_ne t.entries f h

theorem find_append_singleton (l : List (κ × α)) (j k : κ) (v : α) :
    find j (l ++ [(k, v)]) = (find j l).or (if j = k then some v else none) := by
  induction l with
  | nil => simp [find]
  | cons e rest ih =>
    obtain ⟨k', w⟩ := e
    by_cases h : j = k' <;> simp [find, h, ih]

theorem insert_of_get?_eq_none {t : Table κ α} {k : κ} (v : α) (h : t.get? k = none) :
    (t.insert k v).entries = t.entries ++ [(k, v)] := by
  have h' : find k t.entries = none := h
  unfold insert
  split
  · simp_all
  · rfl

theorem insert_of_get?_eq_some {t : Table κ α} {k : κ} {old : α} (v : α)
    (h : t.get? k = some old) : t.insert k v = t.modify k fun _ => v := by
  have h' : find k t.entries = some old := h
  unfold insert
  split
  · rfl
  · simp_all

@[simp]
theorem get?_insert_self (t : Table κ α) (k : κ) (v : α) : (t.insert k v).get? k = some v := by
  cases h : t.get? k with
  | none =>
    have h' : find k t.entries = none := h
    unfold get?
    rw [insert_of_get?_eq_none v h, find_append_singleton, h']
    simp
  | some old =>
    rw [insert_of_get?_eq_some v h, get?_modify_self, h]
    rfl

theorem get?_insert_of_ne (t : Table κ α) {j k : κ} (v : α) (hne : j ≠ k) :
    (t.insert k v).get? j = t.get? j := by
  cases h : t.get? k with
  | none =>
    unfold get?
    rw [insert_of_get?_eq_none v h, find_append_singleton]
    simp [hne]
  | some old => rw [insert_of_get?_eq_some v h, get?_modify_of_ne _ _ hne]

theorem keys_modify (t : Table κ α) (k : κ) (f : α → α) : (t.modify k f).keys = t.keys :=
  map_fst_update t.entries k f

theorem keys_insert_of_some {t : Table κ α} {k : κ} {old : α} (v : α) (h : t.get? k = some old) :
    (t.insert k v).keys = t.keys := by
  rw [insert_of_get?_eq_some v h, keys_modify]

theorem keys_erase (t : Table κ α) (k : κ) : (t.erase k).keys = t.keys.filter fun j => j ≠ k := by
  unfold keys
  rw [List.filter_map]
  rfl

theorem get?_insert (t : Table κ α) (j k : κ) (v : α) :
    (t.insert k v).get? j = if j = k then some v else t.get? j := by
  split
  · subst j; exact t.get?_insert_self k v
  · exact t.get?_insert_of_ne v ‹_›

theorem get?_erase (t : Table κ α) (j k : κ) :
    (t.erase k).get? j = if j = k then none else t.get? j := by
  split
  · subst j; exact t.get?_erase_self k
  · exact t.get?_erase_of_ne ‹_›

theorem get?_modify (t : Table κ α) (j k : κ) (f : α → α) :
    (t.modify k f).get? j = if j = k then (t.get? j).map f else t.get? j := by
  split
  · subst j; exact t.get?_modify_self k f
  · exact t.get?_modify_of_ne f ‹_›

/-- Every value is changed, by a function that looks at its key. -/
theorem get?_modify_eq_map (t : Table κ α) (j k : κ) (f : α → α) :
    (t.modify k f).get? j = (t.get? j).map fun v => if j = k then f v else v := by
  rw [get?_modify]
  split
  · rfl
  · simp

theorem find_mapValues (f : α → α) (k : κ) (l : List (κ × α)) :
    find k (l.map fun e => (e.1, f e.2)) = (find k l).map f := by
  induction l with
  | nil => rfl
  | cons e rest ih =>
    obtain ⟨k', v⟩ := e
    by_cases h : k = k' <;> simp [find, h, ih]

@[simp]
theorem get?_mapValues (t : Table κ α) (f : α → α) (k : κ) :
    (t.mapValues f).get? k = (t.get? k).map f :=
  find_mapValues f k t.entries

/-! ### Equality -/

theorem eq_of_find {l m : List (κ × α)} (hl : (l.map Prod.fst).Nodup) (hkeys : l.map Prod.fst = m.map Prod.fst)
    (hfind : ∀ k, find k l = find k m) : l = m := by
  induction l generalizing m with
  | nil => exact (List.map_eq_nil_iff.mp hkeys.symm).symm
  | cons e rest ih =>
    obtain _ | ⟨e', rest'⟩ := m
    · cases hkeys
    obtain ⟨k, v⟩ := e
    obtain ⟨k', v'⟩ := e'
    rw [List.map_cons, List.map_cons, List.cons.injEq] at hkeys
    obtain ⟨rfl, hrest⟩ := hkeys
    obtain ⟨hout, hl⟩ := List.nodup_cons.mp hl
    have hv : v = v' := by simpa [find] using hfind k
    subst hv
    refine congrArg ((k, v) :: ·) (ih hl hrest fun j => ?_)
    by_cases hj : j = k
    · subst hj
      rw [find_eq_none_iff.mpr hout, find_eq_none_iff.mpr (hrest ▸ hout)]
    · simpa [find, hj] using hfind j

/-- Tables that list the same keys and agree on each are the same. -/
theorem ext_get? {s t : Table κ α} (hkeys : s.keys = t.keys) (hget : ∀ k, s.get? k = t.get? k) : s = t :=
  ext (eq_of_find s.nodup hkeys hget)

theorem erase_of_get?_eq_none {t : Table κ α} {k : κ} (h : t.get? k = none) : t.erase k = t := by
  have hout : k ∉ t.keys := get?_eq_none_iff.mp h
  refine ext (List.filter_eq_self.mpr fun e he => decide_eq_true fun hk => hout ?_)
  exact List.mem_map.mpr ⟨e, he, hk⟩

theorem erase_insert (t : Table κ α) (k : κ) (v : α) : (t.insert k v).erase k = t.erase k := by
  refine ext_get? ?_ fun j => ?_
  · rw [keys_erase, keys_erase]
    cases h : t.get? k with
    | some old => rw [keys_insert_of_some v h]
    | none =>
      unfold keys
      rw [insert_of_get?_eq_none v h]
      simp
  · rw [get?_erase, get?_erase, get?_insert]
    by_cases hj : j = k <;> simp [hj]

theorem erase_comm (t : Table κ α) (j k : κ) : (t.erase j).erase k = (t.erase k).erase j := by
  refine ext_get? ?_ fun i => ?_
  · simp only [keys_erase, List.filter_filter, Bool.and_comm]
  · simp only [get?_erase]
    by_cases hj : i = j <;> simp [hj]

/-! ### Entries -/

theorem find_eq_some_iff {l : List (κ × α)} (h : (l.map Prod.fst).Nodup) {k : κ} {v : α} :
    find k l = some v ↔ (k, v) ∈ l := by
  induction l with
  | nil => simp [find]
  | cons e rest ih =>
    obtain ⟨k', w⟩ := e
    rw [List.map_cons, List.nodup_cons] at h
    by_cases hk : k = k'
    · subst hk
      have hv : (k, v) ∉ rest := fun hm => h.1 (List.mem_map.mpr ⟨_, hm, rfl⟩)
      simp [find, hv, eq_comm]
    · simp [find, hk, ih h.2]

theorem mem_entries_iff {t : Table κ α} {k : κ} {v : α} :
    (k, v) ∈ t.entries ↔ t.get? k = some v :=
  (find_eq_some_iff t.nodup).symm

/-- Putting a value where it is already changes nothing. -/
theorem insert_eq_self {t : Table κ α} {k : κ} {v : α} (h : t.get? k = some v) : t.insert k v = t := by
  rw [insert_of_get?_eq_some v h]
  refine ext ((List.map_congr_left fun e he => ?_).trans (List.map_id _))
  split
  · rename_i hk
    have hv := mem_entries_iff.mp he
    rw [hk, h] at hv
    cases hv
    rfl
  · rfl

/-- The keys of the values that `p` picks. -/
theorem mem_keys_filter_iff {t : Table κ α} {p : α → Bool} {k : κ} :
    k ∈ (t.entries.filter fun e => p e.2).map Prod.fst ↔ ∃ v, t.get? k = some v ∧ p v = true := by
  simp only [List.mem_map, List.mem_filter]
  constructor
  · rintro ⟨⟨j, v⟩, ⟨hm, hp⟩, rfl⟩
    exact ⟨v, mem_entries_iff.mp hm, hp⟩
  · rintro ⟨v, hv, hp⟩
    exact ⟨(k, v), ⟨mem_entries_iff.mpr hv, hp⟩, rfl⟩

theorem contains_iff {t : Table κ α} {k : κ} : t.contains k = true ↔ ∃ v, t.get? k = some v :=
  Option.isSome_iff_exists

theorem size_eq_zero_iff {t : Table κ α} : t.size = 0 ↔ ∀ k, t.get? k = none := by
  constructor
  · intro h k
    rw [get?_eq_none_iff, keys, List.eq_nil_of_length_eq_zero h]
    simp
  · intro h
    refine List.length_eq_zero_iff.mpr (List.eq_nil_iff_forall_not_mem.mpr ?_)
    rintro ⟨k, v⟩ hm
    rw [mem_entries_iff, h k] at hm
    cases hm

theorem size_insert {t : Table κ α} {k : κ} (v : α) (h : t.get? k = none) :
    (t.insert k v).size = t.size + 1 := by
  unfold size
  rw [insert_of_get?_eq_none v h]
  simp

theorem size_insert_of_some {t : Table κ α} {k : κ} {old : α} (v : α) (h : t.get? k = some old) :
    (t.insert k v).size = t.size := by
  rw [insert_of_get?_eq_some v h]
  exact List.length_map _

theorem size_erase {t : Table κ α} {k : κ} {v : α} (h : t.get? k = some v) :
    (t.erase k).size + 1 = t.size := by
  have hmem := mem_entries_iff.mpr h
  obtain ⟨l₁, l₂, hl⟩ := List.append_of_mem hmem
  have hnd := t.nodup
  rw [hl, List.map_append, List.map_cons, List.nodup_append, List.nodup_cons] at hnd
  obtain ⟨-, ⟨h₂, -⟩, h₁⟩ := hnd
  have keep₁ : l₁.filter (fun e => decide (e.1 ≠ k)) = l₁ :=
    List.filter_eq_self.mpr fun e he =>
      decide_eq_true (h₁ e.1 (List.mem_map_of_mem he) k (List.mem_cons_self ..))
  have keep₂ : l₂.filter (fun e => decide (e.1 ≠ k)) = l₂ :=
    List.filter_eq_self.mpr fun e he =>
      decide_eq_true fun hk => h₂ (List.mem_map.mpr ⟨e, he, hk⟩)
  unfold size erase filter
  dsimp only
  rw [hl, List.filter_append, List.filter_cons_of_neg (by simp), keep₁, keep₂]
  simp only [List.length_append, List.length_cons]
  omega

end Table

end Soundstage
