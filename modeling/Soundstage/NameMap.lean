import Soundstage.Text.Order

/-!
# Maps from names

A finite map from names that lists them in ascending order of their code points, which is the byte
order of their UTF-8 text. The order is part of the type, so two maps with the same values under
the same names are equal.
-/

namespace Soundstage

structure NameMap (α : Type) where
  entries : List (String × α)
  ascending : (entries.map Prod.fst).Pairwise Text.Before

namespace NameMap

variable {α : Type}

def empty : NameMap α := ⟨[], List.Pairwise.nil⟩

instance : Inhabited (NameMap α) := ⟨empty⟩

def names (m : NameMap α) : List String := m.entries.map Prod.fst

theorem names_nodup (m : NameMap α) : m.names.Nodup := by
  refine m.ascending.imp ?_
  rintro a _ h rfl
  exact Text.not_before_self a h

def size (m : NameMap α) : Nat := m.entries.length

/-- The first value listed under `name`. -/
def find (name : String) : List (String × α) → Option α
  | [] => none
  | (n, v) :: rest => if name = n then some v else find name rest

def get? (m : NameMap α) (name : String) : Option α := find name m.entries

def contains (m : NameMap α) (name : String) : Bool := (m.get? name).isSome

/-- Put `v` under `name` in an ascending list. -/
def place (name : String) (v : α) : List (String × α) → List (String × α)
  | [] => [(name, v)]
  | (n, w) :: rest =>
    if Text.Before name n then (name, v) :: (n, w) :: rest
    else if name = n then (name, v) :: rest
    else (n, w) :: place name v rest

theorem mem_names_place {name : String} {v : α} {l : List (String × α)} {n : String}
    (h : n ∈ (place name v l).map Prod.fst) : n = name ∨ n ∈ l.map Prod.fst := by
  induction l with
  | nil => simpa [place] using h
  | cons e rest ih =>
    obtain ⟨k, w⟩ := e
    unfold place at h
    split at h
    · simpa using h
    split at h
    · subst_vars
      simpa using h
    · simp only [List.map_cons, List.mem_cons] at h ⊢
      rcases h with h | h
      · exact .inr (.inl h)
      · rcases ih h with h | h
        · exact .inl h
        · exact .inr (.inr h)

theorem ascending_place (name : String) (v : α) {l : List (String × α)}
    (h : (l.map Prod.fst).Pairwise Text.Before) :
    ((place name v l).map Prod.fst).Pairwise Text.Before := by
  induction l with
  | nil => simp [place]
  | cons e rest ih =>
    obtain ⟨k, w⟩ := e
    have hk := List.pairwise_cons.mp h
    unfold place
    split
    · rename_i hlt
      refine List.pairwise_cons.mpr ⟨?_, h⟩
      intro n hn
      rcases List.mem_cons.mp hn with rfl | hn
      · exact hlt
      · exact hlt.trans (hk.1 n hn)
    split
    · subst_vars
      exact h
    · rename_i hlt hne
      refine List.pairwise_cons.mpr ⟨?_, ih hk.2⟩
      intro n hn
      rcases mem_names_place hn with rfl | hn
      · exact Text.before_of_not_before_of_ne hlt hne
      · exact hk.1 n hn

def insert (m : NameMap α) (name : String) (v : α) : NameMap α :=
  ⟨place name v m.entries, ascending_place name v m.ascending⟩

/-- Put `v` under `name` unless something is there. -/
def insertIfNew (m : NameMap α) (name : String) (v : α) : NameMap α :=
  if m.contains name then m else m.insert name v

/-- Change every value. -/
def map {β : Type} (f : α → β) (m : NameMap α) : NameMap β :=
  ⟨m.entries.map fun e => (e.1, f e.2), by
    rw [List.map_map]; exact m.ascending⟩

/-- The map with the entries of a list, later ones winning. -/
def ofList (l : List (String × α)) : NameMap α := l.foldl (fun m e => m.insert e.1 e.2) empty

/-! ### Reading after writing -/

@[simp]
theorem get?_empty (name : String) : (empty : NameMap α).get? name = none := rfl

theorem find_place_self (name : String) (v : α) (l : List (String × α)) :
    find name (place name v l) = some v := by
  induction l with
  | nil => simp [place, find]
  | cons e rest ih =>
    obtain ⟨n, w⟩ := e
    unfold place
    split
    · simp [find]
    split
    · simp [find]
    · rename_i hne
      simp [find, hne, ih]

theorem find_place_of_ne {name other : String} (v : α) (l : List (String × α))
    (h : other ≠ name) : find other (place name v l) = find other l := by
  induction l with
  | nil => simp [place, find, h]
  | cons e rest ih =>
    obtain ⟨n, w⟩ := e
    unfold place
    split
    · simp [find, h]
    split
    · subst_vars
      simp [find, h]
    · simp [find, ih]

@[simp]
theorem get?_insert_self (m : NameMap α) (name : String) (v : α) :
    (m.insert name v).get? name = some v :=
  find_place_self name v m.entries

theorem get?_insert_of_ne (m : NameMap α) {name other : String} (v : α) (h : other ≠ name) :
    (m.insert name v).get? other = m.get? other :=
  find_place_of_ne v m.entries h

theorem find_map {β : Type} (f : α → β) (name : String) (l : List (String × α)) :
    find name (l.map fun e => (e.1, f e.2)) = (find name l).map f := by
  induction l with
  | nil => rfl
  | cons e rest ih =>
    obtain ⟨n, v⟩ := e
    by_cases h : name = n <;> simp [find, h, ih]

@[simp]
theorem get?_map {β : Type} (f : α → β) (m : NameMap α) (name : String) :
    (m.map f).get? name = (m.get? name).map f :=
  find_map f name m.entries

end NameMap

end Soundstage
