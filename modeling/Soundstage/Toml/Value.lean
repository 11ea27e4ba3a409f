import Soundstage.NameMap

/-!
# Values of a TOML document

What a document denotes: a tree of tables. Every table remembers how it came to be, because that
decides which later lines may still add to it; `Members.within` goes down to a table and is the one
way to change it.
-/

namespace Soundstage.Toml

/-- How a table came to be. -/
inductive Origin
  /-- By a header of its own. The root is such a table. -/
  | header
  /-- As a step of a longer header. -/
  | implied
  /-- As a step of a dotted key. -/
  | dotted
  /-- Between braces. -/
  | inline
  deriving DecidableEq, Repr

/-- Whether a key may pass through such a table. A header may pass through every table but those
between braces, a dotted key only through those that no header has opened. -/
def Origin.admits (dotted : Bool) : Origin → Bool
  | .header => !dotted
  | .implied => true
  | .dotted => true
  | .inline => false

inductive Value
  | text (text : String)
  | integer (value : Int)
  | float (value : Float)
  | boolean (value : Bool)
  /-- A date, a time or both. Which one it is does not matter here. -/
  | moment
  | array (items : List Value)
  | table (origin : Origin) (members : List (String × Value))
  /-- An array of tables: the members of its last table, and the tables before it. -/
  | tables (last : List (String × Value)) (earlier : List Value)

abbrev Members := List (String × Value)

namespace Members

def get? (ms : Members) (key : String) : Option Value := NameMap.find key ms

/-- Replace what is under a key, or add it at the end. -/
def set (ms : Members) (key : String) (value : Value) : Members :=
  match ms with
  | [] => [(key, value)]
  | (k, v) :: rest => if key = k then (key, value) :: rest else (k, v) :: set rest key value

theorem get?_set_self (ms : Members) (key : String) (value : Value) :
    get? (set ms key value) key = some value := by
  induction ms with
  | nil => simp [set, get?, NameMap.find]
  | cons entry rest ih =>
    unfold set
    split
    · simp [get?, NameMap.find]
    · simpa [get?, NameMap.find, *] using ih

theorem get?_set_of_ne (ms : Members) {key other : String} (value : Value) (h : other ≠ key) :
    get? (set ms key value) other = get? ms other := by
  induction ms with
  | nil => simp [set, get?, NameMap.find, h]
  | cons entry rest ih =>
    unfold set
    split
    · subst_vars
      simp [get?, NameMap.find, h]
    · simp only [get?, NameMap.find] at ih ⊢
      rw [ih]

/-- Change the table that `path` leads to, starting in a table of the given origin. Tables that are
missing on the way are made; of an array of tables the last table is meant. -/
def within (dotted : Bool) (change : Origin → Members → Option Members) :
    List String → Origin → Members → Option Members
  | [], origin, ms => change origin ms
  | key :: path, _, ms =>
    match get? ms key with
    | none =>
      let origin := if dotted then .dotted else .implied
      (within dotted change path origin []).map fun inner => set ms key (.table origin inner)
    | some (.table origin inner) =>
      if origin.admits dotted then
        (within dotted change path origin inner).map fun inner => set ms key (.table origin inner)
      else none
    | some (.tables last earlier) =>
      (within dotted change path .header last).map fun last => set ms key (.tables last earlier)
    | some _ => none

/-- Add a member. Under a dotted key the table it goes to must be one that dotted keys made, under a
plain key it must not. -/
def add (path : List String) (key : String) (value : Value) (origin : Origin) (ms : Members) :
    Option Members :=
  let put (origin : Origin) (ms : Members) : Option Members :=
    if (origin = .dotted) ↔ path = [] then none
    else if (get? ms key).isSome then none
    else some (set ms key value)
  within true put path origin ms

/-- Open a table by its header. It must be new, or made by a longer header only. -/
def openTable (key : String) (ms : Members) : Option Members :=
  match get? ms key with
  | none => some (set ms key (.table .header []))
  | some (.table .implied inner) => some (set ms key (.table .header inner))
  | some _ => none

/-- Open the next table of an array of tables. -/
def openElement (key : String) (ms : Members) : Option Members :=
  match get? ms key with
  | none => some (set ms key (.tables [] []))
  | some (.tables last earlier) => some (set ms key (.tables [] (earlier ++ [.table .header last])))
  | some _ => none

/-- The table with the given members between braces. -/
def ofInline (entries : List (List String × String × Value)) : Option Members :=
  entries.foldlM (fun ms (path, key, value) => add path key value .inline ms) []

end Members

end Soundstage.Toml
