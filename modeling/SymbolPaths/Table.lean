/-!
# Tables

A finite map from names to values, as a list of entries. An entry that is put
replaces the one of its name, so a name has at most one.

* `get?_put`, `get?_erase`: what a name leads to after a change;
* `mem_names`: which names have a value.
-/

namespace SymbolPaths

/-- A finite map from names to values of `α`. -/
structure Table (α : Type) where
  entries : List (String × α)
  deriving DecidableEq, Repr, Inhabited

namespace Table

variable {α : Type}

/-- The table without entries. -/
def empty : Table α := ⟨[]⟩

/-- The value of a name. -/
def get? (t : Table α) (name : String) : Option α := t.entries.lookup name

/-- Whether a name has a value. -/
def contains (t : Table α) (name : String) : Bool := (t.get? name).isSome

/-- The table without the entry of a name. -/
def erase (t : Table α) (name : String) : Table α := ⟨t.entries.filter (·.1 ≠ name)⟩

/-- The table in which a name has a value. -/
def put (t : Table α) (name : String) (value : α) : Table α :=
  ⟨(name, value) :: (t.erase name).entries⟩

/-- The names with a value, in order. -/
def names (t : Table α) : List String := (t.entries.map (·.1)).mergeSort (· ≤ ·)

@[simp] theorem get?_empty (name : String) : (empty : Table α).get? name = none := rfl

theorem get?_erase (t : Table α) (name other : String) :
    (t.erase name).get? other = if other = name then none else t.get? other := by
  obtain ⟨entries⟩ := t
  simp only [erase, get?]
  induction entries with
  | nil => simp
  | cons e es ih =>
    obtain ⟨k, v⟩ := e
    by_cases hk : k = name <;> by_cases ho : other = k <;> grind [List.filter]

theorem get?_put (t : Table α) (name other : String) (value : α) :
    (t.put name value).get? other = if other = name then some value else t.get? other := by
  have h := get?_erase t name other
  simp only [get?] at h
  simp only [put, get?, List.lookup_cons]
  by_cases ho : other = name
  · simp [ho]
  · rw [if_neg ho] at h ⊢
    simp only [beq_eq_false_iff_ne.2 ho, h]

theorem mem_names (t : Table α) (name : String) : name ∈ t.names ↔ t.contains name := by
  rw [names, List.mem_mergeSort, List.mem_map, contains, get?, List.lookup_isSome_iff]
  exact exists_congr fun entry => and_congr_right fun _ => by rw [beq_iff_eq, eq_comm]

end Table

end SymbolPaths
