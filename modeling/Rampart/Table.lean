/-!
# Tables

A finite map as a list of pairs, each key once.

* `Table.get?` looks a key up; `Table.insert` and `Table.erase` change what one key has and
  nothing else.
-/

namespace Rampart

/-- A finite map. -/
structure Table (κ α : Type) where
  entries : List (κ × α) := []
deriving DecidableEq, Repr, Inhabited

namespace Table

variable {κ α : Type} [DecidableEq κ]

/-- What a key has. -/
def get? (t : Table κ α) (key : κ) : Option α :=
  (t.entries.find? (·.1 = key)).map (·.2)

/-- Take a key out. -/
def erase (t : Table κ α) (key : κ) : Table κ α :=
  ⟨t.entries.filter fun entry => !decide (entry.1 = key)⟩

/-- Give a key a value. -/
def insert (t : Table κ α) (key : κ) (value : α) : Table κ α :=
  ⟨(key, value) :: (t.erase key).entries⟩

/-- The keys. -/
def keys (t : Table κ α) : List κ :=
  t.entries.map (·.1)

/-- The values. -/
def values (t : Table κ α) : List α :=
  t.entries.map (·.2)

/-! ## Looking up after a change -/

omit [DecidableEq κ] in
@[simp] theorem entries_mk (l : List (κ × α)) : (Table.mk l).entries = l := rfl

@[simp] theorem get?_empty (key : κ) : (Table.mk [] : Table κ α).get? key = none := rfl

theorem get?_erase (t : Table κ α) (key other : κ) :
    (t.erase key).get? other = if other = key then none else t.get? other := by
  obtain ⟨l⟩ := t
  simp only [get?, erase, entries_mk]
  induction l with
  | nil => simp
  | cons entry l ih =>
    by_cases h : entry.1 = key <;> by_cases h' : entry.1 = other <;> grind

theorem get?_insert (t : Table κ α) (key other : κ) (value : α) :
    (t.insert key value).get? other = if other = key then some value else t.get? other := by
  have h := get?_erase t key other
  simp only [get?, insert] at h ⊢
  grind

end Table

end Rampart
