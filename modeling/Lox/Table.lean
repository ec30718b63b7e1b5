/-! Finite tables with one value per key. Writing a key that is already present
replaces its value and keeps its place; a new key goes to the end. So a table
lists its keys in the order of their first write, each of them once. -/

namespace Lox

/-- A table is the list of its entries. -/
structure Table (Key : Type) (α : Type) where
  entries : List (Key × α)
  deriving Repr, DecidableEq

namespace Table

variable {Key α : Type}

def empty : Table Key α := ⟨[]⟩

instance : EmptyCollection (Table Key α) := ⟨empty⟩

instance : Inhabited (Table Key α) := ⟨empty⟩

def keys (table : Table Key α) : List Key :=
  table.entries.map Prod.fst

variable [DecidableEq Key]

/-! Reading and writing walk the entries from the oldest key. -/

def valueIn? (key : Key) : List (Key × α) → Option α
  | [] => none
  | (other, value) :: rest => if other = key then some value else valueIn? key rest

def writeIn (key : Key) (value : α) : List (Key × α) → List (Key × α)
  | [] => [(key, value)]
  | (other, previous) :: rest =>
      if other = key then (key, value) :: rest
      else (other, previous) :: writeIn key value rest

def find? (table : Table Key α) (key : Key) : Option α :=
  valueIn? key table.entries

def set (table : Table Key α) (key : Key) (value : α) : Table Key α :=
  ⟨writeIn key value table.entries⟩

def contains (table : Table Key α) (key : Key) : Bool :=
  (table.find? key).isSome

/-- Write the entries of `added` one after another. -/
def setAll (table added : Table Key α) : Table Key α :=
  added.entries.foldl (fun current entry => current.set entry.1 entry.2) table

def ofList (entries : List (Key × α)) : Table Key α :=
  setAll empty ⟨entries⟩

/-- The later write wins, and the key keeps its place. -/
example : ((Table.empty.set "a" 1).set "b" 2).set "a" 3 = ⟨[("a", 3), ("b", 2)]⟩ := rfl

@[simp] theorem find?_empty (key : Key) : (empty : Table Key α).find? key = none := rfl

@[simp] theorem find?_set_same (table : Table Key α) (key : Key) (value : α) :
    (table.set key value).find? key = some value := by
  rcases table with ⟨entries⟩
  simp only [set, find?]
  induction entries with
  | nil => simp [writeIn, valueIn?]
  | cons entry rest induction =>
      by_cases equal : entry.1 = key
      · simp [writeIn, equal, valueIn?]
      · simp [writeIn, equal, valueIn?, induction]

theorem find?_set_other (table : Table Key α) {key other : Key} (different : other ≠ key)
    (value : α) : (table.set key value).find? other = table.find? other := by
  rcases table with ⟨entries⟩
  simp only [set, find?]
  induction entries with
  | nil => simp [writeIn, valueIn?, Ne.symm different]
  | cons entry rest induction =>
      by_cases equal : entry.1 = key
      · simp [writeIn, equal, valueIn?, Ne.symm different]
      · simp [writeIn, equal, valueIn?, induction]

theorem find?_set (table : Table Key α) (key other : Key) (value : α) :
    (table.set key value).find? other =
      if other = key then some value else table.find? other := by
  by_cases equal : other = key
  · subst equal
    simp
  · simp [equal, find?_set_other table equal]

theorem find?_isSome_iff_mem_keys (table : Table Key α) (key : Key) :
    (table.find? key).isSome ↔ key ∈ table.keys := by
  rcases table with ⟨entries⟩
  simp only [find?, keys]
  induction entries with
  | nil => simp [valueIn?]
  | cons entry rest induction =>
      by_cases equal : entry.1 = key
      · simp [valueIn?, equal]
      · have different : key ≠ entry.1 := Ne.symm equal
        simpa [valueIn?, equal, different] using induction

theorem mem_keys_set (table : Table Key α) (key other : Key) (value : α) :
    other ∈ (table.set key value).keys ↔ other = key ∨ other ∈ table.keys := by
  rw [← find?_isSome_iff_mem_keys, ← find?_isSome_iff_mem_keys, find?_set]
  by_cases equal : other = key <;> simp [equal]

end Table

end Lox
