import Lox.Table
/-! Further laws of tables. -/

namespace Lox.Table

variable {Key α : Type} [DecidableEq Key]

/-- Of two writes to the same key only the later one is seen. -/
theorem set_set (table : Table Key α) (key : Key) (first second : α) :
    (table.set key first).set key second = table.set key second := by
  rcases table with ⟨entries⟩
  simp only [set, Table.mk.injEq]
  induction entries with
  | nil => simp [writeIn]
  | cons entry rest induction =>
      by_cases equal : entry.1 = key
      · simp [writeIn, equal]
      · simp [writeIn, equal, induction]

theorem contains_eq (table : Table Key α) (key : Key) :
    table.contains key = (table.find? key).isSome := rfl

@[simp] theorem contains_empty (key : Key) : (∅ : Table Key α).contains key = false := rfl

/-- Writing adds the key to the keys, and it does not matter what is written. -/
theorem contains_set (table : Table Key α) (key other : Key) (value : α) :
    (table.set key value).contains other = (decide (other = key) || table.contains other) := by
  rw [contains_eq, contains_eq, find?_set]
  by_cases equal : other = key <;> simp [equal]

/-! ## Each key once -/

theorem keys_set_nodup {table : Table Key α} (unique : table.keys.Nodup) (key : Key) (value : α) :
    (table.set key value).keys.Nodup := by
  rcases table with ⟨entries⟩
  simp only [keys, set] at unique ⊢
  induction entries with
  | nil => simp [writeIn]
  | cons entry rest induction =>
      rw [List.map_cons, List.nodup_cons] at unique
      by_cases equal : entry.1 = key
      · rw [writeIn, if_pos equal, List.map_cons, List.nodup_cons, ← equal]
        exact unique
      · rw [writeIn, if_neg equal, List.map_cons, List.nodup_cons]
        refine ⟨?_, induction unique.2⟩
        intro member
        have known := (mem_keys_set ⟨rest⟩ key entry.1 value).mp member
        exact unique.1 (known.resolve_left equal)

theorem find?_eq_none_of_not_mem {table : Table Key α} {key : Key} (absent : key ∉ table.keys) :
    table.find? key = none := by
  rw [← find?_isSome_iff_mem_keys] at absent
  simpa using absent

/-! ## Writing many entries -/

/-- A written key is found in what was written, any other key where it was before. -/
theorem find?_setAll {added : Table Key α} (unique : added.keys.Nodup) (table : Table Key α)
    (key : Key) : (table.setAll added).find? key = (added.find? key).or (table.find? key) := by
  rcases added with ⟨entries⟩
  simp only [keys, setAll] at unique ⊢
  induction entries generalizing table with
  | nil => rfl
  | cons entry rest induction =>
      rw [List.map_cons, List.nodup_cons] at unique
      rw [List.foldl_cons, induction _ unique.2, find?_set]
      by_cases equal : key = entry.1
      · have absent : (⟨rest⟩ : Table Key α).find? key = none :=
          find?_eq_none_of_not_mem (by rw [equal]; exact unique.1)
        rw [if_pos equal, absent]
        simp [find?, valueIn?, equal]
      · rw [if_neg equal]
        simp [find?, valueIn?, Ne.symm equal]

/-- A new key goes to the end. -/
theorem entries_set {table : Table Key α} {key : Key} (absent : table.find? key = none) (value : α) :
    (table.set key value).entries = table.entries ++ [(key, value)] := by
  rcases table with ⟨entries⟩
  simp only [find?, set] at absent ⊢
  induction entries with
  | nil => rfl
  | cons entry rest induction =>
      by_cases equal : entry.1 = key
      · simp [valueIn?, equal] at absent
      · rw [valueIn?, if_neg equal] at absent
        rw [writeIn, if_neg equal, induction absent, List.cons_append]

/-- Nothing is replaced where all keys are new. -/
theorem entries_setAll {table added : Table Key α} (unique : added.keys.Nodup)
    (fresh : ∀ key ∈ added.keys, table.find? key = none) :
    (table.setAll added).entries = table.entries ++ added.entries := by
  rcases added with ⟨entries⟩
  simp only [keys, setAll] at unique fresh ⊢
  induction entries generalizing table with
  | nil => exact (List.append_nil _).symm
  | cons entry rest induction =>
      rw [List.map_cons, List.nodup_cons] at unique
      rw [List.map_cons, List.forall_mem_cons] at fresh
      rw [List.foldl_cons, induction unique.2, entries_set fresh.1, List.append_assoc,
        List.singleton_append]
      intro key member
      have different : key ≠ entry.1 := fun equal => unique.1 (equal ▸ member)
      rw [find?_set_other _ different]
      exact fresh.2 key member

/-- Of several entries for a key the last one counts. -/
theorem find?_setAll_last (table added : Table Key α) (key : Key) :
    (table.setAll added).find? key =
      ((added.entries.reverse.find? (·.1 = key)).map Prod.snd).or (table.find? key) := by
  rcases added with ⟨entries⟩
  rw [setAll]
  induction entries generalizing table with
  | nil => rfl
  | cons entry rest induction =>
      rw [List.foldl_cons, induction, find?_set, List.reverse_cons, List.find?_append]
      cases rest.reverse.find? (·.1 = key) with
      | some found => rfl
      | none =>
          by_cases same : entry.1 = key
          · simp [same]
          · simp [same, Ne.symm same]

theorem find?_ofList (entries : List (Key × α)) (key : Key) :
    (ofList entries).find? key = (entries.reverse.find? (·.1 = key)).map Prod.snd := by
  rw [ofList, find?_setAll_last, find?_empty, Option.or_none]

theorem keys_setAll_nodup {table : Table Key α} (unique : table.keys.Nodup)
    (added : Table Key α) : (table.setAll added).keys.Nodup := by
  rcases added with ⟨entries⟩
  rw [setAll]
  induction entries generalizing table with
  | nil => exact unique
  | cons entry rest induction => exact induction (keys_set_nodup unique entry.1 entry.2)

end Lox.Table
