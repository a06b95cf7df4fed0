import Mathlib.Data.List.Basic

/-! The last record under a key in a history of records. -/
namespace LastWriter
variable {κ α : Type} [DecidableEq κ] (key : α → κ)

def latest (k : κ) (records : List α) : Option α := (records.filter (key · = k)).getLast?

variable {key} {k : κ} {records later : List α} {r : α}

@[simp] theorem latest_nil : latest key k [] = none := rfl

/-- A later record wins. -/
theorem latest_append : latest key k (records ++ later) = (latest key k later).or (latest key k records) := by
  rw [latest, List.filter_append, List.getLast?_append]
  rfl

theorem latest_singleton : latest key k [r] = if key r = k then some r else none := by
  by_cases h : key r = k
  · simp [latest, h]
  · simp [latest, h]

/-- There is no latest record where none has the key. -/
theorem latest_eq_none_iff : latest key k records = none ↔ ∀ r ∈ records, key r ≠ k := by
  simp [latest]

/-- The latest record is one of them and has the key. -/
theorem mem_of_latest (h : latest key k records = some r) : r ∈ records ∧ key r = k := by
  obtain ⟨hmem, hkey⟩ := List.mem_filter.mp (List.mem_of_getLast? h)
  exact ⟨hmem, of_decide_eq_true hkey⟩

end LastWriter
