import Mathlib.Data.List.AList

/-! Rust's `HashMap` over Mathlib's association lists with distinct keys. Iteration
order is unspecified, so a result about iteration holds for each permutation. -/
namespace RustStd

abbrev HashMap (κ ν : Type) := AList fun _ : κ => ν

namespace HashMap
variable {κ ν : Type} [DecidableEq κ]

/-- `HashMap::retain`. -/
def retain (keep : κ → ν → Bool) (m : HashMap κ ν) : HashMap κ ν :=
  ⟨m.entries.filter fun e => keep e.1 e.2, m.nodupKeys.sublist List.filter_sublist⟩

/-- `HashMap::values`, in the representation's order. -/
def values (m : HashMap κ ν) : List ν := m.entries.map Sigma.snd

/-- An order in which maps are iterated. -/
structure Iteration (α : Type) where
  order : List α → List α
  perm : ∀ l, (order l).Perm l

def Iteration.identity (α : Type) : Iteration α := ⟨id, List.Perm.refl⟩

/-- The order that starts with a value where it occurs. -/
def Iteration.first {α : Type} [DecidableEq α] (a : α) : Iteration α where
  order l := if a ∈ l then a :: l.erase a else l
  perm l := by
    split
    · rename_i h
      exact (List.perm_cons_erase h).symm
    · exact List.Perm.refl l

def iterate (order : Iteration ν) (m : HashMap κ ν) : List ν := order.order (values m)

/-- Inserting pairs in turn, so that the last pair of a key stays. -/
def collect (pairs : List (κ × ν)) : HashMap κ ν :=
  pairs.foldl (fun m kv => m.insert kv.1 kv.2) ∅

/-- A value is looked up exactly when its entry is there. -/
theorem lookup_eq_some_iff {m : HashMap κ ν} {k : κ} {v : ν} :
    m.lookup k = some v ↔ ⟨k, v⟩ ∈ m.entries := AList.mem_lookup_iff

/-- `retain` keeps an entry or removes it. -/
theorem lookup_retain (keep : κ → ν → Bool) (m : HashMap κ ν) (k : κ) :
    (retain keep m).lookup k = (m.lookup k).filter (keep k) := by
  ext v
  rw [lookup_eq_some_iff, Option.filter_eq_some_iff, lookup_eq_some_iff]
  simp [retain]

/-- The values are what some key is mapped to. -/
theorem mem_values {m : HashMap κ ν} {v : ν} : v ∈ values m ↔ ∃ k, m.lookup k = some v := by
  simp [values, lookup_eq_some_iff]

/-- In any order of iteration the values are the same. -/
theorem mem_iterate {order : Iteration ν} {m : HashMap κ ν} {v : ν} :
    v ∈ iterate order m ↔ ∃ k, m.lookup k = some v := (order.perm _).mem_iff.trans mem_values

/-- Values that carry their keys have distinct ones. -/
theorem nodup_iterate {order : Iteration ν} {m : HashMap κ ν} {key : ν → κ}
    (h : ∀ k v, m.lookup k = some v → key v = k) : ((iterate order m).map key).Nodup := by
  refine ((order.perm (values m)).map key).nodup_iff.mpr ?_
  have hkeys : (values m).map key = m.keys := by
    rw [values, List.map_map]
    exact List.map_congr_left fun entry hentry => h _ _ (lookup_eq_some_iff.mpr hentry)
  rw [hkeys]
  exact AList.keys_nodup _

omit [DecidableEq κ] in
/-- Any value can come first. -/
theorem iterate_first {m : HashMap κ ν} [DecidableEq ν] {v : ν} (h : v ∈ values m) :
    ∃ rest, iterate (.first v) m = v :: rest := ⟨_, if_pos h⟩

/-- An insertion changes one key. -/
theorem lookup_insert (m : HashMap κ ν) (k k' : κ) (v : ν) :
    (m.insert k v).lookup k' = if k' = k then some v else m.lookup k' := by
  split
  · rename_i h
    rw [h, AList.lookup_insert]
  · rename_i h
    exact AList.lookup_insert_ne h

/-- The last pair of a key decides what is found under it. -/
theorem lookup_foldl_insert (pairs : List (κ × ν)) (m : HashMap κ ν) (k : κ) :
    (pairs.foldl (fun m kv => m.insert kv.1 kv.2) m).lookup k =
      (((pairs.filter (·.1 = k)).getLast?.map Prod.snd).or (m.lookup k)) := by
  induction pairs generalizing m with
  | nil => simp
  | cons kv pairs ih =>
    rw [List.foldl_cons, ih, lookup_insert]
    by_cases hk : kv.1 = k
    · rw [List.filter_cons_of_pos (by simpa using hk), List.getLast?_cons, if_pos hk.symm]
      cases (pairs.filter (·.1 = k)).getLast? <;> rfl
    · rw [List.filter_cons_of_neg (by simpa using hk), if_neg (Ne.symm hk)]

/-- Of several pairs with one key the last stays. -/
theorem lookup_collect (pairs : List (κ × ν)) (k : κ) :
    (collect pairs).lookup k = (pairs.filter (·.1 = k)).getLast?.map Prod.snd := by
  rw [collect, lookup_foldl_insert, AList.lookup_empty, Option.or_none]

/-- What is collected was there. -/
theorem mem_of_lookup_collect {pairs : List (κ × ν)} {k : κ} {v : ν}
    (h : (collect pairs).lookup k = some v) : (k, v) ∈ pairs := by
  rw [lookup_collect] at h
  obtain ⟨⟨k', v'⟩, hl, rfl⟩ := Option.map_eq_some_iff.mp h
  obtain ⟨hm, hk⟩ := List.mem_filter.mp (List.mem_of_getLast? hl)
  simpa [← of_decide_eq_true hk] using hm

/-- Insertions leave a key that none of them has. -/
theorem lookup_foldl_insert_of_not_mem {pairs : List (κ × ν)} {m : HashMap κ ν} {k : κ}
    (h : ∀ v, (k, v) ∉ pairs) :
    (pairs.foldl (fun m kv => m.insert kv.1 kv.2) m).lookup k = m.lookup k := by
  have hnone : pairs.filter (·.1 = k) = [] := by
    refine List.filter_eq_nil_iff.mpr fun kv hkv hk => h kv.2 ?_
    rwa [← of_decide_eq_true hk]
  rw [lookup_foldl_insert, hnone]
  rfl

/-- Insertions of different keys are all there afterwards. -/
theorem lookup_foldl_insert_of_mem {pairs : List (κ × ν)} {m : HashMap κ ν} {k : κ} {v : ν}
    (hn : (pairs.map Prod.fst).Nodup) (h : (k, v) ∈ pairs) :
    (pairs.foldl (fun m kv => m.insert kv.1 kv.2) m).lookup k = some v := by
  have hne : pairs.filter (·.1 = k) ≠ [] := List.ne_nil_of_mem (List.mem_filter.mpr ⟨h, by simp⟩)
  have hlast := List.getLast?_eq_getLast_of_ne_nil hne
  obtain ⟨hmem, hk⟩ := List.mem_filter.mp (List.getLast_mem hne)
  have hsame := List.inj_on_of_nodup_map hn hmem h (of_decide_eq_true hk)
  rw [lookup_foldl_insert, hlast, hsame]
  rfl

/-- Pairs with distinct keys are all found. -/
theorem lookup_collect_of_mem {pairs : List (κ × ν)} {k : κ} {v : ν}
    (hn : (pairs.map Prod.fst).Nodup) (h : (k, v) ∈ pairs) :
    (collect pairs).lookup k = some v := lookup_foldl_insert_of_mem hn h

end HashMap
end RustStd
