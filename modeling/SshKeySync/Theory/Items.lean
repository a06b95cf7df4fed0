import Mathlib.Data.List.Basic
import SshKeySync.Std.Lines

/-! Texts that list items between separators. Spacing around an item and empty items do not
count, and of equal items the first one stands for all. -/
namespace Items
open RustStd

section
variable {α : Type} [BEq α]

/-- What a list holds, each element once and in the order of the first occurrences. -/
structure FirstOccurrences (l firsts : List α) : Prop where
  mem : ∀ a, a ∈ firsts ↔ a ∈ l
  order : firsts.Pairwise fun a b => l.idxOf a < l.idxOf b

/-- First occurrences are different. -/
theorem FirstOccurrences.nodup {l firsts : List α} (h : FirstOccurrences l firsts) : firsts.Nodup := by
  refine List.Pairwise.imp (fun {a b} hlt => ?_) h.order
  rintro rfl
  exact Nat.lt_irrefl _ hlt

variable [LawfulBEq α]

/-- A further element is added if it is new. -/
theorem eraseDups_concat (l : List α) (a : α) :
    (l ++ [a]).eraseDups = if a ∈ l then l.eraseDups else l.eraseDups ++ [a] := by
  rw [List.eraseDups_append]
  by_cases ha : a ∈ l
  · simp [List.removeAll, ha]
  · simp [List.removeAll, ha, List.eraseDups_cons]

/-- Erasing duplicates leaves the first occurrences. -/
theorem firstOccurrences_eraseDups (l : List α) : FirstOccurrences l l.eraseDups := by
  refine ⟨fun a => List.mem_eraseDups, ?_⟩
  induction l using List.reverseRecOn with
  | nil => exact .nil
  | append_singleton l a ih =>
    have hkept : l.eraseDups.Pairwise fun b c => (l ++ [a]).idxOf b < (l ++ [a]).idxOf c := by
      refine ih.imp_of_mem fun hb hc hlt => ?_
      rwa [List.idxOf_append_of_mem (List.mem_eraseDups.mp hb), List.idxOf_append_of_mem (List.mem_eraseDups.mp hc)]
    rw [eraseDups_concat]
    split
    · exact hkept
    · rename_i hnew
      refine List.pairwise_append.mpr ⟨hkept, List.pairwise_singleton .., fun b hb c hc => ?_⟩
      obtain rfl := List.mem_singleton.mp hc
      have hmem := List.mem_eraseDups.mp hb
      rw [List.idxOf_append_of_mem hmem, List.idxOf_append_of_notMem hnew]
      exact Nat.lt_of_lt_of_le (List.idxOf_lt_length_of_mem hmem) (Nat.le_add_right ..)

/-- Without duplicates there is nothing to erase. -/
theorem eraseDups_eq_self {l : List α} (h : l.Nodup) : l.eraseDups = l := by
  induction l using List.reverseRecOn with
  | nil => rfl
  | append_singleton l a ih =>
    obtain ⟨hl, -, hnew⟩ := List.nodup_append.mp h
    rw [eraseDups_concat, if_neg fun ha => hnew a ha a List.mem_cons_self rfl, ih hl]

end

section
variable {sep : Char}

/-- A text that is an item by itself. -/
structure Item (sep : Char) (s : Str) : Prop where
  ne_nil : s ≠ []
  unpadded : Unpadded s
  separator_free : sep ∉ s

def items (sep : Char) (s : Str) : List Str := ((s.splitOn sep).map trim).filter (· ≠ [])

def join (sep : Char) (parts : List Str) : Str := [sep].intercalate parts

/-- What is split off is an item. -/
theorem item_of_mem_items {s part : Str} (h : part ∈ items sep s) : Item sep part := by
  obtain ⟨hmem, hne⟩ := List.mem_filter.mp h
  obtain ⟨piece, hpiece, rfl⟩ := List.mem_map.mp hmem
  have hsep : sep ∉ trim piece := fun hmem => not_mem_splitOn sep s piece hpiece (mem_of_mem_trim hmem)
  exact ⟨by simpa using hne, trim_unpadded piece, hsep⟩

/-- Items that are joined are read back. -/
theorem items_join {parts : List Str} (h : ∀ part ∈ parts, Item sep part) : items sep (join sep parts) = parts := by
  by_cases hnil : parts = []
  · subst hnil
    rfl
  · rw [items, join, List.splitOn_intercalate sep (fun part hpart => (h part hpart).separator_free) hnil]
    have htrim : parts.map trim = parts :=
      (List.map_congr_left fun part hpart => trim_eq_self (h part hpart).unpadded).trans (List.map_id parts)
    rw [htrim, List.filter_eq_self]
    exact fun part hpart => by simpa using (h part hpart).ne_nil

end
end Items
