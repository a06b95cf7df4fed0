import SshKeySync.AuthorizedKeys.UpdateRuns
import SshKeySync.AuthorizedKeys.UserLines

/-! Texts that every update leaves tidy, with the user's lines as they are. -/
namespace SshKeySync.AuthorizedKeys
open RustStd Keys MarkedBlock

/-- The marks are in order, and the lines keep their form. -/
structure Tidy (ls : List Str) : Prop where
  wellOrdered : WellOrdered ls
  keepsForm : KeepsForm ls

private theorem inOrder_of_wellOrdered {ls : List Str} (h : WellOrdered ls) : InOrder isBegin isEnd nonBlank ls := by
  rw [InOrder]
  rcases h with hunmarked | ⟨first, last, hfirst, hlast, hlt⟩
  · rw [List.findIdx?_eq_none_iff.mpr fun z hz => (hunmarked z hz).1]
    trivial
  · rw [hfirst, hlast]
    exact Or.inl hlt

private theorem of_mem_dropLast_reread {ls : List Str} {line : Str} (h : line ∈ (reread ls).dropLast) :
    ∃ l ∈ ls.dropLast, line = stripCr l := by
  have hlast : ls.getLast?.toList.filter (· ≠ []) = [] ∨ ∃ l, ls.getLast?.toList.filter (· ≠ []) = [l] := by
    cases ls.getLast? with
    | none => exact Or.inl rfl
    | some l =>
      by_cases hl : l = []
      · exact Or.inl (by simp [hl])
      · exact Or.inr ⟨l, by simp [hl]⟩
  have hmem : line ∈ ls.dropLast.map stripCr := by
    rw [reread] at h
    rcases hlast with hnone | ⟨l, hsome⟩
    · rw [hnone, List.append_nil] at h
      exact List.dropLast_subset _ h
    · rwa [hsome, List.dropLast_concat] at h
  obtain ⟨l, hl, rfl⟩ := List.mem_map.mp hmem
  exact ⟨l, hl, rfl⟩

private theorem keepsForm_upsert {content out : Str} {managedKeys : List Str} (h : Tidy (lines content))
    (hout : upsertManagedBlock content managedKeys = .ok out) : KeepsForm (lines out) := by
  obtain ⟨-, -, haround⟩ := upsert_written h.wellOrdered hout
  have hstripped {l : Str} (hl : l ∈ followed (lines content)) (hblank : nonBlank (stripCr l) = true) :
      (stripCr l).getLast? ≠ some '\r' := by
    rw [nonBlank_stripCr] at hblank
    have hform := h.keepsForm l hl hblank
    rwa [stripCr_eq_self_iff.mpr hform]
  intro line hline hblank
  rcases List.mem_append.mp hline with hbefore | hafter
  · have hwritten : line ∈ (surroundings (lines out)).1 := List.mem_append_left _ hbefore
    rw [haround] at hwritten
    obtain ⟨l, hl, rfl⟩ := List.mem_map.mp hwritten
    rcases List.mem_append.mp hl with hkept | hgap
    · exact hstripped (List.mem_append_left _ hkept) hblank
    · rw [gapBefore_blank _ l hgap] at hblank
      exact absurd hblank (by decide)
  · have hkept : (kept isBegin isEnd (lines out)).2 = reread (kept isBegin isEnd (lines content)).2 :=
      congrArg Prod.snd haround
    rw [hkept] at hafter
    obtain ⟨l, hl, rfl⟩ := of_mem_dropLast_reread hafter
    exact hstripped (List.mem_append_right _ hl) hblank

/-- An update of a tidy text leaves a tidy text with the same user lines, and its keys in the block. -/
theorem tidy_upsert {content out : Str} {managedKeys : List Str} (h : Tidy (lines content))
    (hout : upsertManagedBlock content managedKeys = .ok out) :
    Tidy (lines out) ∧ userLines (lines out) = userLines (lines content) ∧
      blockLines (lines out) = normalizedKeys managedKeys := by
  obtain ⟨hordered, hblock, -⟩ := upsert_written h.wellOrdered hout
  refine ⟨⟨hordered, keepsForm_upsert h hout⟩, ?_, hblock⟩
  have hkept := (filter_kept_eq_iff (arrangement_of_hasEnd h.wellOrdered.hasEnd) nonBlank_of_isBegin).mpr
    (inOrder_of_wellOrdered h.wellOrdered)
  rw [userLines_upsert hout, (keepsForm_iff _).mp h.keepsForm, ← filter_kept, hkept, userLines]

end SshKeySync.AuthorizedKeys
