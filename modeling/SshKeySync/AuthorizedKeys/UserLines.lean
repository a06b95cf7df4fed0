import SshKeySync.AuthorizedKeys.ManagedBlock

/-! User lines across an update: exactly when the non-blank lines outside the block are
those that were there. The marks must be in order, and no line may end in a carriage
return that the text written puts before a newline. -/
namespace SshKeySync.AuthorizedKeys
open RustStd Keys MarkedBlock

def nonBlank (line : Str) : Bool := trim line ≠ []

/-- The non-blank lines outside the block from the first begin to the first end after it. -/
def userLines (ls : List Str) : List Str := (outside isBegin isEnd ls).filter nonBlank

/-- The kept lines that a newline follows in the text written. -/
def followed (ls : List Str) : List Str :=
  (kept isBegin isEnd ls).1 ++ (kept isBegin isEnd ls).2.dropLast

/-- A carriage return here is taken for part of the line ending. -/
def KeepsForm (ls : List Str) : Prop :=
  ∀ line ∈ followed ls, nonBlank line → line.getLast? ≠ some '\r'

theorem nonBlank_stripCr (l : Str) : nonBlank (stripCr l) = nonBlank l := by
  rw [nonBlank, trim_stripCr, nonBlank]

/-- A marker is not blank. -/
theorem nonBlank_of_isBegin (l : Str) (h : isBegin l) : nonBlank l := by
  have hb : trim l = managedBegin := by simpa [isBegin] using h
  rw [nonBlank, hb]
  decide

private theorem filter_map_stripCr (ls : List Str) :
    (ls.map stripCr).filter nonBlank = (ls.filter nonBlank).map stripCr := by
  have hcomp : nonBlank ∘ stripCr = nonBlank := funext nonBlank_stripCr
  rw [List.filter_map, hcomp]

private theorem filter_reread (ls : List Str) : (reread ls).filter nonBlank =
    (ls.dropLast.filter nonBlank).map stripCr ++ ls.getLast?.toList.filter nonBlank := by
  have hlast : ∀ l : Str, nonBlank l → l ≠ [] := by
    rintro l h rfl
    exact absurd h (by decide)
  rw [reread, List.filter_append, filter_map_stripCr, List.filter_filter]
  congr 1
  apply List.filter_congr
  intro l _
  cases hb : nonBlank l with
  | true => simp [hlast l hb]
  | false => rfl

/-- The form is kept exactly when no line that is not blank has a return to lose. -/
theorem keepsForm_iff (ls : List Str) : KeepsForm ls ↔
    ((followed ls).filter nonBlank).map stripCr = (followed ls).filter nonBlank := by
  have hid := List.map_inj_left (l := (followed ls).filter nonBlank) (f := stripCr) (g := id)
  rw [List.map_id] at hid
  rw [hid, KeepsForm]
  constructor
  · intro h l hl
    obtain ⟨hmem, hb⟩ := List.mem_filter.mp hl
    exact stripCr_eq_self_iff.mpr (h l hmem hb)
  · intro h l hl hb
    exact stripCr_eq_self_iff.mp (h l (List.mem_filter.mpr ⟨hl, hb⟩))

/-- The lines that are kept are those followed by a newline and perhaps the last. -/
theorem filter_kept (ls : List Str) :
    ((kept isBegin isEnd ls).1 ++ (kept isBegin isEnd ls).2).filter nonBlank =
      (followed ls).filter nonBlank ++ (kept isBegin isEnd ls).2.getLast?.toList.filter nonBlank := by
  have hsplit (post : List Str) : post = post.dropLast ++ post.getLast?.toList := by
    cases hl : post.getLast? with
    | none => simp [List.getLast?_eq_none_iff.mp hl]
    | some l => exact (List.dropLast_append_getLast? l hl).symm
  rw [followed, ← List.filter_append, List.append_assoc, ← hsplit]

/-- The user lines read back are the kept ones, with the line endings rewritten. -/
theorem userLines_upsert {content out : Str} {managedKeys : List Str}
    (h : upsertManagedBlock content managedKeys = .ok out) : userLines (lines out) =
      ((followed (lines content)).filter nonBlank).map stripCr ++
        (kept isBegin isEnd (lines content)).2.getLast?.toList.filter nonBlank := by
  obtain ⟨-, hend, hout⟩ := lines_upsert h
  have hno : ∀ z ∈ (surroundings (lines content)).1.map stripCr, isBegin z = false := by
    intro z hz
    obtain ⟨l, hl, rfl⟩ := List.mem_map.mp hz
    rw [isBegin_stripCr]
    exact surroundings_no_begin hend l hl
  have hkeys : ∀ z ∈ normalizedKeys managedKeys, isEnd z = false :=
    fun z hz => (keyLine_of_mem_normalizedKeys hz).not_isEnd
  have hgap : (gapBefore (lines content)).filter nonBlank = [] := by
    refine List.filter_eq_nil_iff.mpr fun z hz => ?_
    rw [gapBefore_blank _ z hz]
    decide
  rw [userLines, hout, outside_block hno (by decide) hkeys (by decide), List.filter_append,
    filter_map_stripCr, filter_reread, surroundings, followed]
  simp only [List.filter_append, hgap, List.append_nil, List.map_append, List.append_assoc]

/-- User lines come through an update unchanged, in order and without repetition, exactly
when the marks are in order and no followed user line ends in a carriage return. -/
theorem userLines_unchanged_iff {content out : Str} {managedKeys : List Str}
    (h : upsertManagedBlock content managedKeys = .ok out) :
    userLines (lines out) = userLines (lines content) ↔
      InOrder isBegin isEnd nonBlank (lines content) ∧ KeepsForm (lines content) := by
  have harranged := arrangement_of_hasEnd (lines_upsert h).2.1
  have horder := filter_kept_eq_iff harranged nonBlank_of_isBegin
  have hsublist := (outside_sublist_kept harranged).filter nonBlank
  rw [filter_kept] at horder hsublist
  rw [userLines_upsert h, keepsForm_iff, ← horder, userLines]
  constructor
  · intro he
    -- Nothing outside is dropped, so equally many lines are the same lines.
    have hlen := congrArg List.length he
    rw [List.length_append, List.length_map, ← List.length_append] at hlen
    have hsame := hsublist.eq_of_length hlen.symm
    exact ⟨hsame.symm, List.append_cancel_right (he.trans hsame)⟩
  · rintro ⟨hsame, hform⟩
    rw [hform, hsame]

private def tidy (key : Str) : Str := joinLines ["ssh-rsa AA me".toList, managedBegin, key,
  managedEnd, "ssh-rsa DD me".toList]

/-- Replacing a block between two user lines leaves them as they are. -/
theorem userLines_unchanged_tidy :
    upsertManagedBlock (tidy "ssh-rsa OO old".toList) ["ssh-rsa BB b".toList] =
        .ok (tidy "ssh-rsa BB b".toList) ∧
      userLines (lines (tidy "ssh-rsa BB b".toList)) =
        userLines (lines (tidy "ssh-rsa OO old".toList)) := by
  have hout : upsertManagedBlock (tidy "ssh-rsa OO old".toList) ["ssh-rsa BB b".toList] =
      .ok (tidy "ssh-rsa BB b".toList) := by decide +kernel
  have horder : InOrder isBegin isEnd nonBlank (lines (tidy "ssh-rsa OO old".toList)) := by
    have hfirst : (lines (tidy "ssh-rsa OO old".toList)).findIdx? isBegin = some 1 := by
      decide +kernel
    have hlast : (lines (tidy "ssh-rsa OO old".toList)).findIdx? isEnd = some 3 := by
      decide +kernel
    rw [InOrder, hfirst, hlast]
    exact Or.inl (by decide)
  have hform : KeepsForm (lines (tidy "ssh-rsa OO old".toList)) := by
    unfold KeepsForm
    decide +kernel
  exact ⟨hout, (userLines_unchanged_iff hout).mpr ⟨horder, hform⟩⟩

private def stray : List Str :=
  [managedEnd, "ssh-rsa AA me".toList, managedBegin, "ssh-rsa OO old".toList, managedEnd]

/-- The user's line and the old block are copied below the new block. -/
theorem userLines_duplicated : ∃ out,
    upsertManagedBlock (joinLines stray) ["ssh-rsa BB b".toList] = .ok out ∧
      userLines (lines out) ≠ userLines (lines (joinLines stray)) := by
  refine ⟨joinLines ([managedEnd, "ssh-rsa AA me".toList, managedBegin, "ssh-rsa BB b".toList,
    managedEnd] ++ stray.tail), ?_⟩
  decide +kernel

end SshKeySync.AuthorizedKeys
