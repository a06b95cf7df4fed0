import SshKeySync.Keys.PublicKey
import SshKeySync.Theory.Items
import SshKeySync.Theory.MarkedBlock

/-! The managed block of `authorized_keys`: locating it, replacing it, and what the text
written holds when its lines are read again. -/
namespace SshKeySync.AuthorizedKeys
open RustStd Keys MarkedBlock

def managedBegin : Str := "# ssh-key-sync begin".toList
def managedEnd : Str := "# ssh-key-sync end".toList

inductive AuthorizedKeysError where
  | missingManagedEnd
  | invalidPublicKey
  | readFailed (path : Str)
  | writeFailed (path : Str)
  | syncFailed (path : Str)
  | renameFailed (path : Str)
  | setPermissionsFailed (path : Str)
  deriving DecidableEq

def isBegin (line : Str) : Bool := trim line = managedBegin
def isEnd (line : Str) : Bool := trim line = managedEnd

/-- The hash set of the source holds what the output holds so far. -/
def normalizeAndDedup (managedKeys : List Str) : Except AuthorizedKeysError (List Str) :=
  managedKeys.foldlM (fun output key => do
    let normalized ← mapErr (normalizePublicKey key) .invalidPublicKey
    .ok (if output.contains normalized then output else output ++ [normalized])) []

/-- The lines `append_managed_block` pushes. -/
def managedBlock (keys : List Str) : List Str := managedBegin :: (keys ++ [managedEnd])

/-- An empty line before a first block, unless the text ends in one or is empty. -/
def gap (ls : List Str) : List Str := if ls ≠ [] ∧ ls.getLast? ≠ some [] then [[]] else []

/-- The two searches are independent: the end found may stand before the begin. -/
def upsertLines (ls keys : List Str) : Except AuthorizedKeysError (List Str) :=
  match ls.findIdx? isBegin, ls.findIdx? isEnd with
  | some _, none => .error .missingManagedEnd
  | some first, some last => .ok (ls.take first ++ managedBlock keys ++ ls.drop (last + 1))
  | none, _ => .ok (ls ++ gap ls ++ managedBlock keys)

def upsertManagedBlock (existingContent : Str) (managedKeys : List Str) :
    Except AuthorizedKeysError Str := do
  let normalizedKeys ← normalizeAndDedup managedKeys
  let outputLines ← upsertLines (lines existingContent) normalizedKeys
  .ok (joinLines outputLines)

def KeyLine (line : Str) : Prop := ∃ k : KeyWords, line = k.text

theorem isBegin_stripCr (l : Str) : isBegin (stripCr l) = isBegin l := by rw [isBegin, trim_stripCr, isBegin]
theorem isEnd_stripCr (l : Str) : isEnd (stripCr l) = isEnd l := by rw [isEnd, trim_stripCr, isEnd]

private theorem isEnd_of_isBegin {l : Str} (h : isBegin l) : isEnd l = false := by
  have hb : trim l = managedBegin := by simpa [isBegin] using h
  rw [isEnd, hb]
  decide

namespace KeyLine
variable {line : Str} (h : KeyLine line)
include h

theorem wireSafe : Records.WireSafe line := by
  obtain ⟨k, rfl⟩ := h
  exact k.wireSafe_text

private theorem trim_ne (mark : Str) (hmark : mark.head? = some '#') : trim line ≠ mark := by
  obtain ⟨k, rfl⟩ := h
  rw [k.trim_text]
  intro he
  exact k.head_text_ne_hash (he ▸ hmark)

theorem not_isBegin : isBegin line = false := by
  simpa [isBegin] using h.trim_ne managedBegin rfl

theorem not_isEnd : isEnd line = false := by
  simpa [isEnd] using h.trim_ne managedEnd rfl

private theorem stripCr_eq : stripCr line = line := stripCr_eq_self h.wireSafe.2

end KeyLine

def normalizedKeys (managedKeys : List Str) : List Str :=
  (managedKeys.filterMap fun key => (normalizePublicKey key).toOption).eraseDups

def Accepted (managedKeys : List Str) : Prop :=
  ∀ key ∈ managedKeys, ∃ normalized, normalizePublicKey key = .ok normalized

/-- No key is listed twice. -/
theorem nodup_normalizedKeys (managedKeys : List Str) : (normalizedKeys managedKeys).Nodup :=
  (Items.firstOccurrences_eraseDups _).nodup

/-- The keys are taken exactly when each has a normal form. -/
theorem normalizeAndDedup_eq_ok_iff {managedKeys ks : List Str} :
    normalizeAndDedup managedKeys = .ok ks ↔
      Accepted managedKeys ∧ ks = normalizedKeys managedKeys := by
  suffices ∀ done : List Str, managedKeys.foldlM (fun output key => do
      let normalized ← mapErr (normalizePublicKey key) AuthorizedKeysError.invalidPublicKey
      .ok (if output.contains normalized then output else output ++ [normalized])) done.eraseDups = .ok ks ↔
      Accepted managedKeys ∧ ks = (done ++
        managedKeys.filterMap fun key => (normalizePublicKey key).toOption).eraseDups from this []
  induction managedKeys with
  | nil => simp [Accepted, pure, Except.pure, eq_comm]
  | cons key managedKeys ih =>
    intro done
    rw [List.foldlM_cons, bind_eq_ok, Accepted, List.forall_mem_cons]
    cases hkey : normalizePublicKey key with
    | error error => simp
    | ok normalized =>
      have hstep := ih (done ++ [normalized])
      rw [Items.eraseDups_concat, List.append_assoc, List.singleton_append] at hstep
      simpa [hkey, Except.toOption, Accepted] using hstep

/-- The keys have only one error to give. -/
theorem normalizeAndDedup_eq_error {managedKeys : List Str} {error : AuthorizedKeysError}
    (h : normalizeAndDedup managedKeys = .error error) : error = .invalidPublicKey := by
  induction managedKeys using List.reverseRecOn with
  | nil => cases h
  | append_singleton managedKeys key ih =>
    rw [normalizeAndDedup, List.foldlM_append, ← normalizeAndDedup] at h
    cases hkeys : normalizeAndDedup managedKeys with
    | error e =>
      rw [hkeys] at h
      cases h
      exact ih hkeys
    | ok output =>
      rw [hkeys, ok_bind, List.foldlM_cons] at h
      cases hkey : normalizePublicKey key with
      | error e =>
        rw [hkey] at h
        cases h
        rfl
      | ok normalized =>
        rw [hkey] at h
        cases h

/-- The listed keys are the normal forms of what was given. -/
theorem mem_normalizedKeys {managedKeys : List Str} {key : Str} :
    key ∈ normalizedKeys managedKeys ↔ ∃ source ∈ managedKeys, normalizePublicKey source = .ok key := by
  rw [normalizedKeys, List.mem_eraseDups, List.mem_filterMap]
  refine exists_congr fun source => and_congr_right fun _ => ?_
  cases normalizePublicKey source <;> simp [Except.toOption]

/-- A listed key is a line that is no marker. -/
theorem keyLine_of_mem_normalizedKeys {managedKeys : List Str} {key : Str}
    (h : key ∈ normalizedKeys managedKeys) : KeyLine key := by
  obtain ⟨source, -, hsource⟩ := mem_normalizedKeys.mp h
  obtain ⟨k, -, hk⟩ := normalizePublicKey_eq_ok_iff.mp hsource
  exact ⟨k, hk⟩

/-- A begin comes with an end somewhere, which is all that is asked of the text. -/
def HasEnd (ls : List Str) : Prop := (∃ z ∈ ls, isBegin z) → ∃ z ∈ ls, isEnd z

/-- The gap stands only before a first block. -/
def gapBefore (ls : List Str) : List Str := if (ls.findIdx? isBegin).isNone then gap ls else []

def surroundings (ls : List Str) : List Str × List Str :=
  ((kept isBegin isEnd ls).1 ++ gapBefore ls, (kept isBegin isEnd ls).2)

private theorem exists_iff_isSome {p : Str → Bool} {ls : List Str} :
    (∃ z ∈ ls, p z) ↔ (ls.findIdx? p).isSome := by
  rw [List.findIdx?_isSome, List.any_eq_true]

private theorem upsertLines_eq_ok_iff {ls keys out : List Str} : upsertLines ls keys = .ok out ↔
    HasEnd ls ∧ out = (surroundings ls).1 ++ managedBlock keys ++ (surroundings ls).2 := by
  rw [upsertLines, HasEnd, exists_iff_isSome, exists_iff_isSome, surroundings, gapBefore, kept]
  cases ls.findIdx? isBegin with
  | none => simp [eq_comm (a := out)]
  | some first => cases ls.findIdx? isEnd with
    | none => simp
    | some last => simp [eq_comm (a := out)]

/-- The keys play no part in the only error of the text. -/
theorem upsertLines_eq_error {ls keys : List Str} {error : AuthorizedKeysError}
    (h : upsertLines ls keys = .error error) : error = .missingManagedEnd := by
  rw [upsertLines] at h
  split at h <;> cases h
  rfl

/-- Lines with an end for their begin are arranged in one of the ways that an update can meet. -/
theorem arrangement_of_hasEnd {ls : List Str} (h : HasEnd ls) : Arrangement isBegin isEnd ls :=
  arrangement (fun _ => isEnd_of_isBegin) h

/-- What stands between the block and the line before it is blank. -/
theorem gapBefore_blank (ls : List Str) : ∀ z ∈ gapBefore ls, z = [] := by
  intro z hz
  rw [gapBefore, gap] at hz
  split_ifs at hz
  · exact List.mem_singleton.mp hz
  all_goals cases hz

/-- No begin marker stands before the block. -/
theorem surroundings_no_begin {ls : List Str} (h : HasEnd ls) :
    ∀ z ∈ (surroundings ls).1, isBegin z = false := by
  intro z hz
  rcases List.mem_append.mp hz with hz | hz
  · exact kept_no_begin (arrangement_of_hasEnd h) z hz
  · rw [gapBefore_blank ls z hz]
    decide

private theorem newline_not_mem_surroundings (content : Str) :
    ∀ l ∈ (surroundings (lines content)).1 ++ (surroundings (lines content)).2, '\n' ∉ l := by
  have hkept {l : Str} (h : l ∈ (kept isBegin isEnd (lines content)).1 ++
      (kept isBegin isEnd (lines content)).2) : '\n' ∉ l := newline_not_mem_lines (mem_of_mem_kept h)
  simp only [surroundings, List.forall_mem_append]
  refine ⟨⟨fun l hl => hkept (List.mem_append_left _ hl), fun l hl => ?_⟩,
    fun l hl => hkept (List.mem_append_right _ hl)⟩
  rw [gapBefore_blank _ l hl]
  exact List.not_mem_nil

def written (content : Str) (managedKeys : List Str) : List Str :=
  (surroundings (lines content)).1 ++ managedBlock (normalizedKeys managedKeys) ++
    (surroundings (lines content)).2

/-- An update writes its lines exactly when the keys are taken and a begin has its end. -/
theorem upsertManagedBlock_eq_ok_iff {content out : Str} {managedKeys : List Str} :
    upsertManagedBlock content managedKeys = .ok out ↔
      Accepted managedKeys ∧ HasEnd (lines content) ∧ out = joinLines (written content managedKeys) := by
  simp only [upsertManagedBlock, bind_eq_ok, normalizeAndDedup_eq_ok_iff, upsertLines_eq_ok_iff]
  constructor
  · rintro ⟨ks, ⟨haccepted, rfl⟩, outputLines, ⟨hend, rfl⟩, he⟩
    cases he
    exact ⟨haccepted, hend, rfl⟩
  · rintro ⟨haccepted, hend, rfl⟩
    exact ⟨_, ⟨haccepted, rfl⟩, _, ⟨hend, rfl⟩, rfl⟩

/-- A key without a normal form is reported first. -/
theorem upsertManagedBlock_of_not_accepted (content : Str) {managedKeys : List Str} (h : ¬ Accepted managedKeys) :
    upsertManagedBlock content managedKeys = .error .invalidPublicKey := by
  cases hkeys : normalizeAndDedup managedKeys with
  | ok keys => exact absurd (normalizeAndDedup_eq_ok_iff.mp hkeys).1 h
  | error error =>
    rw [upsertManagedBlock, hkeys, normalizeAndDedup_eq_error hkeys]
    rfl

/-- A begin marker without an end is reported. -/
theorem upsertManagedBlock_of_not_hasEnd {content : Str} {managedKeys : List Str} (haccepted : Accepted managedKeys)
    (h : ¬ HasEnd (lines content)) : upsertManagedBlock content managedKeys = .error .missingManagedEnd := by
  rw [upsertManagedBlock, normalizeAndDedup_eq_ok_iff.mpr ⟨haccepted, rfl⟩, ok_bind]
  cases hlines : upsertLines (lines content) (normalizedKeys managedKeys) with
  | ok outputLines => exact absurd (upsertLines_eq_ok_iff.mp hlines).1 h
  | error error =>
    rw [upsertLines_eq_error hlines]
    rfl

/-- What an update writes are lines. -/
theorem newline_not_mem_written (content : Str) (managedKeys : List Str) :
    ∀ l ∈ written content managedKeys, '\n' ∉ l := by
  have hmarks : '\n' ∉ managedBegin ∧ '\n' ∉ managedEnd := by decide
  have hsurroundings := newline_not_mem_surroundings content
  simp only [written, managedBlock, List.forall_mem_append, List.forall_mem_cons] at hsurroundings ⊢
  exact ⟨⟨hsurroundings.1, hmarks.1, fun key hkey => (keyLine_of_mem_normalizedKeys hkey).wireSafe.1, hmarks.2,
    nofun⟩, hsurroundings.2⟩

/-- An update always writes its markers. -/
theorem written_ne_nil (content : Str) (managedKeys : List Str) : written content managedKeys ≠ [] := by
  simp [written, managedBlock]

/-- The text written, read again: its block holds the normalized keys, and what was kept
stands around it up to line endings. -/
theorem lines_upsert {content out : Str} {managedKeys : List Str}
    (h : upsertManagedBlock content managedKeys = .ok out) :
    Accepted managedKeys ∧ HasEnd (lines content) ∧
      lines out = (surroundings (lines content)).1.map stripCr ++
        managedBegin :: (normalizedKeys managedKeys ++
          managedEnd :: reread (surroundings (lines content)).2) := by
  obtain ⟨haccepted, hend, rfl⟩ := upsertManagedBlock_eq_ok_iff.mp h
  refine ⟨haccepted, hend, ?_⟩
  have hmarks : stripCr managedBegin = managedBegin ∧ stripCr managedEnd = managedEnd ∧ managedEnd ≠ [] := by
    decide
  have hmap : (normalizedKeys managedKeys).map stripCr = normalizedKeys managedKeys :=
    (List.map_congr_left fun key hkey => (keyLine_of_mem_normalizedKeys hkey).stripCr_eq).trans (List.map_id' _)
  have hblock : written content managedKeys = ((surroundings (lines content)).1 ++
      managedBegin :: normalizedKeys managedKeys) ++ managedEnd :: (surroundings (lines content)).2 := by
    simp [written, managedBlock]
  rw [lines_joinLines (newline_not_mem_written content managedKeys), hblock,
    reread_append_cons _ _ hmarks.2.1 hmarks.2.2, List.map_append, List.map_cons, hmarks.1, hmap,
    List.append_assoc, List.cons_append]

/-- The lines from the first begin to the next end, whatever ends stand before it. -/
def managedLines (ls : List Str) : List Str := ((ls.dropWhile (!isBegin ·)).drop 1).takeWhile (!isEnd ·)

/-- The lines of the block that an update has written are its keys. -/
theorem managedLines_upsert {content out : Str} {managedKeys : List Str}
    (h : upsertManagedBlock content managedKeys = .ok out) :
    managedLines (lines out) = normalizedKeys managedKeys := by
  obtain ⟨-, hend, hlines⟩ := lines_upsert h
  have hbefore : ∀ z ∈ (surroundings (lines content)).1.map stripCr, (!isBegin z) = true := by
    intro z hz
    obtain ⟨l, hl, rfl⟩ := List.mem_map.mp hz
    rw [isBegin_stripCr, surroundings_no_begin hend l hl]
    rfl
  have hkeys : ∀ z ∈ normalizedKeys managedKeys, (!isEnd z) = true := by
    intro z hz
    rw [(keyLine_of_mem_normalizedKeys hz).not_isEnd]
    rfl
  have hmarks : isBegin managedBegin = true ∧ isEnd managedEnd = true := by decide
  rw [managedLines, hlines, List.dropWhile_append_of_pos hbefore, List.dropWhile_cons_of_neg (by simp [hmarks.1]),
    List.drop_one, List.tail_cons, List.takeWhile_append_of_pos hkeys,
    List.takeWhile_cons_of_neg (by simp [hmarks.2]), List.append_nil]

end SshKeySync.AuthorizedKeys
