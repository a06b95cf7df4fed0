import SshKeySync.AuthorizedKeys.ManagedBlock

/-! Runs of updates of one `authorized_keys` text. From a text whose marks are in order
every update succeeds and leaves such a text; its block holds the last keys and nothing
else, and around the block only blank lines and trailing whitespace ever change. -/
namespace SshKeySync.AuthorizedKeys
open RustStd Keys MarkedBlock

/-- No mark at all, or the first begin before the first end. -/
def WellOrdered (ls : List Str) : Prop :=
  (∀ z ∈ ls, isBegin z = false ∧ isEnd z = false) ∨
    ∃ first last, ls.findIdx? isBegin = some first ∧ ls.findIdx? isEnd = some last ∧ first < last

/-- The lines strictly between the first begin and the first end. -/
def blockLines (ls : List Str) : List Str :=
  match ls.findIdx? isBegin, ls.findIdx? isEnd with
  | some first, some last => (ls.take last).drop (first + 1)
  | _, _ => []

/-- Lines up to blank ones and trailing whitespace. -/
def visible (ls : List Str) : List Str := (ls.map trimEnd).filter (· ≠ [])

def upsertRun (content : Str) : List (List Str) → Except AuthorizedKeysError (List Str)
  | [] => .ok []
  | managedKeys :: updates => do
    let updated ← upsertManagedBlock content managedKeys
    let later ← upsertRun updated updates
    .ok (updated :: later)

private theorem visible_append (ls ls' : List Str) : visible (ls ++ ls') = visible ls ++ visible ls' := by
  rw [visible, List.map_append, List.filter_append, visible, visible]

private theorem visible_map_stripCr (ls : List Str) : visible (ls.map stripCr) = visible ls := by
  have hcomp : trimEnd ∘ stripCr = trimEnd := funext trimEnd_stripCr
  rw [visible, List.map_map, hcomp, visible]

private theorem visible_reread (ls : List Str) : visible (reread ls) = visible ls := by
  have hlast (l : Str) : visible ([l].filter (· ≠ [])) = visible [l] := by
    by_cases hl : l = []
    · rw [hl]
      rfl
    · simp [hl]
  rw [reread, visible_append, visible_map_stripCr]
  cases hl : ls.getLast? with
  | none => simp [List.getLast?_eq_none_iff.mp hl, visible]
  | some l =>
    rw [Option.toList_some, hlast, ← visible_append, List.dropLast_append_getLast? l hl]

private theorem first_marks {before keys : List Str} (after : List Str)
    (hbefore : ∀ z ∈ before, isBegin z = false ∧ isEnd z = false) (hkeys : ∀ z ∈ keys, KeyLine z) :
    let ls := before ++ managedBegin :: (keys ++ managedEnd :: after)
    ls.findIdx? isBegin = some before.length ∧
      ls.findIdx? isEnd = some (before.length + 1 + keys.length) := by
  have hends : ∀ z ∈ before ++ managedBegin :: keys, isEnd z = false := by
    simp only [List.forall_mem_append, List.forall_mem_cons]
    exact ⟨fun z hz => (hbefore z hz).2, by decide, fun z hz => (hkeys z hz).not_isEnd⟩
  have hmiddle : before ++ managedBegin :: (keys ++ managedEnd :: after) =
      (before ++ managedBegin :: keys) ++ managedEnd :: after := by simp
  refine ⟨findIdx?_first (fun z hz => (hbefore z hz).1) (by decide), ?_⟩
  rw [hmiddle, findIdx?_first hends (by decide), List.length_append, List.length_cons]
  congr 1
  omega

/-- Markers in order have an end for their begin. -/
theorem WellOrdered.hasEnd {ls : List Str} (h : WellOrdered ls) : HasEnd ls := by
  rintro ⟨z, hz, hb⟩
  rcases h with h | ⟨first, last, -, hlast, -⟩
  · rw [(h z hz).1] at hb
    cases hb
  · obtain ⟨hlt, hp, -⟩ := List.findIdx?_eq_some_iff_getElem.mp hlast
    exact ⟨_, List.getElem_mem hlt, hp⟩

/-- Around the block of a well-ordered text there are no marks before it. -/
theorem WellOrdered.before_unmarked {ls : List Str} (h : WellOrdered ls) :
    ∀ z ∈ (surroundings ls).1, isBegin z = false ∧ isEnd z = false := by
  intro z hz
  refine ⟨surroundings_no_begin h.hasEnd z hz, ?_⟩
  rcases List.mem_append.mp hz with hz | hz
  · rcases h with h | ⟨first, last, hfirst, hlast, hlt⟩
    · exact (h z (mem_of_mem_kept (List.mem_append_left _ hz))).2
    · rw [kept, hfirst, hlast] at hz
      obtain ⟨i, hi, rfl⟩ := List.mem_take_iff_getElem.mp hz
      obtain ⟨hbound, _, hbefore⟩ := List.findIdx?_eq_some_iff_getElem.mp hlast
      simpa using hbefore i (by omega)
  · rw [gapBefore_blank ls z hz]
    decide

structure Updated (content : Str) (managedKeys : List Str) (out : Str) : Prop where
  wellOrdered : WellOrdered (lines out)
  blockLines_eq : blockLines (lines out) = normalizedKeys managedKeys
  visible_eq : visible (lines out) = visible (surroundings (lines content)).1 ++
    visible (managedBlock (normalizedKeys managedKeys)) ++ visible (surroundings (lines content)).2
  before_eq : visible (surroundings (lines out)).1 = visible (surroundings (lines content)).1
  after_eq : visible (surroundings (lines out)).2 = visible (surroundings (lines content)).2

private theorem written_block {ls before keys after : List Str}
    (hls : ls = before ++ managedBegin :: (keys ++ managedEnd :: after))
    (hbefore : ∀ z ∈ before, isBegin z = false ∧ isEnd z = false) (hkeys : ∀ z ∈ keys, KeyLine z) :
    WellOrdered ls ∧ blockLines ls = keys ∧ surroundings ls = (before, after) := by
  obtain ⟨hfirst, hlast⟩ := first_marks after hbefore hkeys
  have hkept : kept isBegin isEnd (before ++ managedBegin :: (keys ++ managedEnd :: after)) = (before, after) :=
    kept_ordered (fun z hz => (hbefore z hz).1) (fun z hz => (hbefore z hz).2) (by decide) (by decide)
      (fun z hz => (hkeys z hz).not_isEnd) (by decide)
  rw [← hls] at hfirst hlast hkept
  refine ⟨Or.inr ⟨_, _, hfirst, hlast, by omega⟩, ?_, ?_⟩
  · have hmiddle : ls = (before ++ managedBegin :: keys) ++ managedEnd :: after := by simp [hls]
    have hlength : before.length + 1 + keys.length = (before ++ managedBegin :: keys).length := by
      simp only [List.length_append, List.length_cons]
      omega
    rw [blockLines, hfirst, hlast]
    dsimp only
    rw [hlength, hmiddle, List.take_left, ← List.drop_drop, List.drop_left]
    rfl
  · rw [surroundings, hkept, gapBefore, hfirst]
    simp

/-- An update of a well-ordered text: what its lines are when they are read again. -/
theorem upsert_written {content out : Str} {managedKeys : List Str} (h : WellOrdered (lines content))
    (hout : upsertManagedBlock content managedKeys = .ok out) :
    WellOrdered (lines out) ∧ blockLines (lines out) = normalizedKeys managedKeys ∧
      surroundings (lines out) =
        ((surroundings (lines content)).1.map stripCr, reread (surroundings (lines content)).2) := by
  have hbefore : ∀ z ∈ (surroundings (lines content)).1.map stripCr, isBegin z = false ∧ isEnd z = false := by
    intro z hz
    obtain ⟨l, hl, rfl⟩ := List.mem_map.mp hz
    rw [isBegin_stripCr, isEnd_stripCr]
    exact h.before_unmarked l hl
  exact written_block (lines_upsert hout).2.2 hbefore fun z hz => keyLine_of_mem_normalizedKeys hz

/-- A text with its markers in order is updated, and they stay in order. -/
theorem upsert_updated {content : Str} {managedKeys : List Str} (h : WellOrdered (lines content))
    (haccepted : Accepted managedKeys) :
    ∃ out, upsertManagedBlock content managedKeys = .ok out ∧ Updated content managedKeys out := by
  have hok := upsertManagedBlock_eq_ok_iff.mpr ⟨haccepted, h.hasEnd, rfl⟩
  refine ⟨_, hok, ?_⟩
  obtain ⟨-, -, hout⟩ := lines_upsert hok
  obtain ⟨hordered, hblock, haround⟩ := upsert_written h hok
  refine ⟨hordered, hblock, ?_, ?_, ?_⟩
  · have hsplit (keys after : List Str) : managedBegin :: (keys ++ managedEnd :: after) =
        managedBlock keys ++ after := by simp [managedBlock]
    rw [hout, hsplit, visible_append, visible_append, visible_map_stripCr, visible_reread,
      List.append_assoc]
  · rw [haround, visible_map_stripCr]
  · rw [haround, visible_reread]

/-- Along a run the surroundings of the first text stay visible around the last block. -/
theorem upsertRun_updated {content : Str} {updates : List (List Str)} {last : List Str}
    (h : WellOrdered (lines content)) (haccepted : ∀ ks ∈ updates ++ [last], Accepted ks) :
    ∃ contents final, upsertRun content (updates ++ [last]) = .ok (contents ++ [final]) ∧
      (∀ c ∈ contents ++ [final], WellOrdered (lines c)) ∧
      blockLines (lines final) = normalizedKeys last ∧
      visible (lines final) = visible (surroundings (lines content)).1 ++
        visible (managedBlock (normalizedKeys last)) ++ visible (surroundings (lines content)).2 := by
  induction updates generalizing content with
  | nil =>
    obtain ⟨final, hok, hu⟩ := upsert_updated h (haccepted last (by simp))
    refine ⟨[], final, ?_, ?_, hu.blockLines_eq, hu.visible_eq⟩
    · simp only [List.nil_append, upsertRun, hok, ok_bind]
    · intro c hc
      rw [List.mem_singleton.mp hc]
      exact hu.wellOrdered
  | cons managedKeys updates ih =>
    rw [List.cons_append, List.forall_mem_cons] at haccepted
    obtain ⟨out, hok, hu⟩ := upsert_updated h haccepted.1
    obtain ⟨contents, final, hrun, hordered, hblock, hvisible⟩ := ih hu.wellOrdered haccepted.2
    refine ⟨out :: contents, final, ?_, ?_, hblock, ?_⟩
    · rw [List.cons_append, upsertRun, hok, ok_bind, hrun, ok_bind, List.cons_append]
    · rw [List.cons_append, List.forall_mem_cons]
      exact ⟨hu.wellOrdered, hordered⟩
    · rw [hvisible, hu.before_eq, hu.after_eq]

/-- A supported algorithm name, a space, and the rest of a line that is no mark. -/
def BlockKey (line : Str) : Prop :=
  '\n' ∉ line ∧ (∃ algorithm ∈ supportedAlgorithms, (algorithm ++ [' ']) <+: line) ∧
    isBegin line = false ∧ isEnd line = false

private theorem KeyLine.blockKey {line : Str} (h : KeyLine line) : BlockKey line := by
  refine ⟨h.wireSafe.1, ?_, h.not_isBegin, h.not_isEnd⟩
  obtain ⟨k, rfl⟩ := h
  exact ⟨k.algorithm, k.algorithm_mem, joinWords (k.keyData :: k.comment), by simp [k.text_eq]⟩

/-- Over any run of updates the last one decides: every step succeeds and stays well-ordered,
the block holds the normalized last keys without repetitions, and all else is visibly as if
only the last update had been made. -/
theorem last_write_wins {content : Str} {updates : List (List Str)} {last : List Str}
    (h : WellOrdered (lines content)) (haccepted : ∀ ks ∈ updates ++ [last], Accepted ks) :
    ∃ contents final direct, upsertRun content (updates ++ [last]) = .ok (contents ++ [final]) ∧
      (∀ c ∈ contents ++ [final], WellOrdered (lines c)) ∧
      blockLines (lines final) = normalizedKeys last ∧
      (∀ line ∈ blockLines (lines final), BlockKey line) ∧
      upsertManagedBlock content last = .ok direct ∧ visible (lines final) = visible (lines direct) := by
  obtain ⟨contents, final, hrun, hordered, hblock, hvisible⟩ := upsertRun_updated h haccepted
  obtain ⟨direct, hdirect, hu⟩ := upsert_updated h (haccepted last (by simp))
  refine ⟨contents, final, direct, hrun, hordered, hblock, ?_, hdirect, ?_⟩
  · intro line hline
    rw [hblock] at hline
    exact (keyLine_of_mem_normalizedKeys hline).blockKey
  · rw [hvisible, hu.visible_eq]

private def windowsText : Str := "ssh-rsa AA me\r\n\r\n".toList

private def oldKeys : List Str := ["ssh-rsa OO old".toList]

private def spacedKeys : List Str := ["ssh-rsa BB b".toList, " ssh-rsa  BB\tb ".toList]

/-- Two updates of a text with carriage returns; the second lists one key in two spellings. -/
theorem last_write_wins_windows : ∃ contents final,
    upsertRun windowsText ([oldKeys] ++ [spacedKeys]) = .ok (contents ++ [final]) ∧
      blockLines (lines final) = ["ssh-rsa BB b".toList] := by
  have hordered : WellOrdered (lines windowsText) := Or.inl (by decide +kernel)
  have haccepted : ∀ ks ∈ [oldKeys] ++ [spacedKeys], Accepted ks := by
    have hold : normalizePublicKey "ssh-rsa OO old".toList = .ok "ssh-rsa OO old".toList := by
      decide +kernel
    have hnew : normalizePublicKey "ssh-rsa BB b".toList = .ok "ssh-rsa BB b".toList := by
      decide +kernel
    have hspaced : normalizePublicKey " ssh-rsa  BB\tb ".toList = .ok "ssh-rsa BB b".toList := by
      decide +kernel
    simp only [Accepted, oldKeys, spacedKeys, List.forall_mem_append, List.forall_mem_cons]
    exact ⟨⟨⟨⟨_, hold⟩, List.forall_mem_nil _⟩, List.forall_mem_nil _⟩,
      ⟨⟨_, hnew⟩, ⟨_, hspaced⟩, List.forall_mem_nil _⟩, List.forall_mem_nil _⟩
  obtain ⟨contents, final, direct, hrun, -, hblock, -⟩ := last_write_wins hordered haccepted
  refine ⟨contents, final, hrun, hblock.trans ?_⟩
  decide +kernel

end SshKeySync.AuthorizedKeys
