import SshKeySync.AuthorizedKeys.UpdateRuns
import SshKeySync.AuthorizedKeys.UserLines

/-! When an up-to-date file stays as it is: which texts a second update with the same keys
leaves byte for byte, and for which keys the order of a map's values does not show. -/
namespace SshKeySync.AuthorizedKeys
open RustStd Keys MarkedBlock

/-- No line that is written before a newline ends in a carriage return, and what follows the
block does not end in an empty line. -/
structure Settled (ls : List Str) : Prop where
  lineEndings : ∀ line ∈ followed ls, line.getLast? ≠ some '\r'
  lastLine : (kept isBegin isEnd ls).2.getLast? ≠ some []

private theorem joinLines_injective {ls ls' : List Str} (hne : ls ≠ []) (hne' : ls' ≠ []) (h : ∀ l ∈ ls, '\n' ∉ l)
    (h' : ∀ l ∈ ls', '\n' ∉ l) (he : joinLines ls = joinLines ls') : ls = ls' := by
  have hsplit := congrArg (List.splitOn '\n') he
  rwa [joinLines, joinLines, List.splitOn_intercalate _ h hne, List.splitOn_intercalate _ h' hne'] at hsplit

private theorem map_stripCr_eq_self_iff {ls : List Str} :
    ls.map stripCr = ls ↔ ∀ l ∈ ls, l.getLast? ≠ some '\r' := by
  have hid := List.map_inj_left (l := ls) (f := stripCr) (g := id)
  rw [List.map_id] at hid
  rw [hid]
  exact forall₂_congr fun l _ => stripCr_eq_self_iff

/-- Lines read again are the same lines. -/
theorem reread_eq_self_iff {ls : List Str} :
    reread ls = ls ↔ (∀ l ∈ ls.dropLast, l.getLast? ≠ some '\r') ∧ ls.getLast? ≠ some [] := by
  induction ls using List.reverseRecOn with
  | nil => exact iff_of_true rfl ⟨nofun, nofun⟩
  | append_singleton ls l =>
    rw [reread, List.dropLast_concat, List.getLast?_concat, ← map_stripCr_eq_self_iff]
    by_cases hl : l = []
    · subst hl
      refine iff_of_false (fun he => ?_) fun h => h.2 rfl
      have hlength := congrArg List.length he
      simp at hlength
    · simp [hl]

/-- A second update changes nothing but line endings and a last empty line. -/
theorem written_upsert {content out : Str} {managedKeys : List Str} (h : WellOrdered (lines content))
    (hout : upsertManagedBlock content managedKeys = .ok out) :
    written out managedKeys = (surroundings (lines content)).1.map stripCr ++
      managedBlock (normalizedKeys managedKeys) ++ reread (surroundings (lines content)).2 := by
  rw [written, (upsert_written h hout).2.2]

private theorem settled_iff (ls : List Str) : Settled ls ↔
    (surroundings ls).1.map stripCr = (surroundings ls).1 ∧ reread (surroundings ls).2 = (surroundings ls).2 := by
  have hgap : ∀ l ∈ gapBefore ls, l.getLast? ≠ some '\r' := fun l hl => by
    rw [gapBefore_blank ls l hl]
    exact nofun
  rw [map_stripCr_eq_self_iff, reread_eq_self_iff, surroundings]
  simp only [List.forall_mem_append]
  constructor
  · rintro ⟨hendings, hlast⟩
    simp only [followed, List.forall_mem_append] at hendings
    exact ⟨⟨hendings.1, hgap⟩, hendings.2, hlast⟩
  · rintro ⟨⟨hbefore, -⟩, hafter, hlast⟩
    refine ⟨?_, hlast⟩
    simp only [followed, List.forall_mem_append]
    exact ⟨hbefore, hafter⟩

/-- Reapplying the same keys leaves the text as it is if and only if the lines it keeps are settled. -/
theorem reapply_unchanged_iff {content out : Str} {managedKeys : List Str} (hmarks : WellOrdered (lines content))
    (hout : upsertManagedBlock content managedKeys = .ok out) :
    upsertManagedBlock out managedKeys = .ok out ↔ Settled (lines content) := by
  obtain ⟨haccepted, -, hjoin⟩ := upsertManagedBlock_eq_ok_iff.mp hout
  have hend := (upsert_written hmarks hout).1.hasEnd
  rw [upsertManagedBlock_eq_ok_iff, and_iff_right haccepted, and_iff_right hend, settled_iff]
  have hsame : out = joinLines (written out managedKeys) ↔ written content managedKeys = written out managedKeys := by
    constructor
    · intro he
      exact joinLines_injective (written_ne_nil _ _) (written_ne_nil _ _) (newline_not_mem_written _ _)
        (newline_not_mem_written _ _) (hjoin.symm.trans he)
    · intro he
      rw [← he]
      exact hjoin
  rw [hsame, written_upsert hmarks hout, written]
  constructor
  · intro he
    obtain ⟨hfront, hafter⟩ := List.append_inj he (by simp)
    exact ⟨(List.append_inj hfront (by simp)).1.symm, hafter.symm⟩
  · rintro ⟨hbefore, hafter⟩
    rw [hbefore, hafter]

private def trailingBlank : Str := unlines [managedBegin, managedEnd, "ssh-rsa AA me".toList, []]

/-- The blank line at the end is not written back, and then the newline before it is not. -/
theorem reapply_drops_blank_line : ∃ content managedKeys out, WellOrdered (lines content) ∧
    upsertManagedBlock content managedKeys = .ok out ∧ upsertManagedBlock out managedKeys ≠ .ok out := by
  refine ⟨trailingBlank, [], trailingBlank.dropLast, ?_, by decide +kernel, by decide +kernel⟩
  exact Or.inr ⟨0, 1, by decide +kernel, by decide +kernel, Nat.zero_lt_one⟩

private def oneLineAfter : Str := unlines [managedBegin, managedEnd, "ssh-rsa AA me".toList]

/-- Without the blank line the first update drops the last newline, and the second does nothing. -/
theorem reapply_unchanged_line : upsertManagedBlock oneLineAfter.dropLast [] = .ok oneLineAfter.dropLast := by
  have hmarks : WellOrdered (lines oneLineAfter) :=
    Or.inr ⟨0, 1, by decide +kernel, by decide +kernel, Nat.zero_lt_one⟩
  have hout : upsertManagedBlock oneLineAfter [] = .ok oneLineAfter.dropLast := by decide +kernel
  exact (reapply_unchanged_iff hmarks hout).mpr ⟨by decide +kernel, by decide +kernel⟩

/-- An update returns the same result whatever the order of the map's values. -/
def OrderIndependent (content : Str) (managedKeys : HashMap Str Str) : Prop :=
  ∀ order order' : HashMap.Iteration Str,
    upsertManagedBlock content (HashMap.iterate order managedKeys) =
      upsertManagedBlock content (HashMap.iterate order' managedKeys)

/-- The keys are spellings of one key, or there are none. -/
def OneKey (managedKeys : List Str) : Prop :=
  ∃ normalized, ∀ key ∈ managedKeys, normalizePublicKey key = .ok normalized

private theorem normalizedKeys_cons {key normalized : Str} (h : normalizePublicKey key = .ok normalized)
    (managedKeys : List Str) : ∃ rest, normalizedKeys (key :: managedKeys) = normalized :: rest := by
  rw [normalizedKeys, List.filterMap_cons, h]
  exact ⟨_, List.eraseDups_cons ..⟩

/-- Spellings of one key give a block of one line, in any order. -/
theorem normalizedKeys_of_oneKey {managedKeys managedKeys' : List Str} (hperm : managedKeys.Perm managedKeys')
    (h : OneKey managedKeys) : normalizedKeys managedKeys = normalizedKeys managedKeys' := by
  obtain ⟨normalized, hone⟩ := h
  have hsingle {keys : List Str} (hkeys : ∀ key ∈ keys, normalizePublicKey key = .ok normalized) (hne : keys ≠ []) :
      normalizedKeys keys = [normalized] := by
    obtain ⟨key, rest, rfl⟩ := List.exists_cons_of_ne_nil hne
    obtain ⟨others, hothers⟩ := normalizedKeys_cons (hkeys key List.mem_cons_self) rest
    have hnodup := hothers ▸ nodup_normalizedKeys (key :: rest)
    have hnil : others = [] := by
      refine List.eq_nil_iff_forall_not_mem.mpr fun other hother => ?_
      have hmem : other ∈ normalizedKeys (key :: rest) := hothers ▸ List.mem_cons_of_mem _ hother
      obtain ⟨source, hsource, hnormal⟩ := mem_normalizedKeys.mp hmem
      obtain rfl := Except.ok.inj ((hkeys source hsource).symm.trans hnormal)
      exact (List.nodup_cons.mp hnodup).1 hother
    rw [hothers, hnil]
  by_cases hnil : managedKeys = []
  · subst hnil
    rw [List.nil_perm.mp hperm]
  · have hnil' : managedKeys' ≠ [] := fun he => hnil (List.perm_nil.mp (he ▸ hperm))
    rw [hsingle hone hnil, hsingle (fun key hkey => hone key (hperm.mem_iff.mpr hkey)) hnil']

/-- Texts that start their blocks with different keys differ. -/
theorem upsertManagedBlock_ne {content : Str} {key key' normalized normalized' : Str} {rest rest' : List Str}
    (hkey : normalizePublicKey key = .ok normalized) (hkey' : normalizePublicKey key' = .ok normalized')
    (hne : normalized ≠ normalized') {out : Str} (hout : upsertManagedBlock content (key :: rest) = .ok out) :
    upsertManagedBlock content (key' :: rest') ≠ .ok out := by
  intro hout'
  obtain ⟨others, hothers⟩ := normalizedKeys_cons hkey rest
  obtain ⟨others', hothers'⟩ := normalizedKeys_cons hkey' rest'
  have hlines := (lines_upsert hout).2.2.symm.trans (lines_upsert hout').2.2
  rw [List.append_cancel_left_eq, hothers, hothers'] at hlines
  exact hne (List.cons.inj (List.cons.inj hlines).2).1

private theorem accepted_iterate_iff {managedKeys : HashMap Str Str} (order : HashMap.Iteration Str) :
    Accepted (HashMap.iterate order managedKeys) ↔ Accepted (HashMap.values managedKeys) :=
  forall_congr' fun _ => imp_congr_left (order.perm _).mem_iff

/-- Whichever of two different keys comes first starts the block. -/
theorem not_orderIndependent {content : Str} {managedKeys : HashMap Str Str} {key key' normalized normalized' : Str}
    (haccepted : Accepted (HashMap.values managedKeys)) (hend : HasEnd (lines content))
    (hmem : key ∈ HashMap.values managedKeys) (hmem' : key' ∈ HashMap.values managedKeys)
    (hkey : normalizePublicKey key = .ok normalized) (hkey' : normalizePublicKey key' = .ok normalized')
    (hne : normalized ≠ normalized') : ¬ OrderIndependent content managedKeys := by
  intro h
  obtain ⟨rest, hrest⟩ := HashMap.iterate_first hmem
  obtain ⟨rest', hrest'⟩ := HashMap.iterate_first hmem'
  have hout : upsertManagedBlock content (key :: rest) = .ok _ :=
    upsertManagedBlock_eq_ok_iff.mpr ⟨hrest ▸ (accepted_iterate_iff (.first key)).mpr haccepted, hend, rfl⟩
  have hsame := h (.first key) (.first key')
  rw [hrest, hrest'] at hsame
  exact upsertManagedBlock_ne hkey hkey' hne hout (hsame.symm.trans hout)

private theorem exists_two_keys {managedKeys : List Str} (haccepted : Accepted managedKeys)
    (h : ¬ OneKey managedKeys) : ∃ key ∈ managedKeys, ∃ key' ∈ managedKeys, ∃ normalized normalized',
      normalizePublicKey key = .ok normalized ∧ normalizePublicKey key' = .ok normalized' ∧
        normalized ≠ normalized' := by
  cases managedKeys with
  | nil => exact absurd ⟨[], nofun⟩ h
  | cons key rest =>
    obtain ⟨normalized, hkey⟩ := haccepted key List.mem_cons_self
    by_contra hall
    refine h ⟨normalized, fun key' hmem => ?_⟩
    obtain ⟨normalized', hkey'⟩ := haccepted key' hmem
    by_contra hother
    refine hall ⟨key, List.mem_cons_self, key', hmem, normalized, normalized', hkey, hkey', ?_⟩
    rintro rfl
    exact hother hkey'

/-- The order of the values does not show if and only if there is at most one key to write, or
the update fails. -/
theorem orderIndependent_iff (content : Str) (managedKeys : HashMap Str Str) :
    OrderIndependent content managedKeys ↔ ¬ Accepted (HashMap.values managedKeys) ∨ ¬ HasEnd (lines content) ∨
      OneKey (HashMap.values managedKeys) := by
  constructor
  · intro h
    by_contra hcond
    obtain ⟨haccepted, hend, hone⟩ : Accepted (HashMap.values managedKeys) ∧ HasEnd (lines content) ∧
        ¬ OneKey (HashMap.values managedKeys) := by simpa only [not_or, not_not] using hcond
    obtain ⟨key, hmem, key', hmem', normalized, normalized', hkey, hkey', hne⟩ := exists_two_keys haccepted hone
    exact not_orderIndependent haccepted hend hmem hmem' hkey hkey' hne h
  · intro h order order'
    by_cases haccepted : Accepted (HashMap.values managedKeys)
    · by_cases hend : HasEnd (lines content)
      · have hone := (h.resolve_left (not_not.mpr haccepted)).resolve_left (not_not.mpr hend)
        have hvalues (o : HashMap.Iteration Str) : normalizedKeys (HashMap.iterate o managedKeys) =
            normalizedKeys (HashMap.values managedKeys) := (normalizedKeys_of_oneKey (o.perm _).symm hone).symm
        rw [upsertManagedBlock_eq_ok_iff.mpr ⟨(accepted_iterate_iff order).mpr haccepted, hend, rfl⟩,
          upsertManagedBlock_eq_ok_iff.mpr ⟨(accepted_iterate_iff order').mpr haccepted, hend, rfl⟩, written, written,
          hvalues, hvalues]
      · rw [upsertManagedBlock_of_not_hasEnd ((accepted_iterate_iff order).mpr haccepted) hend,
          upsertManagedBlock_of_not_hasEnd ((accepted_iterate_iff order').mpr haccepted) hend]
    · rw [upsertManagedBlock_of_not_accepted content fun ha => haccepted ((accepted_iterate_iff order).mp ha),
        upsertManagedBlock_of_not_accepted content fun ha => haccepted ((accepted_iterate_iff order').mp ha)]

private def twoPeers : HashMap Str Str :=
  HashMap.collect [("node-a".toList, "ssh-rsa AA a".toList), ("node-b".toList, "ssh-rsa BB b".toList)]

/-- Two peers' keys are written in the order in which the map lists them. -/
theorem order_of_two_keys_shows : ∃ content managedKeys, ¬ OrderIndependent content managedKeys := by
  have hfirst : normalizePublicKey "ssh-rsa AA a".toList = .ok "ssh-rsa AA a".toList := by decide +kernel
  have hsecond : normalizePublicKey "ssh-rsa BB b".toList = .ok "ssh-rsa BB b".toList := by decide +kernel
  have hend : HasEnd (lines []) := by
    rintro ⟨z, hz, -⟩
    cases hz
  refine ⟨[], twoPeers, not_orderIndependent ?_ hend (by decide) (by decide) hfirst hsecond (by decide)⟩
  have hvalues : HashMap.values twoPeers = ["ssh-rsa BB b".toList, "ssh-rsa AA a".toList] := by decide
  simp only [Accepted, hvalues, List.forall_mem_cons]
  exact ⟨⟨_, hsecond⟩, ⟨_, hfirst⟩, by simp⟩

end SshKeySync.AuthorizedKeys
