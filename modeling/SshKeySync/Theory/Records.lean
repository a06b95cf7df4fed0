import SshKeySync.Std.Lines
import SshKeySync.Std.HashMap
import SshKeySync.Std.Result

/-! Text of `KEY=VALUE` lines: written from a list of rows, and read back into a map in
a lenient and in a strict way. A value survives exactly when it is a single line
without surrounding whitespace, and only such values are ever read. -/
namespace Records
open RustStd

/-- One line, without surrounding whitespace. -/
def WireSafe (s : Str) : Prop := '\n' ∉ s ∧ Unpadded s

instance (s : Str) : Decidable (WireSafe s) := inferInstanceAs (Decidable (_ ∧ _))

/-- A row whose key and value are both read back as they were written. -/
def SafeRow (kv : Str × Str) : Prop := WireSafe kv.1 ∧ '=' ∉ kv.1 ∧ WireSafe kv.2

instance (kv : Str × Str) : Decidable (SafeRow kv) := inferInstanceAs (Decidable (_ ∧ _ ∧ _))

def row (kv : Str × Str) : Str := kv.1 ++ '=' :: kv.2

def render (rows : List (Str × Str)) : Str := unlines (rows.map row)

/-- Key and value of a line, cut at the first equals sign and trimmed. -/
def keyValue (line : Str) : Option (Str × Str) :=
  (splitOnce '=' line).map fun kv => (trim kv.1, trim kv.2)

/-- Lines without an equals sign are skipped; the last row of a key stays. -/
def parse (text : Str) : HashMap Str Str :=
  (lines text).foldl (fun m line => match keyValue line with
    | some kv => m.insert kv.1 kv.2
    | none => m) ∅

/-- Blank lines are skipped and any other line without an equals sign is an error. -/
def parseStrict {ε : Type} (err : ε) (text : Str) : Except ε (HashMap Str Str) :=
  (lines text).foldlM (fun m line => if trim line = [] then .ok m else
    match keyValue line with
    | some kv => .ok (m.insert kv.1 kv.2)
    | none => .error err) ∅

/-- A trimmed line is safe. -/
theorem wireSafe_trim {s : Str} (h : '\n' ∉ s) : WireSafe (trim s) :=
  ⟨fun hm => h (mem_of_mem_trim hm), trim_unpadded s⟩

/-- A text without whitespace is safe. -/
theorem wireSafe_of_whitespace_free {s : Str} (h : ∀ c ∈ s, isWhitespace c = false) : WireSafe s :=
  ⟨fun hm => absurd (h _ hm) (by decide), fun c hc => h c (List.mem_of_head? hc),
    fun c hc => h c (List.mem_of_getLast? hc)⟩

/-- Joined words are safe. -/
theorem wireSafe_joinWords {ws : List Str} (h : ∀ w ∈ ws, Word w) : WireSafe (joinWords ws) := by
  refine ⟨fun hn => ?_, unpadded_joinWords h⟩
  rcases mem_joinWords hn with he | ⟨w, hw, hc⟩
  · cases he
  · exact absurd ((h w hw).2 _ hc) (by decide)

theorem safeRow {key value : Str} (hkey : WireSafe key ∧ '=' ∉ key) (hvalue : WireSafe value) :
    SafeRow (key, value) := ⟨hkey.1, hkey.2, hvalue⟩

/-- A safe row is read back. -/
theorem keyValue_row {kv : Str × Str} (h : SafeRow kv) : keyValue (row kv) = some kv := by
  rw [keyValue, row, splitOnce_append _ h.2.1]
  simp [trim_eq_self h.1.2, trim_eq_self h.2.2.2]

/-- A safe row is a line. -/
theorem newline_not_mem_row {kv : Str × Str} (h : SafeRow kv) : '\n' ∉ row kv := by
  simp [row, h.1.1, h.2.2.1]

/-- A safe row has no surrounding whitespace. -/
theorem unpadded_row {kv : Str × Str} (h : SafeRow kv) : Unpadded (row kv) := by
  refine ⟨fun c hc => ?_, fun c hc => ?_⟩
  · rw [row, List.head?_append] at hc
    cases hk : kv.1.head? with
    | none =>
      rw [hk] at hc
      cases hc
      decide
    | some d => exact h.1.2.1 c (by simpa [hk] using hc)
  · rw [row, List.getLast?_append, List.getLast?_cons] at hc
    cases hv : kv.2.getLast? with
    | none =>
      rw [hv] at hc
      cases hc
      decide
    | some d => exact h.2.2.2.2 c (by simpa [hv] using hc)

/-- Safe rows are the lines of their text. -/
theorem lines_render {rows : List (Str × Str)} (h : ∀ kv ∈ rows, SafeRow kv) :
    lines (render rows) = rows.map row := by
  rw [render, lines_unlines, List.map_map]
  · exact List.map_congr_left fun kv hkv => stripCr_eq_self (unpadded_row (h kv hkv))
  · rintro l hl
    obtain ⟨kv, hkv, rfl⟩ := List.mem_map.mp hl
    exact newline_not_mem_row (h kv hkv)

theorem filterMap_keyValue_row {rows : List (Str × Str)} (h : ∀ kv ∈ rows, SafeRow kv) :
    (rows.map row).filterMap keyValue = rows := by
  rw [List.filterMap_map]
  exact (List.filterMap_congr fun kv hkv => keyValue_row (h kv hkv)).trans List.filterMap_some

/-- Safe rows are read into a map. -/
theorem parse_render {rows : List (Str × Str)} (h : ∀ kv ∈ rows, SafeRow kv) :
    parse (render rows) = HashMap.collect rows := by
  rw [parse, lines_render h, HashMap.collect, List.foldl_map]
  refine List.foldl_ext _ _ _ fun m kv hkv => ?_
  rw [keyValue_row (h kv hkv)]

/-- A carriage return before the newline does not change what a line holds. -/
theorem keyValue_stripCr (l : Str) : keyValue (stripCr l) = keyValue l := by
  rcases stripCr_cases l with h | h
  · rw [h]
  · generalize stripCr l = line at h ⊢
    subst h
    rw [keyValue, keyValue]
    cases hcut : splitOnce '=' line with
    | none =>
      have hnone : splitOnce '=' (line ++ ['\r']) = none := by
        rw [splitOnce_eq_none_iff] at hcut ⊢
        simp [hcut]
      rw [hnone]
    | some kv =>
      obtain ⟨rfl, hkey⟩ := splitOnce_eq_some_iff.mp hcut
      rw [List.append_assoc, List.cons_append, splitOnce_append _ hkey]
      simp only [Option.map_some, trim_concat kv.2 (show isWhitespace '\r' from by decide)]

/-- A blank line holds nothing. -/
theorem keyValue_of_blank {l : Str} (h : trim l = []) : keyValue l = none := by
  rw [keyValue, splitOnce_eq_none_iff.mpr, Option.map_none]
  exact fun hm => absurd ((trim_eq_nil_iff l).mp h _ hm) (by decide)

/-- A text of lines is read exactly when each that is not blank has an equals sign, and its map
collects what the lines hold. -/
theorem parseStrict_unlines_eq_ok_iff {ε : Type} {err : ε} {ls : List Str} (h : ∀ l ∈ ls, '\n' ∉ l)
    {m : HashMap Str Str} : parseStrict err (unlines ls) = .ok m ↔
      (∀ l ∈ ls, trim l ≠ [] → (keyValue l).isSome) ∧ m = HashMap.collect (ls.filterMap keyValue) := by
  rw [parseStrict, lines_unlines h, HashMap.collect]
  generalize (∅ : HashMap Str Str) = start
  induction ls generalizing start with
  | nil =>
    constructor
    · intro heq
      exact ⟨by simp, (Except.ok.inj heq).symm⟩
    · rintro ⟨-, rfl⟩
      rfl
  | cons l ls ih =>
    rw [List.map_cons, List.foldlM_cons, bind_eq_ok, List.forall_mem_cons, trim_stripCr, keyValue_stripCr]
    have hrest := ih fun l hl => h l (List.mem_cons_of_mem _ hl)
    by_cases hblank : trim l = []
    · rw [if_pos hblank, List.filterMap_cons_none (keyValue_of_blank hblank)]
      simp [hblank, hrest]
    · rw [if_neg hblank]
      cases hkv : keyValue l with
      | none => simp [hblank]
      | some kv =>
        rw [List.filterMap_cons_some hkv, List.foldl_cons]
        simp [hrest]

/-- Safe rows pass the strict reading too. -/
theorem parseStrict_render {ε : Type} (err : ε) {rows : List (Str × Str)}
    (h : ∀ kv ∈ rows, SafeRow kv) :
    parseStrict err (render rows) = .ok (HashMap.collect rows) := by
  have hnewline : ∀ l ∈ rows.map row, '\n' ∉ l := List.forall_mem_map.mpr fun kv hkv => newline_not_mem_row (h kv hkv)
  refine (parseStrict_unlines_eq_ok_iff hnewline).mpr ⟨?_, by rw [filterMap_keyValue_row h]⟩
  exact List.forall_mem_map.mpr fun kv hkv _ => keyValue_row (h kv hkv) ▸ rfl

/-- The lines of a text of rows whose last value may have several lines. -/
theorem render_concat (rows : List (Str × Str)) (key value : Str) {first : Str} {rest : List Str}
    (h : value.splitOn '\n' = first :: rest) :
    render (rows ++ [(key, value)]) = unlines (rows.map row ++ row (key, first) :: rest) := by
  have hvalue := unlines_splitOn value
  rw [h, unlines, List.flatMap_cons] at hvalue
  rw [render, unlines, unlines, List.map_append, List.flatMap_append, List.flatMap_append, List.flatMap_cons]
  refine congrArg _ ?_
  simp only [row, List.map_cons, List.map_nil, List.flatMap_cons, List.flatMap_nil, List.append_nil,
    List.append_assoc, List.cons_append] at hvalue ⊢
  rw [← hvalue]

private theorem unlines_flatMap_splitOn (ls : List Str) : unlines (ls.flatMap (·.splitOn '\n')) = unlines ls := by
  rw [unlines, List.flatMap_assoc]
  exact List.flatMap_congr fun l _ => unlines_splitOn l

/-- A last row that is safe is found, whatever the rows before it are. -/
theorem lookup_of_parseStrict_render_concat {ε : Type} {err : ε} (rows : List (Str × Str)) {kv : Str × Str}
    (hkv : SafeRow kv) {m : HashMap Str Str} (h : parseStrict err (render (rows ++ [kv])) = .ok m) :
    m.lookup kv.1 = some kv.2 := by
  have hlast : [row kv].flatMap (·.splitOn '\n') = [row kv] := by
    rw [List.flatMap_singleton, List.splitOn_eq_singleton (newline_not_mem_row hkv)]
  rw [render, ← unlines_flatMap_splitOn, List.map_append, List.map_singleton, List.flatMap_append, hlast] at h
  have hlines : ∀ l ∈ (rows.map row).flatMap (·.splitOn '\n') ++ [row kv], '\n' ∉ l := by
    refine List.forall_mem_append.mpr ⟨fun l hl => ?_, List.forall_mem_singleton.mpr (newline_not_mem_row hkv)⟩
    obtain ⟨text, -, htext⟩ := List.mem_flatMap.mp hl
    exact not_mem_splitOn '\n' text l htext
  obtain ⟨-, rfl⟩ := (parseStrict_unlines_eq_ok_iff hlines).mp h
  rw [HashMap.lookup_collect, List.filterMap_append, List.filterMap_cons_some (keyValue_row hkv),
    List.filterMap_nil, List.filter_append, List.filter_cons_of_pos (by simp), List.filter_nil,
    List.getLast?_concat]
  rfl

def SafeValues (m : HashMap Str Str) : Prop := ∀ k v, m.lookup k = some v → WireSafe v

private theorem safeValues_empty : SafeValues ∅ := fun k v h => by simp at h

private theorem safeValues_insert {m : HashMap Str Str} {line : Str} {kv : Str × Str}
    (hm : SafeValues m) (hl : '\n' ∉ line) (hkv : keyValue line = some kv) :
    SafeValues (m.insert kv.1 kv.2) := by
  intro k v hv
  rw [HashMap.lookup_insert] at hv
  split at hv
  · obtain ⟨cut, hcut, rfl⟩ := Option.map_eq_some_iff.mp hkv
    obtain ⟨rfl, -⟩ := splitOnce_eq_some_iff.mp hcut
    cases hv
    exact wireSafe_trim fun hn => hl (by simp [hn])
  · exact hm k v hv

/-- Only safe values are read. -/
theorem safeValues_parse (text : Str) : SafeValues (parse text) := by
  rw [parse]
  have hlines := @newline_not_mem_lines text
  generalize lines text = ls at hlines
  suffices ∀ m : HashMap Str Str, SafeValues m → SafeValues (ls.foldl (fun m line =>
      match keyValue line with | some kv => m.insert kv.1 kv.2 | none => m) m) from
    this ∅ safeValues_empty
  induction ls with
  | nil => exact fun m hm => hm
  | cons l ls ih =>
    intro m hm
    refine ih (fun hl => hlines (List.mem_cons_of_mem _ hl)) _ ?_
    dsimp only
    split
    · exact safeValues_insert hm (hlines List.mem_cons_self) ‹_›
    · exact hm

/-- Only safe values are read in the strict way. -/
theorem safeValues_parseStrict {ε : Type} {err : ε} {text : Str} {m : HashMap Str Str}
    (h : parseStrict err text = .ok m) : SafeValues m := by
  rw [parseStrict] at h
  have hlines := @newline_not_mem_lines text
  generalize lines text = ls at hlines h
  have hm := safeValues_empty
  generalize (∅ : HashMap Str Str) = start at h hm
  induction ls generalizing start with
  | nil =>
    cases h
    exact hm
  | cons l ls ih =>
    rw [List.foldlM_cons, bind_eq_ok] at h
    obtain ⟨next, hnext, h⟩ := h
    refine ih (fun hl => hlines (List.mem_cons_of_mem _ hl)) next h ?_
    split at hnext
    · cases hnext
      exact hm
    · split at hnext
      · cases hnext
        exact safeValues_insert hm (hlines List.mem_cons_self) ‹_›
      · cases hnext

end Records
