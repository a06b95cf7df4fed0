import Mathlib.Data.List.Chain
import SshKeySync.Std.Text

/-! Line and word structure of a text. Joining and splitting are inverse only up
to one carriage return before each newline and an empty last line. -/
namespace RustStd

/-- The part of a newline-terminated piece that `lines` returns: one trailing
carriage return belongs to the line ending. -/
def stripCr (l : Str) : Str := if l.getLast? = some '\r' then l.dropLast else l

/-- `str::lines`. A last piece without newline is returned unchanged, and an
empty one is not a line. -/
def lines (s : Str) : List Str :=
  (s.splitOn '\n').dropLast.map stripCr ++ (s.splitOn '\n').getLast?.toList.filter (· ≠ [])

/-- `[String]::join("\n")`. -/
def joinLines (ls : List Str) : Str := ['\n'].intercalate ls

/-- Every line followed by its newline, as repeated `push('\n')` writes it. -/
def unlines (ls : List Str) : Str := ls.flatMap (· ++ ['\n'])

theorem stripCr_concat (l : Str) : stripCr (l ++ ['\r']) = l := by simp [stripCr]

/-- A line without a return at its end is left alone. -/
theorem stripCr_eq_self_iff {l : Str} : stripCr l = l ↔ l.getLast? ≠ some '\r' := by
  rw [stripCr]
  split
  · rename_i h
    refine iff_of_false (fun he => ?_) (not_not.mpr h)
    have hlen := congrArg List.length he
    have hpos := List.length_pos_of_ne_nil (l := l) (by rintro rfl; cases h)
    rw [List.length_dropLast] at hlen
    omega
  · rename_i h
    exact iff_of_true rfl h

theorem stripCr_eq_self {l : Str} (h : Unpadded l) : stripCr l = l :=
  stripCr_eq_self_iff.mpr fun hl => absurd (h.2 _ hl) (by decide)

/-- Either nothing is stripped or exactly a final carriage return is. -/
theorem stripCr_cases (l : Str) : stripCr l = l ∨ l = stripCr l ++ ['\r'] := by
  rw [stripCr]
  split
  · rename_i h
    exact Or.inr (List.dropLast_append_getLast? _ h).symm
  · exact Or.inl rfl

@[simp] theorem trim_stripCr (l : Str) : trim (stripCr l) = trim l := by
  rcases stripCr_cases l with h | h
  · rw [h]
  · conv_rhs => rw [h]
    exact (trim_concat _ (by decide)).symm

@[simp] theorem trimEnd_stripCr (l : Str) : trimEnd (stripCr l) = trimEnd l := by
  rcases stripCr_cases l with h | h
  · rw [h]
  · conv_rhs => rw [h]
    exact (trimEnd_concat _ (by decide)).symm

theorem mem_of_mem_stripCr {l : Str} {c : Char} (h : c ∈ stripCr l) : c ∈ l := by
  rcases stripCr_cases l with he | he
  · rwa [he] at h
  · rw [he]; exact List.mem_append_left _ h

/-- No piece holds the separator. -/
theorem not_mem_splitOn (sep : Char) (s : Str) : ∀ l ∈ s.splitOn sep, sep ∉ l := by
  induction s with
  | nil => simp
  | cons c s ih =>
    rw [List.splitOn_cons_eq_if_modifyHead]
    split
    · simpa using ih
    · rename_i hc
      have hn : c ≠ sep := by simpa using hc
      cases hs : s.splitOn sep with
      | nil => simp
      | cons p ps =>
        rw [hs] at ih
        simpa [Ne.symm hn] using ih

/-- No line holds a newline. -/
theorem newline_not_mem_lines {s l : Str} (h : l ∈ lines s) : '\n' ∉ l := by
  have hs := not_mem_splitOn '\n' s
  rcases List.mem_append.mp h with h | h
  · obtain ⟨p, hp, rfl⟩ := List.mem_map.mp h
    exact fun hn => hs p (List.dropLast_subset _ hp) (mem_of_mem_stripCr hn)
  · refine hs l ?_
    have hl := (List.mem_filter.mp h).1
    exact List.mem_of_getLast? (Option.mem_toList.mp hl)

/-- What becomes of lines that are joined and split again: those before a newline lose
their carriage return, and the last one is lost if it is empty. -/
def reread (ls : List Str) : List Str :=
  ls.dropLast.map stripCr ++ ls.getLast?.toList.filter (· ≠ [])

/-- Joined lines are split again, up to their last line and their returns. -/
theorem lines_joinLines {ls : List Str} (h : ∀ l ∈ ls, '\n' ∉ l) : lines (joinLines ls) = reread ls := by
  cases ls with
  | nil => rfl
  | cons l ls => rw [lines, joinLines, List.splitOn_intercalate _ h (List.cons_ne_nil l ls), reread]

/-- Of two lists that are read again, the last line of the first is followed by a newline. -/
theorem reread_append (ls : List Str) {ls' : List Str} (h : ls' ≠ []) :
    reread (ls ++ ls') = ls.map stripCr ++ reread ls' := by
  rw [reread, reread, List.dropLast_append_of_ne_nil h, List.map_append, List.getLast?_append,
    List.getLast?_eq_getLast_of_ne_nil h, List.append_assoc]
  rfl

/-- A line that keeps its form separates what is read before it from what is read after. -/
theorem reread_append_cons (ls : List Str) {l : Str} (ls' : List Str) (hcr : stripCr l = l)
    (hl : l ≠ []) : reread (ls ++ l :: ls') = ls.map stripCr ++ l :: reread ls' := by
  rw [reread_append ls (List.cons_ne_nil l ls')]
  cases ls' with
  | nil => simp [reread, hl]
  | cons l' ls' =>
    have hsplit := reread_append [l] (List.cons_ne_nil l' ls')
    rw [List.singleton_append, List.map_singleton, hcr] at hsplit
    rw [hsplit, List.singleton_append]

/-- Terminated lines are lines that are joined with an empty one. -/
theorem unlines_eq_joinLines (ls : List Str) : unlines ls = joinLines (ls ++ [[]]) := by
  induction ls with
  | nil => rfl
  | cons l ls ih =>
    rw [unlines, List.flatMap_cons, joinLines, List.cons_append,
      List.intercalate_cons_of_ne_nil (by simp)]
    simpa [unlines, joinLines] using ih

/-- Terminated lines are read back without their returns. -/
theorem lines_unlines {ls : List Str} (h : ∀ l ∈ ls, '\n' ∉ l) :
    lines (unlines ls) = ls.map stripCr := by
  rw [unlines_eq_joinLines, lines_joinLines]
  · simp [reread]
  · intro l hl
    rcases List.mem_append.mp hl with hl | hl
    · exact h l hl
    · simp [List.mem_singleton.mp hl]

/-- There is a newline for each line. -/
theorem count_newline_unlines {ls : List Str} (h : ∀ l ∈ ls, '\n' ∉ l) : (unlines ls).count '\n' = ls.length := by
  induction ls with
  | nil => rfl
  | cons l ls ih =>
    obtain ⟨hl, hls⟩ := List.forall_mem_cons.mp h
    rw [unlines, List.flatMap_cons, ← unlines, List.count_append, ih hls, List.count_append,
      List.count_eq_zero.mpr hl, List.count_singleton_self, List.length_cons]
    omega

/-- A text with a newline is written as the lines it is split into. -/
theorem unlines_splitOn (s : Str) : unlines (s.splitOn '\n') = s ++ ['\n'] := by
  have hjoin (ls : List Str) (hne : ls ≠ []) : unlines ls = joinLines ls ++ ['\n'] := by
    induction ls with
    | nil => exact absurd rfl hne
    | cons l ls ih => cases ls with
      | nil => simp [unlines, joinLines]
      | cons l' ls =>
        have hrest := ih (List.cons_ne_nil l' ls)
        rw [joinLines, List.intercalate_cons_cons, unlines, List.flatMap_cons, ← unlines, hrest, joinLines]
        simp
  rw [hjoin _ (List.splitOn_ne_nil '\n' s), joinLines, List.intercalate_splitOn]

@[simp] theorem ink_unlines_cons (l : Str) (ls : List Str) : ink (unlines (l :: ls)) = ink l ++ ink (unlines ls) := by
  rw [unlines, List.flatMap_cons, ink_append, ink_append, ← unlines, show ink ['\n'] = [] from rfl, List.append_nil]

/-- A line has no more ink than the text it is in. -/
theorem length_ink_le {l : Str} {ls : List Str} (h : l ∈ ls) : (ink l).length ≤ (ink (unlines ls)).length := by
  obtain ⟨before, after, rfl⟩ := List.append_of_mem h
  rw [unlines, List.flatMap_append, ink_append, ← unlines, ← unlines, ink_unlines_cons, List.length_append,
    List.length_append]
  omega

/-- `str::split_whitespace`. -/
def splitWhitespace (s : Str) : List Str := (s.splitOnP isWhitespace).filter (· ≠ [])

/-- `[&str]::join(" ")`. -/
def joinWords (ws : List Str) : Str := [' '].intercalate ws

def Word (w : Str) : Prop := w ≠ [] ∧ ∀ c ∈ w, isWhitespace c = false

instance (w : Str) : Decidable (Word w) :=
  @instDecidableAnd _ _ inferInstance (List.decidableBAll _ w)

private theorem splitOnP_whitespace_free (s : Str) :
    ∀ w ∈ s.splitOnP isWhitespace, ∀ c ∈ w, isWhitespace c = false := by
  induction s with
  | nil => simp
  | cons c s ih =>
    rw [List.splitOnP_cons_eq_if_modifyHead]
    split
    · simpa using ih
    · rename_i hc
      cases hs : s.splitOnP isWhitespace with
      | nil => simp
      | cons p ps =>
        rw [hs] at ih
        simpa [hc] using ih

/-- What stands between whitespace are words. -/
theorem word_of_mem_splitWhitespace {s w : Str} (h : w ∈ splitWhitespace s) : Word w := by
  obtain ⟨hw, hne⟩ := List.mem_filter.mp h
  exact ⟨by simpa using hne, splitOnP_whitespace_free s w hw⟩

/-- Splitting into words keeps every other character. -/
theorem flatten_splitWhitespace (s : Str) : (splitWhitespace s).flatten = ink s := by
  rw [splitWhitespace, List.flatten_filter_ne_nil]
  induction s with
  | nil => rfl
  | cons c s ih =>
    rw [List.splitOnP_cons_eq_if_modifyHead, ink, List.filter_cons]
    obtain ⟨p, ps, hs⟩ := List.exists_cons_of_ne_nil (List.splitOnP_ne_nil isWhitespace s)
    rw [hs] at ih ⊢
    by_cases hc : isWhitespace c = true
    · rw [if_pos hc, if_neg (by simp [hc])]
      exact ih
    · rw [if_neg hc, if_pos (by simp [hc])]
      exact congrArg (c :: ·) ih

/-- A whitespace character separates words wherever it stands. -/
theorem splitWhitespace_append_cons (s : Str) {c : Char} (hc : isWhitespace c) (t : Str) :
    splitWhitespace (s ++ c :: t) = splitWhitespace s ++ splitWhitespace t := by
  rw [splitWhitespace, List.splitOnP_append_cons s t hc, List.filter_append]
  rfl

/-- Whitespace in front makes no difference. -/
theorem splitWhitespace_blank_append {s : Str} (h : ∀ c ∈ s, isWhitespace c) (t : Str) :
    splitWhitespace (s ++ t) = splitWhitespace t := by
  induction s with
  | nil => rfl
  | cons c s ih =>
    obtain ⟨hc, hs⟩ := List.forall_mem_cons.mp h
    exact (splitWhitespace_append_cons [] hc (s ++ t)).trans (ih hs)

/-- Whitespace at the end makes no word. -/
theorem splitWhitespace_append_blank (s : Str) {t : Str} (h : ∀ c ∈ t, isWhitespace c) :
    splitWhitespace (s ++ t) = splitWhitespace s := by
  cases t with
  | nil => rw [List.append_nil]
  | cons c t =>
    obtain ⟨hc, ht⟩ := List.forall_mem_cons.mp h
    have hblank := splitWhitespace_blank_append ht []
    rw [List.append_nil] at hblank
    rw [splitWhitespace_append_cons s hc, hblank]
    exact List.append_nil _

/-- Trimming takes no word away. -/
@[simp] theorem splitWhitespace_trim (s : Str) : splitWhitespace (trim s) = splitWhitespace s := by
  obtain ⟨leading, trailing, hleading, htrailing, hs⟩ := padding_of_trim s
  conv_rhs => rw [← hs]
  rw [splitWhitespace_blank_append hleading, splitWhitespace_append_blank _ htrailing]

/-- Joined words are split again. -/
theorem splitWhitespace_joinWords {ws : List Str} (h : ∀ w ∈ ws, Word w) :
    splitWhitespace (joinWords ws) = ws := by
  induction ws with
  | nil => rfl
  | cons w ws ih =>
    obtain ⟨hw, hws⟩ := List.forall_mem_cons.mp h
    cases ws with
    | nil =>
      rw [splitWhitespace, joinWords, List.intercalate_singleton, List.splitOnP_eq_singleton hw.2]
      simp [hw.1]
    | cons v ws =>
      have hsplit := List.splitOnP_append_cons_of_forall_mem hw.2 ' ' (by decide)
        ([' '].intercalate (v :: ws))
      rw [splitWhitespace, joinWords, List.intercalate_cons_cons, List.append_assoc,
        List.singleton_append, hsplit, List.filter_cons_of_pos (by simpa using hw.1)]
      exact congrArg _ (ih hws)

/-- A word has no surrounding whitespace. -/
theorem Word.unpadded {w : Str} (h : Word w) : Unpadded w :=
  ⟨fun c hc => h.2 c (List.mem_of_head? hc), fun c hc => h.2 c (List.mem_of_getLast? hc)⟩

@[simp] theorem joinWords_singleton (w : Str) : joinWords [w] = w := List.intercalate_singleton

theorem joinWords_cons_cons (w v : Str) (ws : List Str) :
    joinWords (w :: v :: ws) = w ++ ' ' :: joinWords (v :: ws) := by
  rw [joinWords, List.intercalate_cons_cons, List.append_assoc]
  rfl

/-- Joined words have no whitespace around them. -/
theorem unpadded_joinWords {ws : List Str} (h : ∀ w ∈ ws, Word w) : Unpadded (joinWords ws) := by
  induction ws with
  | nil => exact ⟨nofun, nofun⟩
  | cons w ws ih =>
    obtain ⟨hw, hws⟩ := List.forall_mem_cons.mp h
    cases ws with
    | nil => rw [joinWords_singleton]; exact hw.unpadded
    | cons v ws =>
      rw [joinWords_cons_cons]
      refine ⟨fun c hc => ?_, fun c hc => ?_⟩
      · rw [List.head?_append_of_ne_nil _ hw.1] at hc
        exact hw.unpadded.1 c hc
      · rw [List.getLast?_append, List.getLast?_cons] at hc
        cases hl : (joinWords (v :: ws)).getLast? with
        | none =>
          have hnil := List.getLast?_eq_none_iff.mp hl
          have hv := congrArg splitWhitespace hnil
          rw [splitWhitespace_joinWords hws] at hv
          cases hv
        | some d =>
          have hcd : c = d := by simpa [hl, eq_comm] using hc
          exact hcd ▸ (ih hws).2 d hl

/-- Joined words hold their own characters and blanks. -/
theorem mem_joinWords {ws : List Str} {c : Char} (h : c ∈ joinWords ws) :
    c = ' ' ∨ ∃ w ∈ ws, c ∈ w := by
  induction ws with
  | nil => cases h
  | cons w ws ih => cases ws with
    | nil => exact Or.inr ⟨w, List.mem_singleton_self w, by simpa using h⟩
    | cons v ws =>
      rw [joinWords_cons_cons, List.mem_append, List.mem_cons] at h
      rcases h with h | h | h
      · exact Or.inr ⟨w, List.mem_cons_self, h⟩
      · exact Or.inl h
      · rcases ih h with h | ⟨x, hx, hc⟩
        · exact Or.inl h
        · exact Or.inr ⟨x, List.mem_cons_of_mem _ hx, hc⟩

def SingleSpaced (s : Str) : Prop := s.IsChain fun c d => ¬ (isWhitespace c ∧ isWhitespace d)

/-- A word has no space in it. -/
theorem Word.singleSpaced {w : Str} (h : Word w) : SingleSpaced w := by
  refine List.Pairwise.isChain (List.pairwise_of_forall_mem_list fun c hc d hd hblank => ?_)
  rw [h.2 c hc] at hblank
  exact Bool.false_ne_true hblank.1

/-- Words are joined by one blank each. -/
theorem singleSpaced_joinWords {ws : List Str} (h : ∀ w ∈ ws, Word w) : SingleSpaced (joinWords ws) := by
  induction ws with
  | nil => exact .nil
  | cons w ws ih =>
    obtain ⟨hw, hws⟩ := List.forall_mem_cons.mp h
    cases ws with
    | nil => rw [joinWords_singleton]; exact hw.singleSpaced
    | cons v ws =>
      rw [joinWords_cons_cons, SingleSpaced, List.isChain_append, List.isChain_cons]
      refine ⟨hw.singleSpaced, ⟨fun d hd hblank => ?_, ih hws⟩, fun c hc d _ hblank => ?_⟩
      · exact Bool.false_ne_true (((unpadded_joinWords hws).1 d hd).symm.trans hblank.2)
      · exact Bool.false_ne_true ((hw.unpadded.2 c hc).symm.trans hblank.1)

end RustStd
