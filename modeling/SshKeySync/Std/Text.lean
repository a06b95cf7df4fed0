import Mathlib.Data.List.DropRight

/-! Rust string slices as lists of Unicode scalar values: trimming and the two
one-separator splits, each with the equations its callers use. -/
namespace RustStd

/-- A `str`, given by its Unicode scalar values in order. -/
abbrev Str := List Char
abbrev Bytes := List UInt8

/-- `char::is_whitespace`: the code points with the Unicode White_Space property. -/
def isWhitespace (c : Char) : Bool :=
  (9 ≤ c.toNat && c.toNat ≤ 13) || c.toNat == 0x20 || c.toNat == 0x85 || c.toNat == 0xA0 ||
  c.toNat == 0x1680 || (0x2000 ≤ c.toNat && c.toNat ≤ 0x200A) || c.toNat == 0x2028 ||
  c.toNat == 0x2029 || c.toNat == 0x202F || c.toNat == 0x205F || c.toNat == 0x3000

def trimStart (s : Str) : Str := s.dropWhile isWhitespace
def trimEnd (s : Str) : Str := s.rdropWhile isWhitespace
def trim (s : Str) : Str := trimEnd (trimStart s)

def Unpadded (s : Str) : Prop :=
  (∀ c ∈ s.head?, isWhitespace c = false) ∧ ∀ c ∈ s.getLast?, isWhitespace c = false

instance (s : Str) : Decidable (Unpadded s) :=
  @instDecidableAnd _ _ (Option.decidableForallMem _) (Option.decidableForallMem _)

/-- `str::is_ascii`. -/
def isAscii (s : Str) : Bool := s.all fun c => c.toNat < 128

theorem lt_of_isAscii {s : Str} (h : isAscii s) : ∀ c ∈ s, c.toNat < 128 := fun c hc =>
  of_decide_eq_true (List.all_eq_true.mp h c hc)

private theorem trimStart_eq_self {s : Str} (h : ∀ c ∈ s.head?, isWhitespace c = false) :
    trimStart s = s := by
  cases s with
  | nil => rfl
  | cons c s => simp [trimStart, h c rfl]

private theorem trimEnd_eq_self {s : Str} (h : ∀ c ∈ s.getLast?, isWhitespace c = false) :
    trimEnd s = s := by
  refine List.rdropWhile_eq_self_iff.mpr fun hne => ?_
  simp [h (s.getLast hne) (List.getLast?_eq_getLast_of_ne_nil hne)]

/-- Without surrounding whitespace there is nothing to trim. -/
theorem trim_eq_self {s : Str} (h : Unpadded s) : trim s = s := by
  rw [trim, trimStart_eq_self h.1, trimEnd_eq_self h.2]

private theorem trimStart_head (s : Str) : ∀ c ∈ (trimStart s).head?, isWhitespace c = false := by
  intro c hc
  have hne : s.dropWhile isWhitespace ≠ [] := by rintro he; simp [trimStart, he] at hc
  have hnot := List.head_dropWhile_not isWhitespace hne
  rw [trimStart, List.head?_eq_some_head hne] at hc
  simpa [← Option.some.inj hc] using hnot

private theorem trimEnd_last (s : Str) : ∀ c ∈ (trimEnd s).getLast?, isWhitespace c = false := by
  intro c hc
  have hne : s.rdropWhile isWhitespace ≠ [] := by rintro he; simp [trimEnd, he] at hc
  have hnot := List.rdropWhile_last_not isWhitespace s hne
  rw [trimEnd, List.getLast?_eq_getLast_of_ne_nil hne] at hc
  simpa [← Option.some.inj hc] using hnot

/-- A trimmed text has no surrounding whitespace. -/
theorem trim_unpadded (s : Str) : Unpadded (trim s) := by
  refine ⟨?_, trimEnd_last _⟩
  intro c hc
  obtain ⟨tail, ht⟩ := List.rdropWhile_prefix isWhitespace (trimStart s)
  refine trimStart_head s c ?_
  have hhead : (List.rdropWhile isWhitespace (trimStart s)).head? = some c := hc
  rw [← ht, List.head?_append, hhead]
  rfl

theorem trim_infix_self (s : Str) : trim s <:+: s :=
  (List.rdropWhile_prefix isWhitespace _).isInfix.trans (List.dropWhile_suffix isWhitespace).isInfix

theorem mem_of_mem_trim {s : Str} {c : Char} (h : c ∈ trim s) : c ∈ s :=
  (trim_infix_self s).subset h

/-- Only of whitespace nothing is left. -/
theorem trim_eq_nil_iff (s : Str) : trim s = [] ↔ ∀ c ∈ s, isWhitespace c := by
  constructor
  · intro h c hc
    by_contra hw
    have hall := List.rdropWhile_eq_nil_iff.mp h
    have hne : s.dropWhile isWhitespace ≠ [] := fun he => hw (List.dropWhile_eq_nil_iff.mp he c hc)
    have hhead := hall _ (List.head_mem hne)
    rw [List.head_dropWhile_not isWhitespace hne] at hhead
    cases hhead
  · intro h
    rw [trim, trimStart, List.dropWhile_eq_nil_iff.mpr h]
    rfl

/-- Whitespace added at the end is trimmed again. -/
theorem trim_concat (s : Str) {c : Char} (h : isWhitespace c) : trim (s ++ [c]) = trim s := by
  rw [trim, trim, trimStart, trimStart, List.dropWhile_append]
  split
  · rename_i he
    rw [List.isEmpty_iff.mp he]
    simp [h]
  · exact List.rdropWhile_concat_pos _ _ _ h

/-- Whitespace at the end is trimmed. -/
theorem trim_append_of_blank (s : Str) {t : Str} (h : ∀ c ∈ t, isWhitespace c) : trim (s ++ t) = trim s := by
  induction t generalizing s with
  | nil => rw [List.append_nil]
  | cons c t ih =>
    obtain ⟨hc, ht⟩ := List.forall_mem_cons.mp h
    rw [← List.singleton_append, ← List.append_assoc, ih _ ht, trim_concat s hc]

/-- The characters that no trimming and no splitting into words removes. -/
def ink (s : Str) : Str := s.filter fun c => !isWhitespace c

@[simp] theorem ink_append (s t : Str) : ink (s ++ t) = ink s ++ ink t := List.filter_append ..

/-- A text without ink is blank. -/
theorem ink_eq_nil_iff {s : Str} : ink s = [] ↔ trim s = [] := by
  rw [trim_eq_nil_iff, ink, List.filter_eq_nil_iff]
  simp

/-- A text is its trimmed form with whitespace on both sides. -/
theorem padding_of_trim (s : Str) : ∃ leading trailing, (∀ c ∈ leading, isWhitespace c) ∧
    (∀ c ∈ trailing, isWhitespace c) ∧ leading ++ (trim s ++ trailing) = s := by
  refine ⟨s.takeWhile isWhitespace, (trimStart s).rtakeWhile isWhitespace, ?_, ?_, ?_⟩
  · exact fun c hc => List.mem_takeWhile_imp hc
  · exact fun c hc => List.mem_rtakeWhile_imp hc
  · rw [trim, trimEnd, List.rdropWhile_append_rtakeWhile, trimStart, List.takeWhile_append_dropWhile]

theorem ink_of_blank {s : Str} (h : ∀ c ∈ s, isWhitespace c) : ink s = [] :=
  List.filter_eq_nil_iff.mpr fun c hc => by simp [h c hc]

@[simp] theorem ink_trim (s : Str) : ink (trim s) = ink s := by
  obtain ⟨leading, trailing, hleading, htrailing, hs⟩ := padding_of_trim s
  conv_rhs => rw [← hs]
  rw [ink_append, ink_append, ink_of_blank hleading, ink_of_blank htrailing, List.nil_append, List.append_nil]

theorem trimEnd_concat (s : Str) {c : Char} (h : isWhitespace c) : trimEnd (s ++ [c]) = trimEnd s :=
  List.rdropWhile_concat_pos _ _ _ h

/-- `str::split_once` at the first separator. -/
def splitOnce (sep : Char) : Str → Option (Str × Str)
  | [] => none
  | c :: s => if c = sep then some ([], s) else (splitOnce sep s).map fun kv => (c :: kv.1, kv.2)

/-- A text is cut at its first separator. -/
theorem splitOnce_append {sep : Char} {k : Str} (v : Str) (h : sep ∉ k) :
    splitOnce sep (k ++ sep :: v) = some (k, v) := by
  induction k with
  | nil => simp [splitOnce]
  | cons c k ih =>
    obtain ⟨hc, hk⟩ := not_or.mp (List.mem_cons.not.mp h)
    simp [splitOnce, Ne.symm hc, ih hk]

/-- The first separator determines what stands before and after it. -/
theorem append_separator_inj {sep : Char} {a b s t : Str} (ha : sep ∉ a) (hb : sep ∉ b)
    (h : a ++ sep :: s = b ++ sep :: t) : a = b ∧ s = t := by
  have hsplit := congrArg (splitOnce sep) h
  rw [splitOnce_append s ha, splitOnce_append t hb] at hsplit
  exact Prod.mk.inj (Option.some.inj hsplit)

/-- Two pairs around a separator give one text when they are the same, or when the shorter first part
is followed in the other by what stands before a separator in its own second part. -/
theorem append_separator_eq_iff {sep : Char} {a b s t : Str} : a ++ sep :: s = b ++ sep :: t ↔
    (a = b ∧ s = t) ∨ (∃ mid, b = a ++ sep :: mid ∧ s = mid ++ sep :: t) ∨
      ∃ mid, a = b ++ sep :: mid ∧ t = mid ++ sep :: s := by
  have hright {x y u w : Str} (h : ∃ mid, y = x ++ mid ∧ sep :: u = mid ++ sep :: w) :
      (x = y ∧ u = w) ∨ ∃ mid, y = x ++ sep :: mid ∧ u = mid ++ sep :: w := by
    obtain ⟨mid, rfl, h⟩ := h
    cases mid with
    | nil => exact Or.inl ⟨(List.append_nil x).symm, (List.cons.inj h).2⟩
    | cons c mid =>
      obtain ⟨rfl, rfl⟩ := List.cons.inj h
      exact Or.inr ⟨mid, rfl, rfl⟩
  constructor
  · intro h
    rcases List.append_eq_append_iff.mp h with h | h
    · exact (hright h).imp_right Or.inl
    · rcases hright h with ⟨hba, hts⟩ | h
      · exact Or.inl ⟨hba.symm, hts.symm⟩
      · exact Or.inr (Or.inr h)
  · rintro (⟨rfl, rfl⟩ | ⟨mid, rfl, rfl⟩ | ⟨mid, rfl, rfl⟩)
    · rfl
    · rw [List.append_assoc, List.cons_append]
    · rw [List.append_assoc, List.cons_append]

/-- Where as many separators follow on both sides, both are cut at the same one. -/
theorem append_separator_inj_of_count {sep : Char} {a b s t : Str} (hcount : s.count sep = t.count sep)
    (h : a ++ sep :: s = b ++ sep :: t) : a = b ∧ s = t := by
  rcases append_separator_eq_iff.mp h with hsame | ⟨mid, -, rfl⟩ | ⟨mid, -, rfl⟩
  · exact hsame
  · rw [List.count_append, List.count_cons_self] at hcount
    omega
  · rw [List.count_append, List.count_cons_self] at hcount
    omega

/-- The cut is at the first separator. -/
theorem splitOnce_eq_some_iff {sep : Char} {s k v : Str} :
    splitOnce sep s = some (k, v) ↔ s = k ++ sep :: v ∧ sep ∉ k := by
  refine ⟨fun h => ?_, fun ⟨hs, hk⟩ => hs ▸ splitOnce_append v hk⟩
  induction s generalizing k with
  | nil => simp [splitOnce] at h
  | cons c s ih =>
    rw [splitOnce] at h
    split at h
    · rename_i hc
      cases h
      simp [hc]
    · rename_i hc
      obtain ⟨⟨k', v'⟩, hs, he⟩ := Option.map_eq_some_iff.mp h
      cases he
      obtain ⟨rfl, hk⟩ := ih hs
      simp [hk, Ne.symm hc]

/-- There is no cut where there is no separator. -/
theorem splitOnce_eq_none_iff {sep : Char} {s : Str} : splitOnce sep s = none ↔ sep ∉ s := by
  constructor
  · intro h hmem
    obtain ⟨k, v, rfl, hk⟩ := List.eq_append_cons_of_mem hmem
    rw [splitOnce_append v hk] at h
    cases h
  · intro h
    by_contra hsome
    obtain ⟨⟨k, v⟩, hs⟩ := Option.ne_none_iff_exists'.mp hsome
    obtain ⟨rfl, -⟩ := splitOnce_eq_some_iff.mp hs
    exact h (by simp)

/-- `str::rsplit_once`, at the last separator. -/
def rsplitOnce (sep : Char) : Str → Option (Str × Str)
  | [] => none
  | c :: s => match rsplitOnce sep s with
    | some kv => some (c :: kv.1, kv.2)
    | none => if c = sep then some ([], s) else none

/-- There is no cut where there is no separator. -/
theorem rsplitOnce_eq_none_iff {sep : Char} {s : Str} : rsplitOnce sep s = none ↔ sep ∉ s := by
  induction s with
  | nil => simp [rsplitOnce]
  | cons c s ih =>
    rw [rsplitOnce, List.mem_cons, not_or, ← ih]
    cases rsplitOnce sep s with
    | some kv => simp
    | none => simp [eq_comm]

/-- The cut is at the last separator. -/
theorem rsplitOnce_eq_some_iff {sep : Char} {s k v : Str} :
    rsplitOnce sep s = some (k, v) ↔ s = k ++ sep :: v ∧ sep ∉ v := by
  induction s generalizing k v with
  | nil => simp [rsplitOnce]
  | cons c s ih =>
    rw [rsplitOnce]
    cases hs : rsplitOnce sep s with
    | some kv =>
      obtain ⟨before, rest⟩ := kv
      obtain ⟨hsplit, hlast⟩ := ih.mp hs
      constructor
      · rintro ⟨⟩
        exact ⟨congrArg (c :: ·) hsplit, hlast⟩
      · rintro ⟨heq, hv⟩
        cases k with
        | nil =>
          obtain ⟨-, rfl⟩ := List.cons.inj heq
          rw [rsplitOnce_eq_none_iff.mpr hv] at hs
          cases hs
        | cons d k =>
          obtain ⟨rfl, hk⟩ := List.cons.inj heq
          cases Option.some.inj (hs.symm.trans (ih.mpr ⟨hk, hv⟩))
          rfl
    | none =>
      have hnot := rsplitOnce_eq_none_iff.mp hs
      dsimp only
      split
      · rename_i hc
        constructor
        · rintro ⟨⟩
          exact ⟨congrArg (List.cons · _) hc, hnot⟩
        · rintro ⟨heq, -⟩
          cases k with
          | nil => rw [(List.cons.inj heq).2]
          | cons d k => exact absurd ((List.cons.inj heq).2 ▸ by simp) hnot
      · rename_i hc
        refine iff_of_false nofun fun ⟨heq, _⟩ => ?_
        cases k with
        | nil => exact hc (List.cons.inj heq).1
        | cons d k => exact absurd ((List.cons.inj heq).2 ▸ by simp) hnot

end RustStd
