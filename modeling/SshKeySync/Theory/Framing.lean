import Mathlib.Data.List.Basic

/-! A header of terminated lines that ends at its first empty line. The end is found at the
same place in every stretch of the stream that is long enough, and before that nowhere. -/
namespace Framing
variable {β : Type} [DecidableEq β]

def find (needle : List β) : List β → Option Nat
  | [] => none
  | b :: s => if needle <+: b :: s then some 0 else (find needle s).map (· + 1)

/-- Each line with its terminator, and an empty line. -/
def header (cr lf : β) (ls : List (List β)) : List β := ls.flatMap (· ++ [cr, lf]) ++ [cr, lf]

def Line (lf : β) (l : List β) : Prop := l ≠ [] ∧ lf ∉ l

variable {needle s p : List β} {n : Nat}

/-- The place that is found is the first. -/
theorem find_eq_some_iff (hneedle : needle ≠ []) :
    find needle s = some n ↔ needle <+: s.drop n ∧ ∀ m < n, ¬ needle <+: s.drop m := by
  induction s generalizing n with
  | nil => simp [find, hneedle]
  | cons b s ih =>
    rw [find]
    by_cases hb : needle <+: b :: s
    · rw [if_pos hb, Option.some_inj]
      constructor
      · rintro rfl
        exact ⟨hb, nofun⟩
      · rintro ⟨-, hfirst⟩
        by_contra hn
        exact hfirst 0 (Nat.pos_of_ne_zero (Ne.symm hn)) hb
    · rw [if_neg hb]
      cases n with
      | zero => simp [hb]
      | succ n =>
        rw [Option.map_eq_some_iff]
        constructor
        · rintro ⟨k, hk, he⟩
          obtain rfl := Nat.succ.inj he
          obtain ⟨hat, hfirst⟩ := ih.mp hk
          refine ⟨hat, fun m hm => ?_⟩
          cases m with
          | zero => exact hb
          | succ m => exact hfirst m (Nat.lt_of_succ_lt_succ hm)
        · rintro ⟨hat, hfirst⟩
          exact ⟨n, ih.mpr ⟨hat, fun m hm => hfirst (m + 1) (Nat.succ_lt_succ hm)⟩, rfl⟩

/-- Nothing is found when there is no place. -/
theorem find_eq_none_iff (hneedle : needle ≠ []) :
    find needle s = none ↔ ∀ m, ¬ needle <+: s.drop m := by
  constructor
  · intro hnone m hm
    induction m using Nat.strongRecOn with
    | ind m ih =>
      have hsome := (find_eq_some_iff (n := m) hneedle).mpr ⟨hm, fun k hk hp => ih k hk hp⟩
      rw [hnone] at hsome
      cases hsome
  · intro h
    cases hf : find needle s with
    | none => rfl
    | some n => exact absurd ((find_eq_some_iff hneedle).mp hf).1 (h n)

omit [DecidableEq β] in
private theorem drop_prefix_drop (hp : p <+: s) (m : Nat) : p.drop m <+: s.drop m := by
  obtain ⟨t, rfl⟩ := hp
  rw [List.drop_append]
  exact List.prefix_append ..

/-- What has been read so far shows the first place once it reaches past it. -/
theorem find_of_prefix (hneedle : needle ≠ []) (hp : p <+: s) (h : find needle s = some n) :
    find needle p = if n + needle.length ≤ p.length then some n else none := by
  obtain ⟨hat, hfirst⟩ := (find_eq_some_iff hneedle).mp h
  split
  · rename_i hlen
    refine (find_eq_some_iff hneedle).mpr ⟨?_, fun m hm hmp => ?_⟩
    · refine List.prefix_of_prefix_length_le hat (drop_prefix_drop hp n) ?_
      rw [List.length_drop]
      omega
    · exact hfirst m hm (hmp.trans (drop_prefix_drop hp m))
  · rename_i hlen
    refine (find_eq_none_iff hneedle).mpr fun m hm => ?_
    have hle : n ≤ m := Nat.not_lt.mp fun hlt => hfirst m hlt (hm.trans (drop_prefix_drop hp m))
    have hlength := hm.length_le
    rw [List.length_drop] at hlength
    have hpos := List.length_pos_of_ne_nil hneedle
    omega

/-- What is not in a stream is not in a part of it. -/
theorem find_eq_none_of_prefix (hneedle : needle ≠ []) (hp : p <+: s) (h : find needle s = none) :
    find needle p = none :=
  (find_eq_none_iff hneedle).mpr fun m hm =>
    (find_eq_none_iff hneedle).mp h m (hm.trans (drop_prefix_drop hp m))

/-- A found needle lies in the text. -/
theorem find_add_length_le (hneedle : needle ≠ []) (h : find needle s = some n) :
    n + needle.length ≤ s.length := by
  have hlength := ((find_eq_some_iff hneedle).mp h).1.length_le
  have hpos := List.length_pos_of_ne_nil hneedle
  rw [List.length_drop] at hlength
  omega

omit [DecidableEq β] in
theorem four_le_length_header (cr lf : β) {ls : List (List β)} (h : ls ≠ []) :
    4 ≤ (header cr lf ls).length := by
  obtain ⟨l, ls, rfl⟩ := List.exists_cons_of_ne_nil h
  simp only [header, List.flatMap_cons, List.length_append, List.length_cons, List.length_nil]
  omega

section
variable {cr lf : β} (hne : cr ≠ lf) {l tail : List β}
include hne

private theorem find_line (hl : lf ∉ l) : find [cr, lf, cr, lf] (l ++ cr :: lf :: tail) =
    (find [cr, lf, cr, lf] (cr :: lf :: tail)).map (· + l.length) := by
  induction l with
  | nil => simp
  | cons b l ih =>
    obtain ⟨-, hmem⟩ := not_or.mp (List.mem_cons.not.mp hl)
    have hno : ¬ [cr, lf, cr, lf] <+: b :: (l ++ cr :: lf :: tail) := by
      rw [List.cons_prefix_cons]
      rintro ⟨-, hrest⟩
      cases l with
      | nil => exact hne (List.cons_prefix_cons.mp hrest).1.symm
      | cons c l => exact hmem (by simp [(List.cons_prefix_cons.mp hrest).1])
    rw [List.cons_append, find, if_neg hno, ih hmem, Option.map_map]
    rfl

private theorem find_terminator (hl : Line lf l) : find [cr, lf, cr, lf] (cr :: lf :: (l ++ cr :: lf :: tail)) =
    (find [cr, lf, cr, lf] (l ++ cr :: lf :: tail)).map (· + 2) := by
  have hfirst : ¬ [cr, lf, cr, lf] <+: cr :: lf :: (l ++ cr :: lf :: tail) := by
    obtain ⟨b, l, rfl⟩ := List.exists_cons_of_ne_nil hl.1
    simp only [List.cons_append, List.cons_prefix_cons, true_and]
    rintro ⟨-, hlf⟩
    cases l with
    | nil => exact hne (List.cons_prefix_cons.mp hlf).1.symm
    | cons c l => exact hl.2 (by simp [(List.cons_prefix_cons.mp hlf).1])
  have hsecond : ¬ [cr, lf, cr, lf] <+: lf :: (l ++ cr :: lf :: tail) :=
    fun h => hne (List.cons_prefix_cons.mp h).1
  rw [find, if_neg hfirst, find, if_neg hsecond, Option.map_map]
  rfl

/-- The empty line after the header's lines is the first one. -/
theorem find_header {ls : List (List β)} (hls : ls ≠ []) (h : ∀ l ∈ ls, Line lf l) (rest : List β) :
    find [cr, lf, cr, lf] (header cr lf ls ++ rest) = some ((header cr lf ls).length - 4) := by
  induction ls with
  | nil => exact absurd rfl hls
  | cons l ls ih =>
    obtain ⟨hl, hrest⟩ := List.forall_mem_cons.mp h
    have hcons : header cr lf (l :: ls) ++ rest = l ++ cr :: lf :: (header cr lf ls ++ rest) := by
      simp [header]
    have hlength : (header cr lf (l :: ls)).length = l.length + 2 + (header cr lf ls).length := by
      simp [header]
      omega
    rw [hcons, find_line hne hl.2, hlength]
    cases ls with
    | nil => simp [find, header]
    | cons l' ls' =>
      have hnext : header cr lf (l' :: ls') ++ rest = l' ++ cr :: lf :: (header cr lf ls' ++ rest) := by
        simp [header]
      have hlen := four_le_length_header cr lf (List.cons_ne_nil l' ls')
      have hrec := ih (List.cons_ne_nil l' ls') hrest
      rw [hnext] at hrec ⊢
      rw [find_terminator hne (hrest l' List.mem_cons_self), hrec]
      simp only [Option.map_some, Option.some_inj]
      omega

end

end Framing
