import Mathlib.Data.List.TakeWhile

/-! A block between two marks in a list, and the two parts an editor keeps that looks for
the first of each mark independently. By the arrangement of the marks, what lies outside
the block is what is kept, or only part of it. -/
namespace MarkedBlock
variable {α : Type} (isBegin isEnd : α → Bool)

/-- Everything but the block from the first begin to the first end after it. -/
def outside (ls : List α) : List α :=
  match ls.dropWhile (! isBegin ·) with
  | [] => ls
  | _ :: rest => match rest.dropWhile (! isEnd ·) with
    | [] => ls
    | _ :: after => ls.takeWhile (! isBegin ·) ++ after

/-- Before the first begin, and after the first end; everything when there is no begin. -/
def kept (ls : List α) : List α × List α :=
  match ls.findIdx? isBegin, ls.findIdx? isEnd with
  | some first, some last => (ls.take first, ls.drop (last + 1))
  | _, _ => (ls, [])

/-- How the first marks of a list stand to each other, unless only begins are there. -/
inductive Arrangement : List α → Prop
  | absent {ls : List α} (hbegin : ∀ z ∈ ls, isBegin z = false) : Arrangement ls
  | ordered {before : List α} {x : α} {inside : List α} {y : α} {after : List α}
      (hbegin : ∀ z ∈ before, isBegin z = false) (hend : ∀ z ∈ before, isEnd z = false)
      (hx : isBegin x) (hx' : isEnd x = false) (hinside : ∀ z ∈ inside, isEnd z = false) (hy : isEnd y) :
      Arrangement (before ++ x :: (inside ++ y :: after))
  | stray {before : List α} {y : α} {between : List α} {x : α} {rest : List α}
      (hend : ∀ z ∈ before, isEnd z = false) (hy : isEnd y)
      (hbegin : ∀ z ∈ before ++ y :: between, isBegin z = false) (hx : isBegin x)
      (hx' : isEnd x = false) :
      Arrangement (before ++ y :: (between ++ x :: rest))

/-- The code's condition for keeping exactly what lies outside: the first begin precedes the
first end, or no end follows it and nothing significant stands between the two. -/
def InOrder (significant : α → Bool) (ls : List α) : Prop :=
  match ls.findIdx? isBegin, ls.findIdx? isEnd with
  | some first, some last => first < last ∨ (∀ z ∈ ls.drop first, isEnd z = false) ∧
      ∀ z ∈ (ls.take first).drop (last + 1), significant z = false
  | _, _ => True

variable {isBegin isEnd} {before inside between after rest ls : List α} {x y : α}

private theorem split_first {p : α → Bool} (h : ∃ z ∈ ls, p z) : ∃ before x after,
    ls = before ++ x :: after ∧ (∀ z ∈ before, p z = false) ∧ p x := by
  induction ls with
  | nil => simp at h
  | cons z ls ih =>
    by_cases hz : p z
    · exact ⟨[], z, ls, rfl, nofun, hz⟩
    · obtain ⟨before, x, after, rfl, hbefore, hx⟩ := ih (by simpa [hz] using h)
      refine ⟨z :: before, x, after, rfl, ?_, hx⟩
      intro w hw
      rcases List.mem_cons.mp hw with rfl | hw
      · simpa using hz
      · exact hbefore w hw

/-- The first element with a property is found. -/
theorem findIdx?_first {p : α → Bool} (h : ∀ z ∈ before, p z = false) (hx : p x) :
    (before ++ x :: after).findIdx? p = some before.length := by
  rw [List.findIdx?_append, List.findIdx?_eq_none_iff.mpr h]
  simp [List.findIdx?_cons, hx]

/-- Unless a begin stands in a list without ends, one of the three arrangements holds. -/
theorem arrangement (hdisjoint : ∀ z, isBegin z → isEnd z = false)
    (h : (∃ z ∈ ls, isBegin z) → ∃ z ∈ ls, isEnd z) : Arrangement isBegin isEnd ls := by
  by_cases hbegin : ∃ z ∈ ls, isBegin z
  · obtain ⟨w, hw, hwend⟩ := h hbegin
    obtain ⟨before, x, rest, rfl, hbefore, hx⟩ := split_first hbegin
    by_cases hend : ∃ z ∈ before, isEnd z
    · obtain ⟨first, y, between, rfl, hfirst, hy⟩ := split_first hend
      rw [List.append_assoc]
      exact .stray hfirst hy hbefore hx (hdisjoint x hx)
    · have hbefore' : ∀ z ∈ before, isEnd z = false := by simpa using hend
      have hrest : ∃ z ∈ rest, isEnd z := by
        rcases List.mem_append.mp hw with hw | hw
        · exact absurd ⟨w, hw, hwend⟩ hend
        · rcases List.mem_cons.mp hw with rfl | hw
          · rw [hdisjoint _ hx] at hwend
            cases hwend
          · exact ⟨w, hw, hwend⟩
      obtain ⟨inside, y, after, rfl, hinside, hy⟩ := split_first hrest
      exact .ordered hbefore hbefore' hx (hdisjoint x hx) hinside hy
  · exact .absent (by simpa using hbegin)

/-- Without a begin there is no block. -/
theorem outside_absent (h : ∀ z ∈ ls, isBegin z = false) : outside isBegin isEnd ls = ls := by
  have hdrop : ls.dropWhile (! isBegin ·) = [] :=
    List.dropWhile_eq_nil_iff.mpr fun z hz => by simp [h z hz]
  rw [outside, hdrop]

/-- Without a begin everything is kept. -/
theorem kept_absent (h : ∀ z ∈ ls, isBegin z = false) : kept isBegin isEnd ls = (ls, []) := by
  rw [kept, List.findIdx?_eq_none_iff.mpr h]

private theorem drop_before {p : α → Bool} (h : ∀ z ∈ before, p z = false) (hx : p x) :
    (before ++ x :: rest).dropWhile (! p ·) = x :: rest := by
  rw [List.dropWhile_append_of_pos fun z hz => by simp [h z hz]]
  exact List.dropWhile_cons_of_neg (by simp [hx])

private theorem take_before {p : α → Bool} (h : ∀ z ∈ before, p z = false) (hx : p x) :
    (before ++ x :: rest).takeWhile (! p ·) = before := by
  rw [List.takeWhile_append_of_pos fun z hz => by simp [h z hz],
    List.takeWhile_cons_of_neg (by simp [hx]), List.append_nil]

/-- A begin and its end are taken away with what they enclose. -/
theorem outside_block (hbefore : ∀ z ∈ before, isBegin z = false) (hx : isBegin x)
    (hinside : ∀ z ∈ inside, isEnd z = false) (hy : isEnd y) :
    outside isBegin isEnd (before ++ x :: (inside ++ y :: after)) = before ++ after := by
  simp only [outside, drop_before hbefore hx, drop_before hinside hy, take_before hbefore hx]

/-- A begin without an end takes nothing away. -/
theorem outside_open (hbefore : ∀ z ∈ before, isBegin z = false) (hx : isBegin x)
    (hrest : ∀ z ∈ rest, isEnd z = false) :
    outside isBegin isEnd (before ++ x :: rest) = before ++ x :: rest := by
  have hdrop : rest.dropWhile (! isEnd ·) = [] :=
    List.dropWhile_eq_nil_iff.mpr fun z hz => by simp [hrest z hz]
  simp only [outside, drop_before hbefore hx, hdrop]

/-- Of a begin and its end what stands before and after is kept. -/
theorem kept_ordered (hbegin : ∀ z ∈ before, isBegin z = false)
    (hend : ∀ z ∈ before, isEnd z = false) (hx : isBegin x) (hx' : isEnd x = false)
    (hinside : ∀ z ∈ inside, isEnd z = false) (hy : isEnd y) :
    kept isBegin isEnd (before ++ x :: (inside ++ y :: after)) = (before, after) := by
  have hmiddle : before ++ x :: (inside ++ y :: after) = (before ++ x :: inside) ++ y :: after := by
    simp
  have hends : ∀ z ∈ before ++ x :: inside, isEnd z = false := by
    simp only [List.forall_mem_append, List.forall_mem_cons]
    exact ⟨hend, hx', hinside⟩
  rw [kept, findIdx?_first hbegin hx, hmiddle, findIdx?_first hends hy]
  dsimp only
  rw [← List.drop_drop, List.drop_left, ← hmiddle, List.take_left]
  rfl

/-- After a stray end everything is kept, and what stands between it and the begin twice. -/
theorem kept_stray (hend : ∀ z ∈ before, isEnd z = false) (hy : isEnd y)
    (hbegin : ∀ z ∈ before ++ y :: between, isBegin z = false) (hx : isBegin x) :
    kept isBegin isEnd (before ++ y :: (between ++ x :: rest)) =
      (before ++ y :: between, between ++ x :: rest) := by
  have hmiddle : before ++ y :: (between ++ x :: rest) = (before ++ y :: between) ++ x :: rest := by
    simp
  rw [kept, findIdx?_first hend hy, hmiddle, findIdx?_first hbegin hx]
  dsimp only
  rw [← List.drop_drop, ← hmiddle, List.drop_left, hmiddle, List.take_left]
  rfl

/-- What is kept was there. -/
theorem mem_of_mem_kept {z : α}
    (h : z ∈ (kept isBegin isEnd ls).1 ++ (kept isBegin isEnd ls).2) : z ∈ ls := by
  unfold kept at h
  split at h
  · rcases List.mem_append.mp h with h | h
    · exact List.mem_of_mem_take h
    · exact List.mem_of_mem_drop h
  · simpa using h

/-- No begin is kept before the new block. -/
theorem kept_no_begin (h : Arrangement isBegin isEnd ls) :
    ∀ z ∈ (kept isBegin isEnd ls).1, isBegin z = false := by
  cases h with
  | absent hbegin => rwa [kept_absent hbegin]
  | ordered hbegin hend hx hx' hinside hy => rwa [kept_ordered hbegin hend hx hx' hinside hy]
  | stray hend hy hbegin hx => rwa [kept_stray hend hy hbegin hx]

private theorem outside_stray (isEnd : α → Bool) (hbegin : ∀ z ∈ before, isBegin z = false) (hx : isBegin x) :
    ((∀ z ∈ rest, isEnd z = false) ∧
        outside isBegin isEnd (before ++ x :: rest) = before ++ x :: rest) ∨
      ∃ z after, isEnd z ∧ z ∈ rest ∧ after.Sublist rest ∧
        outside isBegin isEnd (before ++ x :: rest) = before ++ after := by
  by_cases hend : ∃ z ∈ rest, isEnd z
  · obtain ⟨inside, z, after, rfl, hinside, hz⟩ := split_first hend
    refine Or.inr ⟨z, after, hz, by simp, ?_, outside_block hbegin hx hinside hz⟩
    exact (List.sublist_cons_self z after).trans (List.sublist_append_right inside _)
  · have hrest : ∀ z ∈ rest, isEnd z = false := by simpa using hend
    exact Or.inl ⟨hrest, outside_open hbegin hx hrest⟩

/-- What lies outside the block is always kept. -/
theorem outside_sublist_kept (h : Arrangement isBegin isEnd ls) :
    (outside isBegin isEnd ls).Sublist
      ((kept isBegin isEnd ls).1 ++ (kept isBegin isEnd ls).2) := by
  cases h with
  | absent hbegin =>
    have hsame : outside isBegin isEnd ls = (kept isBegin isEnd ls).1 ++ (kept isBegin isEnd ls).2 := by
      rw [outside_absent hbegin, kept_absent hbegin, List.append_nil]
    exact hsame ▸ List.Sublist.refl _
  | @ordered before x inside y after hbegin hend hx hx' hinside hy =>
    have hkept : kept isBegin isEnd (before ++ x :: (inside ++ y :: after)) = (before, after) :=
      kept_ordered hbegin hend hx hx' hinside hy
    have hsame : outside isBegin isEnd (before ++ x :: (inside ++ y :: after)) = before ++ after :=
      outside_block hbegin hx hinside hy
    exact hsame ▸ hkept ▸ List.Sublist.refl _
  | @stray before y between x rest hend hy hbegin hx hx' =>
    have hmiddle : before ++ y :: (between ++ x :: rest) = (before ++ y :: between) ++ x :: rest := by
      simp
    rw [kept_stray hend hy hbegin hx, hmiddle]
    rcases outside_stray isEnd hbegin hx with ⟨-, ho⟩ | ⟨z, after, -, -, hafter, ho⟩
    · rw [ho]
      exact List.Sublist.append_left (List.sublist_append_right _ _) _
    · rw [ho]
      apply List.Sublist.append_left
      exact (hafter.trans (List.sublist_cons_self x rest)).trans (List.sublist_append_right _ _)

private theorem inOrder_stray {significant : α → Bool} (hend : ∀ z ∈ before, isEnd z = false)
    (hy : isEnd y) (hbegin : ∀ z ∈ before ++ y :: between, isBegin z = false) (hx : isBegin x) :
    InOrder isBegin isEnd significant (before ++ y :: (between ++ x :: rest)) ↔
      (∀ z ∈ x :: rest, isEnd z = false) ∧ ∀ z ∈ between, significant z = false := by
  have hmiddle : before ++ y :: (between ++ x :: rest) = (before ++ y :: between) ++ x :: rest := by
    simp
  rw [InOrder, findIdx?_first hend hy, hmiddle, findIdx?_first hbegin hx]
  dsimp only
  rw [List.drop_left, List.take_left, ← List.drop_drop, List.drop_left]
  refine or_iff_right ?_
  simp only [List.length_append, List.length_cons]
  omega

/-- Nothing significant is kept twice exactly when the marks are in order. -/
theorem filter_kept_eq_iff {significant : α → Bool} (h : Arrangement isBegin isEnd ls)
    (hsignificant : ∀ z, isBegin z → significant z) :
    ((kept isBegin isEnd ls).1 ++ (kept isBegin isEnd ls).2).filter significant =
      (outside isBegin isEnd ls).filter significant ↔ InOrder isBegin isEnd significant ls := by
  cases h with
  | absent hbegin =>
    rw [outside_absent hbegin, kept_absent hbegin, List.append_nil, InOrder,
      List.findIdx?_eq_none_iff.mpr hbegin]
    exact iff_of_true rfl trivial
  | @ordered before x inside y after hbegin hend hx hx' hinside hy =>
    have hends : ∀ z ∈ before ++ x :: inside, isEnd z = false := by
      simp only [List.forall_mem_append, List.forall_mem_cons]
      exact ⟨hend, hx', hinside⟩
    have hmiddle : before ++ x :: (inside ++ y :: after) = (before ++ x :: inside) ++ y :: after := by
      simp
    rw [outside_block hbegin hx hinside hy, kept_ordered hbegin hend hx hx' hinside hy, InOrder,
      findIdx?_first hbegin hx, hmiddle, findIdx?_first hends hy]
    exact iff_of_true rfl (Or.inl (by simp))
  | @stray before y between x rest hend hy hbegin hx hx' =>
    have hmiddle : before ++ y :: (between ++ x :: rest) = (before ++ y :: between) ++ x :: rest := by
      simp
    rw [inOrder_stray hend hy hbegin hx, kept_stray hend hy hbegin hx, hmiddle]
    generalize before ++ y :: between = stray at hbegin
    dsimp only
    rcases outside_stray isEnd hbegin hx with ⟨hrest, ho⟩ | ⟨z, after, hz, hmem, hafter, ho⟩
    · rw [ho]
      simp only [List.filter_append, List.append_cancel_left_eq, List.append_left_eq_self,
        List.filter_eq_nil_iff, Bool.not_eq_true]
      have hopen : ∀ z ∈ x :: rest, isEnd z = false := List.forall_mem_cons.mpr ⟨hx', hrest⟩
      exact (and_iff_right hopen).symm
    · rw [ho]
      simp only [List.filter_append, List.append_cancel_left_eq,
        List.filter_cons_of_pos (hsignificant x hx)]
      refine iff_of_false (fun he => ?_) fun hno => ?_
      · have hlen := congrArg List.length he
        have hle := (hafter.filter significant).length_le
        simp only [List.length_append, List.length_cons] at hlen
        omega
      · rw [hno.1 z (List.mem_cons_of_mem _ hmem)] at hz
        cases hz

end MarkedBlock
