import Mathlib.Logic.Function.Basic

/-! Admitting a key at most once within a time-to-live. The log keeps every admission;
a cache that forgets the expired ones still answers as the whole log does. -/
namespace AdmissionLog
variable {κ : Type} {ttl now later : Nat} {log : List (κ × Nat)} {k : κ}

/-- Every admission of the key so far is more than `ttl` old. -/
def Fresh (ttl : Nat) (log : List (κ × Nat)) (k : κ) (now : Nat) : Prop :=
  ∀ t, (k, t) ∈ log → t + ttl < now

/-- A key is not fresh while an admission of it is within the lifetime. -/
theorem not_fresh_iff : ¬ Fresh ttl log k now ↔ ∃ t, (k, t) ∈ log ∧ now - t ≤ ttl := by
  rw [Fresh, not_forall]
  refine exists_congr fun t => ?_
  rw [Classical.not_imp, Nat.not_lt, Nat.sub_le_iff_le_add, Nat.add_comm ttl]

/-- The cache holds admissions only, and all those not expired at `now`. -/
structure Represents (ttl : Nat) (log : List (κ × Nat)) (now : Nat) (cache : κ → Option Nat) :
    Prop where
  sound : ∀ k t, cache k = some t → (k, t) ∈ log
  complete : ∀ k t, (k, t) ∈ log → now ≤ t + ttl → cache k = some t

def pruned (ttl now : Nat) (cache : κ → Option Nat) : κ → Option Nat :=
  fun k => (cache k).filter fun t => now - t ≤ ttl

/-- An empty cache stands for an empty log. -/
theorem Represents.empty (ttl now : Nat) : Represents ttl ([] : List (κ × Nat)) now fun _ => none :=
  ⟨nofun, nofun⟩

/-- Time that passes changes nothing of what a cache must hold. -/
theorem Represents.mono {cache : κ → Option Nat} (h : Represents ttl log now cache)
    (hle : now ≤ later) : Represents ttl log later cache :=
  ⟨h.sound, fun k t hm ht => h.complete k t hm (Nat.le_trans hle ht)⟩

/-- Pruning keeps what a cache must hold. -/
theorem Represents.prune {cache : κ → Option Nat} (h : Represents ttl log now cache)
    (hle : now ≤ later) : Represents ttl log later (pruned ttl later cache) := by
  refine ⟨fun k t hc => h.sound k t (Option.filter_eq_some_iff.mp hc).1, fun k t hm ht => ?_⟩
  refine Option.filter_eq_some_iff.mpr ⟨h.complete k t hm (Nat.le_trans hle ht), ?_⟩
  simp only [decide_eq_true_eq]
  omega

/-- After pruning, a key is absent exactly when the log would admit it. -/
theorem Represents.absent_iff {cache : κ → Option Nat} (h : Represents ttl log now cache) :
    pruned ttl now cache k = none ↔ Fresh ttl log k now := by
  constructor
  · intro hnone t hm
    by_contra hlt
    have hsome := (h.prune (Nat.le_refl now)).complete k t hm (Nat.not_lt.mp hlt)
    rw [hnone] at hsome
    cases hsome
  · intro hfresh
    cases hc : pruned ttl now cache k with
    | none => rfl
    | some t =>
      obtain ⟨hmem, hage⟩ := Option.filter_eq_some_iff.mp hc
      have hlt := hfresh t (h.sound k t hmem)
      simp only [decide_eq_true_eq] at hage
      omega

/-- Recording an admission of a fresh key keeps cache and log together. -/
theorem Represents.admit [DecidableEq κ] {cache : κ → Option Nat}
    (h : Represents ttl log now cache) (hf : Fresh ttl log k now) :
    Represents ttl ((k, now) :: log) now (Function.update cache k (some now)) := by
  constructor
  · intro k' t hc
    by_cases hk : k' = k
    · subst hk
      rw [Function.update_self] at hc
      cases hc
      exact List.mem_cons_self
    · rw [Function.update_of_ne hk] at hc
      exact List.mem_cons_of_mem _ (h.sound k' t hc)
  · intro k' t hm ht
    rcases List.mem_cons.mp hm with he | hold
    · cases he
      exact Function.update_self ..
    · by_cases hk : k' = k
      · subst hk
        have hlt := hf t hold
        omega
      · rw [Function.update_of_ne hk]
        exact h.complete k' t hold ht

/-- A key that is fresh to a longer log is fresh to the rest of it. -/
theorem Fresh.of_cons {k' : κ} {t : Nat} (h : Fresh ttl ((k', t) :: log) k now) :
    Fresh ttl log k now ∧ (k = k' → t + ttl < now) :=
  ⟨fun u hu => h u (List.mem_cons_of_mem _ hu), fun he => h t (by rw [he]; exact List.mem_cons_self)⟩

end AdmissionLog
