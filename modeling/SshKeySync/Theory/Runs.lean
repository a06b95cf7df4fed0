import Mathlib.Data.List.Basic

/-! Runs of a partial step function over lists of events, and the invariant rule for runs
whose every step meets a guard. -/
namespace Runs
variable {σ ε : Type} (step : σ → ε → Option σ) (guard : σ → ε → Prop)

def run (s : σ) (events : List ε) : Option σ := events.foldlM step s

/-- Each step of the run is taken in a state that meets the guard for it. -/
def Guarded (s : σ) : List ε → Prop
  | [] => True
  | e :: events => guard s e ∧ ∀ s', step s e = some s' → Guarded s' events

instance decidableGuarded [∀ s e, Decidable (guard s e)] (s : σ) :
    (events : List ε) → Decidable (Guarded step guard s events)
  | [] => isTrue trivial
  | e :: events => match h : step s e with
    | none => decidable_of_iff (guard s e) (by simp [Guarded, h])
    | some s' => have := decidableGuarded s' events
      decidable_of_iff (guard s e ∧ Guarded step guard s' events) (by simp [Guarded, h])

variable {step guard}

theorem run_cons (s : σ) (e : ε) (events : List ε) :
    run step s (e :: events) = (step s e).bind fun s' => run step s' events := List.foldlM_cons ..

/-- A run of two parts is one run after the other. -/
theorem run_append (s : σ) (events later : List ε) :
    run step s (events ++ later) = (run step s events).bind fun s' => run step s' later :=
  List.foldlM_append ..

theorem guarded_cons {s s' : σ} {e : ε} {events : List ε} (hstep : step s e = some s') (hguard : guard s e)
    (h : Guarded step guard s' events) : Guarded step guard s (e :: events) := by
  refine ⟨hguard, fun t ht => ?_⟩
  obtain rfl : s' = t := Option.some.inj (hstep.symm.trans ht)
  exact h

/-- A guard that always holds is met by every run. -/
theorem guarded_of_forall (h : ∀ s e, guard s e) (s : σ) (events : List ε) : Guarded step guard s events := by
  induction events generalizing s with
  | nil => trivial
  | cons e events ih => exact ⟨h s e, fun s' _ => ih s'⟩

/-- A guard may be exchanged for one that it implies at the events of the run. -/
theorem guarded_of_imp {guard' : σ → ε → Prop} {s : σ} {events : List ε} (h : Guarded step guard s events)
    (himp : ∀ s, ∀ e ∈ events, guard s e → guard' s e) : Guarded step guard' s events := by
  induction events generalizing s with
  | nil => trivial
  | cons e events ih =>
    refine ⟨himp s e List.mem_cons_self h.1, fun s' hs' => ih (h.2 s' hs') ?_⟩
    intro t e' he'
    exact himp t e' (List.mem_cons_of_mem e he')

/-- Guarded up to some point, a run is guarded if what follows is. -/
theorem guarded_append {s : σ} {events later : List ε} : Guarded step guard s (events ++ later) ↔
    Guarded step guard s events ∧ ∀ s', run step s events = some s' → Guarded step guard s' later := by
  induction events generalizing s with
  | nil =>
    refine ⟨fun h => ⟨trivial, fun s' hs' => ?_⟩, fun h => h.2 s rfl⟩
    cases hs'
    exact h
  | cons e events ih =>
    rw [List.cons_append, Guarded, Guarded, and_assoc]
    refine and_congr_right fun _ => ?_
    constructor
    · intro h
      refine ⟨fun s' hs' => (ih.mp (h s' hs')).1, fun t ht => ?_⟩
      rw [run_cons, Option.bind_eq_some_iff] at ht
      obtain ⟨s', hs', hrest⟩ := ht
      exact (ih.mp (h s' hs')).2 t hrest
    · rintro ⟨hevents, hlater⟩ s' hs'
      refine ih.mpr ⟨hevents s' hs', fun t ht => hlater t ?_⟩
      rw [run_cons, hs', Option.bind_some, ht]

/-- What a guarded step preserves, a guarded run preserves. -/
theorem invariant_run {invariant : σ → Prop} {s s' : σ} {events : List ε}
    (hstep : ∀ s e s', invariant s → guard s e → step s e = some s' → invariant s')
    (h : invariant s) (hguard : Guarded step guard s events) (hrun : run step s events = some s') :
    invariant s' := by
  induction events generalizing s with
  | nil =>
    cases hrun
    exact h
  | cons e events ih =>
    rw [run_cons, Option.bind_eq_some_iff] at hrun
    obtain ⟨mid, hmid, hrest⟩ := hrun
    exact ih (hstep s e mid h hguard.1 hmid) (hguard.2 mid hmid) hrest

/-- If from good states the guarded steps and no others lead to good states, then a run passes
through good states only if and only if it is guarded. -/
theorem always_iff_guarded {invariant : σ → Prop}
    (hstep : ∀ s e s', invariant s → step s e = some s' → (invariant s' ↔ guard s e))
    {s : σ} {events : List ε} (h : invariant s) (hrun : (run step s events).isSome) :
    (∀ before mid, before <+: events → run step s before = some mid → invariant mid) ↔
      Guarded step guard s events := by
  induction events generalizing s with
  | nil =>
    refine iff_of_true (fun before mid hbefore hmid => ?_) trivial
    obtain rfl := List.prefix_nil.mp hbefore
    cases hmid
    exact h
  | cons e events ih =>
    obtain ⟨s', hs', hrest⟩ : ∃ s', step s e = some s' ∧ (run step s' events).isSome := by
      rw [run_cons, Option.isSome_bind] at hrun
      cases hs' : step s e with
      | none => simp [hs'] at hrun
      | some s' => exact ⟨s', rfl, by simpa [hs'] using hrun⟩
    constructor
    · intro hall
      have hs : invariant s' := hall [e] s' (List.prefix_append [e] events) (by simp [run, hs'])
      refine ⟨(hstep s e s' h hs').mp hs, fun t ht => ?_⟩
      obtain rfl : s' = t := Option.some.inj (hs'.symm.trans ht)
      refine (ih hs hrest).mp fun before mid hbefore hmid => ?_
      have hrun' : run step s (e :: before) = some mid := by rw [run_cons, hs', Option.bind_some, hmid]
      exact hall (e :: before) mid ((List.prefix_cons_inj e).mpr hbefore) hrun'
    · rintro ⟨hguard, hlater⟩ before mid hbefore hmid
      cases before with
      | nil =>
        cases hmid
        exact h
      | cons e' before =>
        obtain ⟨rfl, htail⟩ := List.cons_prefix_cons.mp hbefore
        rw [run_cons, hs', Option.bind_some] at hmid
        exact (ih ((hstep s e' s' h hs').mpr hguard) hrest).mpr (hlater s' hs') before mid htail hmid

end Runs
