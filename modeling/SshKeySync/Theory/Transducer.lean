import SshKeySync.Theory.Runs

/-! Machines whose every event returns an output and leaves a state. Events that a simulation
cannot see can be deleted from a run, and no other output changes. -/
namespace Transducer
variable {σ ε ω ι : Type} (step : σ → ε → ω × σ)

def after (s : σ) (events : List ε) : σ := events.foldl (fun s e => (step s e).2) s

def trace (s : σ) : List ε → List (ε × ω)
  | [] => []
  | e :: events => (e, (step s e).1) :: trace (step s e).2 events

/-- The trace without the events that are dropped in the state they meet. -/
def purge (drop : σ → ε → Prop) [∀ s e, Decidable (drop s e)] (s : σ) : List ε → List (ε × ω)
  | [] => []
  | e :: events => if drop s e then purge drop (step s e).2 events
    else (e, (step s e).1) :: purge drop (step s e).2 events

/-- Every event meets its guard in the state in which it arrives. -/
def Guarded (guard : σ → ε → Prop) (s : σ) : List ε → Prop
  | [] => True
  | e :: events => guard s e ∧ Guarded guard (step s e).2 events

variable {step}

@[simp] theorem after_nil (s : σ) : after step s [] = s := rfl

@[simp] theorem after_cons (s : σ) (e : ε) (events : List ε) :
    after step s (e :: events) = after step (step s e).2 events := rfl

@[simp] theorem after_append (s : σ) (events later : List ε) :
    after step s (events ++ later) = after step (after step s events) later := List.foldl_append ..

/-- The outputs of two parts stand one after the other. -/
theorem trace_append (s : σ) (events later : List ε) :
    trace step s (events ++ later) = trace step s events ++ trace step (after step s events) later := by
  induction events generalizing s with
  | nil => rfl
  | cons e events ih => rw [List.cons_append, trace, trace, ih, after_cons, List.cons_append]

/-- A trace has the events of its run. -/
theorem map_fst_trace (s : σ) (events : List ε) : (trace step s events).map Prod.fst = events := by
  induction events generalizing s with
  | nil => rfl
  | cons e events ih => rw [trace, List.map_cons, ih]

/-- A run of two parts meets its guard when both do. -/
theorem guarded_append {guard : σ → ε → Prop} {s : σ} {events later : List ε} :
    Guarded step guard s (events ++ later) ↔
      Guarded step guard s events ∧ Guarded step guard (after step s events) later := by
  induction events generalizing s with
  | nil => exact ⟨fun h => ⟨trivial, h⟩, fun h => h.2⟩
  | cons e events ih => rw [List.cons_append, Guarded, Guarded, ih, after_cons, and_assoc]

theorem guarded_of_forall {guard : σ → ε → Prop} {events : List ε} (h : ∀ e ∈ events, ∀ s, guard s e) (s : σ) :
    Guarded step guard s events := by
  induction events generalizing s with
  | nil => trivial
  | cons e events ih =>
    obtain ⟨he, hevents⟩ := List.forall_mem_cons.mp h
    exact ⟨he s, ih hevents _⟩

/-- What every step preserves holds after every run. -/
theorem invariant_after (invariant : σ → Prop) (hstep : ∀ s e, invariant s → invariant (step s e).2) {s : σ}
    (h : invariant s) (events : List ε) : invariant (after step s events) := by
  induction events generalizing s with
  | nil => exact h
  | cons e events ih => exact ih (hstep s e h)

/-- If a dropped event leaves the left state related to an unmoved right state, and any other
event returns the same output on both sides, then the run without the dropped events returns
for every remaining event what the whole run returned. The index is a clock that the events
drive. -/
theorem trace_purge {drop : σ → ε → Prop} [∀ s e, Decidable (drop s e)] {clock : ι → ε → ι}
    {allowed : ι → ε → Prop} {related : ι → σ → σ → Prop}
    (hdrop : ∀ i s t e, related i s t → allowed i e → drop s e → related (clock i e) (step s e).2 t)
    (hkeep : ∀ i s t e, related i s t → allowed i e → ¬ drop s e →
      (step t e).1 = (step s e).1 ∧ related (clock i e) (step s e).2 (step t e).2)
    {i : ι} {s t : σ} (h : related i s t) {events : List ε}
    (hallowed : Runs.Guarded (fun i e => some (clock i e)) allowed i events) :
    trace step t ((purge step drop s events).map Prod.fst) = purge step drop s events ∧
      ∃ j, related j (after step s events) (after step t ((purge step drop s events).map Prod.fst)) := by
  induction events generalizing i s t with
  | nil => exact ⟨rfl, i, h⟩
  | cons e events ih =>
    obtain ⟨hnow, hlater⟩ := hallowed
    by_cases he : drop s e
    · rw [purge, if_pos he]
      exact ih (hdrop i s t e h hnow he) (hlater _ rfl)
    · obtain ⟨hout, hrel⟩ := hkeep i s t e h hnow he
      obtain ⟨htrace, hafter⟩ := ih hrel (hlater _ rfl)
      rw [purge, if_neg he, List.map_cons, trace, hout, htrace]
      exact ⟨rfl, hafter⟩

end Transducer
