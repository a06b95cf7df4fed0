import Mathlib.Data.List.Basic
import Mathlib.Logic.Function.Basic
import SshKeySync.Theory.Runs

/-! Parties that take their own steps in any order, and the log of what they have sent. A run of
all of them is for each a run of its own, and what every party keeps while its inputs are
explained by the log, they keep together. -/
namespace Parties
variable {ι σ ε μ : Type}

/-- A step that keeps a log of what was sent. -/
def logged (step : σ → ε → Option (List μ × σ)) (s : List μ × σ) (e : ε) : Option (List μ × σ) :=
  (step s.2 e).map fun next => (s.1 ++ next.1, next.2)

structure World (ι σ μ : Type) where
  state : ι → σ
  sent : List (ι × μ)

/-- Every party is in a state it may be in, and has sent only what it may send. -/
structure World.Sound (keeps : ι → σ → Prop) (good : ι → μ → Prop) (w : World ι σ μ) : Prop where
  state : ∀ i, keeps i (w.state i)
  sent : ∀ m ∈ w.sent, good m.1 m.2

def World.sentBy [DecidableEq ι] (w : World ι σ μ) (i : ι) : List μ :=
  (w.sent.filter fun m => m.1 = i).map Prod.snd

def eventsOf [DecidableEq ι] (i : ι) (events : List (ι × ε)) : List ε :=
  (events.filter fun e => e.1 = i).map Prod.snd

section
variable [DecidableEq ι]

def World.set (w : World ι σ μ) (i : ι) (next : List μ × σ) : World ι σ μ :=
  ⟨Function.update w.state i next.2, w.sent ++ next.1.map (Prod.mk i)⟩

def act (step : ι → σ → ε → Option (List μ × σ)) (w : World ι σ μ) (e : ι × ε) : Option (World ι σ μ) :=
  (step e.1 (w.state e.1) e.2).map (w.set e.1)

variable {w : World ι σ μ} {i j : ι} {next : List μ × σ}

/-- What has been sent stays sent. -/
theorem mem_sent_of_act {step : ι → σ → ε → Option (List μ × σ)} {w' : World ι σ μ} {e : ι × ε}
    (h : act step w e = some w') {m : ι × μ} (hm : m ∈ w.sent) : m ∈ w'.sent := by
  obtain ⟨next, -, rfl⟩ := Option.map_eq_some_iff.mp h
  exact List.mem_append_left _ hm

@[simp] theorem World.set_state_self : (w.set i next).state i = next.2 := Function.update_self ..

@[simp] theorem World.set_state_of_ne (h : j ≠ i) : (w.set i next).state j = w.state j := Function.update_of_ne h ..

/-- A step adds to what its own party has sent. -/
theorem World.sentBy_set : (w.set i next).sentBy j = w.sentBy j ++ if i = j then next.1 else [] := by
  rw [sentBy, set, sentBy, List.filter_append, List.map_append]
  refine congrArg _ ?_
  split
  · rename_i h
    rw [List.filter_eq_self.mpr (by simp [h]), List.map_map]
    exact List.map_id next.1
  · rename_i h
    rw [List.filter_eq_nil_iff.mpr (by simp [h]), List.map_nil]

end

section
variable {step : σ → ε → Option (List μ × σ)} {s s' : List μ × σ} {e : ε} {events : List ε}

/-- A logged step is a step whose outputs are appended. -/
theorem logged_eq_some_iff :
    logged step s e = some s' ↔ ∃ out, step s.2 e = some (out, s'.2) ∧ s'.1 = s.1 ++ out := by
  rw [logged, Option.map_eq_some_iff]
  constructor
  · rintro ⟨next, hstep, rfl⟩
    exact ⟨next.1, hstep, rfl⟩
  · rintro ⟨out, hstep, hlog⟩
    exact ⟨(out, s'.2), hstep, Prod.ext hlog.symm rfl⟩

end

section
variable [DecidableEq ι] {step : ι → σ → ε → Option (List μ × σ)} {w w' : World ι σ μ}
  {events : List (ι × ε)}

/-- The others' steps do not show in a party's state or in what it has sent. -/
theorem run_of_party (h : Runs.run (act step) w events = some w') (i : ι) :
    Runs.run (logged (step i)) (w.sentBy i, w.state i) (eventsOf i events) =
      some (w'.sentBy i, w'.state i) := by
  induction events generalizing w with
  | nil =>
    cases h
    rfl
  | cons e events ih =>
    rw [Runs.run_cons, Option.bind_eq_some_iff] at h
    obtain ⟨mid, hmid, hrest⟩ := h
    obtain ⟨next, hstep, rfl⟩ := Option.map_eq_some_iff.mp hmid
    have htail := ih hrest
    rw [World.sentBy_set] at htail
    by_cases hi : e.1 = i
    · subst hi
      rw [if_pos rfl, World.set_state_self] at htail
      have hlogged : logged (step e.1) (w.sentBy e.1, w.state e.1) e.2 =
        some (w.sentBy e.1 ++ next.1, next.2) := logged_eq_some_iff.mpr ⟨next.1, hstep, rfl⟩
      rw [eventsOf, List.filter_cons_of_pos (by simp), List.map_cons, Runs.run_cons, hlogged, Option.bind_some]
      exact htail
    · rw [if_neg hi, List.append_nil, World.set_state_of_ne (Ne.symm hi)] at htail
      rw [eventsOf, List.filter_cons_of_neg (by simpa using hi)]
      exact htail

/-- What is asked of one party's events is asked of the party's own run. -/
theorem guarded_of_party {guard : World ι σ μ → ι × ε → Prop} {own : σ → ε → Prop} {i : ι}
    (hown : ∀ w e, guard w (i, e) → own (w.state i) e) (hguard : Runs.Guarded (act step) guard w events)
    (hrun : Runs.run (act step) w events = some w') :
    Runs.Guarded (logged (step i)) (fun s e => own s.2 e) (w.sentBy i, w.state i) (eventsOf i events) := by
  induction events generalizing w with
  | nil => trivial
  | cons e events ih =>
    rw [Runs.run_cons, Option.bind_eq_some_iff] at hrun
    obtain ⟨mid, hmid, hrest⟩ := hrun
    have htail := ih (hguard.2 mid hmid) hrest
    obtain ⟨next, hstep, rfl⟩ := Option.map_eq_some_iff.mp hmid
    rw [World.sentBy_set] at htail
    obtain ⟨j, e⟩ := e
    by_cases hj : j = i
    · subst hj
      rw [if_pos rfl, World.set_state_self] at htail
      have hlogged : logged (step j) (w.sentBy j, w.state j) e = some (w.sentBy j ++ next.1, next.2) :=
        logged_eq_some_iff.mpr ⟨next.1, hstep, rfl⟩
      rw [eventsOf, List.filter_cons_of_pos (by simp), List.map_cons]
      exact Runs.guarded_cons hlogged (hown w e hguard.1) htail
    · rw [if_neg hj, List.append_nil, World.set_state_of_ne (Ne.symm hj)] at htail
      rw [eventsOf, List.filter_cons_of_neg (by simpa using hj)]
      exact htail

/-- If a party in a good state, with an input that the good messages sent so far explain, goes to a
good state and sends good messages, then everything stays good. -/
theorem World.Sound.act {keeps : ι → σ → Prop} {good : ι → μ → Prop} {e : ι × ε} (h : w.Sound keeps good)
    (hstep : ∀ out s', keeps e.1 (w.state e.1) → step e.1 (w.state e.1) e.2 = some (out, s') →
      keeps e.1 s' ∧ ∀ m ∈ out, good e.1 m)
    (hact : act step w e = some w') : w'.Sound keeps good := by
  obtain ⟨next, hs, rfl⟩ := Option.map_eq_some_iff.mp hact
  obtain ⟨hkeeps, hgood⟩ := hstep _ _ (h.state e.1) hs
  refine ⟨fun i => ?_, List.forall_mem_append.mpr ⟨h.sent, List.forall_mem_map.mpr hgood⟩⟩
  by_cases hi : i = e.1
  · subst hi
    rwa [World.set_state_self]
  · rw [World.set_state_of_ne hi]
    exact h.state i

end
end Parties
