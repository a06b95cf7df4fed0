import SshKeySync.Daemon.Loop

/-! What every run of the loop keeps: the mode follows from the shutdown request and the sync
in flight, starts and finishes alternate, and nothing starts after a stop. -/
namespace SshKeySync.Daemon
open RustStd Transducer

inductive SyncEvent where
  | started
  | finished
  deriving DecidableEq

def Op.Critical : Op → Prop
  | .finishSync (.criticalFailure _) _ | .runStartupSync (.criticalFailure _) _ => True
  | _ => False

namespace DaemonLoop

/-- What mode, shutdown request, sync in flight and critical error say of each other. -/
structure Consistent (d : DaemonLoop) : Prop where
  stopping_iff : d.state.mode = .stopping ↔ d.shutdownRequested = true ∧ d.state.inFlightSync = true
  idle_of_stopped : d.state.mode = .stopped → d.state.inFlightSync = false
  unrequested_of_running : d.state.mode = .running → d.shutdownRequested = false
  stopped_of_critical : d.state.lastCriticalError ≠ none → d.state.mode = .stopped

/-- The syncs that an operation starts and finishes. -/
def syncEvents (d : DaemonLoop) : Op → List SyncEvent
  | .startSync nowSecs => if (d.startSync nowSecs).1 then [.started] else []
  | .runStartupSync _ _ => [.started, .finished]
  | .finishSync _ _ => [.finished]
  | _ => []

def history (d : DaemonLoop) : List Op → List SyncEvent
  | [] => []
  | op :: ops => d.syncEvents op ++ history (d.perform op).2 ops

def nextEvent (d : DaemonLoop) : SyncEvent := if d.state.inFlightSync then .finished else .started

/-- No event repeats, and the first one is the given. -/
def Alternates (first : SyncEvent) (events : List SyncEvent) : Prop :=
  events.IsChain (· ≠ ·) ∧ ∀ event ∈ events.head?, event = first

variable {d : DaemonLoop} {op : Op} {ops : List Op}

/-- A new loop is consistent. -/
theorem consistent_new (startedAtSecs syncIntervalSecs jitterSecs : UInt64) :
    (new startedAtSecs syncIntervalSecs jitterSecs).Consistent where
  stopping_iff := iff_of_false nofun nofun
  idle_of_stopped := nofun
  unrequested_of_running := fun _ => rfl
  stopped_of_critical := fun h => absurd rfl h

private theorem consistent_requestShutdown (h : d.Consistent) : d.requestShutdown.Consistent := by
  rw [requestShutdown]
  dsimp only
  split
  · rename_i hstopped
    refine ⟨?_, h.idle_of_stopped, ?_, h.stopped_of_critical⟩
    · exact iff_of_false (by simp [hstopped]) (by simp [h.idle_of_stopped hstopped])
    · exact fun hrunning => absurd (hrunning.symm.trans hstopped) nofun
  · rename_i hne
    have hcritical : d.state.lastCriticalError = none := not_not.mp fun hc => hne (h.stopped_of_critical hc)
    cases hflight : d.state.inFlightSync with
    | true => exact ⟨iff_of_true rfl ⟨rfl, rfl⟩, nofun, nofun, fun hc => absurd hcritical hc⟩
    | false => exact ⟨iff_of_false nofun fun hc => absurd hc.2 nofun, fun _ => rfl, nofun, fun _ => rfl⟩

/-- A start is an answer from the running mode, when no sync is in flight. -/
theorem shouldStartSync_cases (h : d.Consistent) {nowSecs : UInt64} (hstart : d.shouldStartSync nowSecs = true) :
    d.state.mode = .running ∧ d.state.inFlightSync = false := by
  rw [shouldStartSync] at hstart
  split at hstart
  · cases hstart
  · rename_i hopen
    obtain ⟨hstopped, hshutdown, hflight⟩ : d.state.mode ≠ .stopped ∧ d.shutdownRequested = false ∧
      d.state.inFlightSync = false := by simpa using hopen
    refine ⟨?_, hflight⟩
    cases hmode : d.state.mode with
    | running => rfl
    | stopping => exact absurd ((h.stopping_iff.mp hmode).1.symm.trans hshutdown) nofun
    | stopped => exact absurd hmode hstopped

private theorem consistent_startSync (h : d.Consistent) (nowSecs : UInt64) : (d.startSync nowSecs).2.Consistent := by
  rw [startSync]
  split
  · rename_i hstart
    obtain ⟨hrunning, -⟩ := shouldStartSync_cases h hstart
    have hshutdown := h.unrequested_of_running hrunning
    refine ⟨?_, ?_, h.unrequested_of_running, h.stopped_of_critical⟩
    · exact iff_of_false (by simp [hrunning]) (by simp [hshutdown])
    · exact fun hstopped => absurd (hrunning.symm.trans hstopped) nofun
  · exact h

private theorem consistent_finishSync (d : DaemonLoop) (execution : SyncExecution) (nowSecs : UInt64) :
    (d.finishSync execution nowSecs).Consistent := by
  cases execution with
  | criticalFailure message => exact ⟨iff_of_false nofun nofun, fun _ => rfl, nofun, fun _ => rfl⟩
  | success result =>
    have hcritical : (d.finishSync (.success result) nowSecs).state.lastCriticalError = none := rfl
    have hmode : (d.finishSync (.success result) nowSecs).state.mode =
      if d.shutdownRequested then .stopped else .running := rfl
    refine ⟨iff_of_false ?_ nofun, fun _ => rfl, ?_, fun hc => absurd hcritical hc⟩
    · rw [hmode]
      split <;> nofun
    · rw [hmode]
      split
      · nofun
      · rename_i hshutdown
        exact fun _ => Bool.not_eq_true _ ▸ hshutdown

/-- Finishing forgets whether the startup sync was due. -/
theorem runStartupSync_eq (d : DaemonLoop) (execution : SyncExecution) (nowSecs : UInt64) :
    d.runStartupSync execution nowSecs = d.finishSync execution nowSecs := by
  rw [runStartupSync, startSync]
  cases d.shouldStartSync nowSecs <;> cases execution <;> rfl

private theorem consistent_perform (h : d.Consistent) (op : Op) : (d.perform op).2.Consistent := by
  cases op with
  | setKnownPeersCount count =>
    exact ⟨h.stopping_iff, h.idle_of_stopped, h.unrequested_of_running, h.stopped_of_critical⟩
  | triggerSyncFromDiscovery =>
    rw [perform, triggerSyncFromDiscovery]
    split
    · exact ⟨h.stopping_iff, h.idle_of_stopped, h.unrequested_of_running, h.stopped_of_critical⟩
    · exact h
  | requestShutdown => exact consistent_requestShutdown h
  | startSync nowSecs => exact consistent_startSync h nowSecs
  | runStartupSync execution nowSecs => exact consistent_finishSync _ execution nowSecs
  | finishSync execution nowSecs => exact consistent_finishSync d execution nowSecs

/-- Every call keeps a loop consistent. -/
theorem consistent_after (h : d.Consistent) (ops : List Op) : (d.after ops).Consistent :=
  invariant_after Consistent (fun _ op hd => consistent_perform hd op) h ops

/-- The request is the history of its calls. -/
theorem shutdownRequested_after (ops : List Op) :
    (d.after ops).shutdownRequested = true ↔ d.shutdownRequested = true ∨ .requestShutdown ∈ ops := by
  induction ops generalizing d with
  | nil => simp [after]
  | cons op ops ih =>
    have hperform : (d.perform op).2.shutdownRequested = true ↔
        d.shutdownRequested = true ∨ .requestShutdown = op := by
      cases op with
      | requestShutdown =>
        refine iff_of_true ?_ (Or.inr rfl)
        rw [perform, requestShutdown]
        dsimp only
        split <;> rfl
      | triggerSyncFromDiscovery =>
        rw [perform, triggerSyncFromDiscovery]
        split <;> simp
      | startSync nowSecs =>
        rw [perform, startSync]
        split <;> simp
      | setKnownPeersCount count => simp [perform, setKnownPeersCount]
      | finishSync execution nowSecs => cases execution <;> simp [perform, finishSync]
      | runStartupSync execution nowSecs =>
        rw [perform, runStartupSync_eq]
        cases execution <;> simp [finishSync]
    rw [show d.after (op :: ops) = (d.perform op).2.after ops from rfl, ih, hperform, List.mem_cons, or_assoc]

/-- A stopped loop starts nothing. -/
theorem shouldStartSync_of_stopped (h : d.state.mode = .stopped) (nowSecs : UInt64) :
    d.shouldStartSync nowSecs = false := if_pos (Or.inl h)

private theorem shouldStartSync_of_requested (h : d.shutdownRequested = true) (nowSecs : UInt64) :
    d.shouldStartSync nowSecs = false := if_pos (Or.inr (Or.inl h))

private theorem stopped_perform (h : d.Consistent) (hstopped : d.state.mode = .stopped)
    (hlegal : d.FinishesInFlight op) (hstartup : ∀ execution nowSecs, op ≠ .runStartupSync execution nowSecs) :
    (d.perform op).2.state.mode = .stopped ∧
      (d.perform op).2.state.lastCriticalError = d.state.lastCriticalError := by
  cases op with
  | setKnownPeersCount count => exact ⟨hstopped, rfl⟩
  | triggerSyncFromDiscovery =>
    rw [perform, triggerSyncFromDiscovery, if_neg (by simp [hstopped])]
    exact ⟨hstopped, rfl⟩
  | requestShutdown =>
    rw [perform, requestShutdown]
    dsimp only
    rw [if_pos hstopped]
    exact ⟨hstopped, rfl⟩
  | startSync nowSecs =>
    rw [perform, startSync, shouldStartSync_of_stopped hstopped]
    exact ⟨hstopped, rfl⟩
  | runStartupSync execution nowSecs => exact absurd rfl (hstartup execution nowSecs)
  | finishSync execution nowSecs => exact absurd (hlegal.symm.trans (h.idle_of_stopped hstopped)) nofun

private theorem stopped_after (h : d.Consistent) (hstopped : d.state.mode = .stopped)
    (hlegal : Guarded perform FinishesInFlight d ops)
    (hstartup : ∀ execution nowSecs, .runStartupSync execution nowSecs ∉ ops) :
    (d.after ops).state.mode = .stopped ∧ (d.after ops).state.lastCriticalError = d.state.lastCriticalError := by
  induction ops generalizing d with
  | nil => exact ⟨hstopped, rfl⟩
  | cons op ops ih =>
    obtain ⟨hmode, hcritical⟩ := stopped_perform h hstopped hlegal.1 fun execution nowSecs he =>
      hstartup execution nowSecs (he ▸ List.mem_cons_self)
    obtain ⟨hmode', hcritical'⟩ := ih (consistent_perform h op) hmode hlegal.2 fun execution nowSecs he =>
      hstartup execution nowSecs (List.mem_cons_of_mem op he)
    exact ⟨hmode', hcritical'.trans hcritical⟩

private theorem alternates_cons {event next : SyncEvent} {events : List SyncEvent} (hne : event ≠ next)
    (h : Alternates next events) : Alternates event (event :: events) := by
  refine ⟨?_, fun head hhead => (Option.some.inj hhead).symm⟩
  cases events with
  | nil => exact .singleton _
  | cons head events =>
    obtain rfl := h.2 head rfl
    exact .cons_cons hne h.1

private theorem history_alternates (h : d.Consistent) (hlegal : Guarded perform FinishesInFlight d ops)
    (hstartup : ∀ execution nowSecs, .runStartupSync execution nowSecs ∉ ops) :
    Alternates d.nextEvent (d.history ops) := by
  induction ops generalizing d with
  | nil => exact ⟨.nil, nofun⟩
  | cons op ops ih =>
    have hrest := ih (consistent_perform h op) hlegal.2 fun execution nowSecs he =>
      hstartup execution nowSecs (List.mem_cons_of_mem op he)
    -- an operation that starts and finishes nothing leaves the sync in flight as it is
    have hquiet (hevents : d.syncEvents op = [])
        (hflight : (d.perform op).2.state.inFlightSync = d.state.inFlightSync) :
        Alternates d.nextEvent (d.history (op :: ops)) := by
      rw [nextEvent, hflight] at hrest
      rw [history, hevents, List.nil_append]
      exact hrest
    cases op with
    | setKnownPeersCount count => exact hquiet rfl rfl
    | triggerSyncFromDiscovery =>
      refine hquiet rfl ?_
      rw [perform, triggerSyncFromDiscovery]
      split <;> rfl
    | requestShutdown =>
      refine hquiet rfl ?_
      rw [perform, requestShutdown]
      dsimp only
      split <;> rfl
    | startSync nowSecs =>
      cases hstart : d.shouldStartSync nowSecs with
      | false => exact hquiet (by simp [syncEvents, startSync, hstart]) (by simp [perform, startSync, hstart])
      | true =>
        have hidle := (shouldStartSync_cases h hstart).2
        have hnext : (d.perform (.startSync nowSecs)).2.nextEvent = .finished := by
          rw [nextEvent, perform, startSync, hstart]
          rfl
        rw [hnext] at hrest
        rw [history, syncEvents, startSync, hstart, nextEvent, hidle]
        have hne : SyncEvent.started ≠ .finished := nofun
        exact alternates_cons hne hrest
    | runStartupSync execution nowSecs => exact absurd List.mem_cons_self (hstartup execution nowSecs)
    | finishSync execution nowSecs =>
      have hnext : (d.perform (.finishSync execution nowSecs)).2.nextEvent = .started := by cases execution <;> rfl
      rw [hnext] at hrest
      rw [history, nextEvent, show d.state.inFlightSync = true from hlegal.1]
      have hne : SyncEvent.finished ≠ .started := nofun
      exact alternates_cons hne hrest

private theorem history_start_alternates (h : d.Consistent) (hidle : d.state.inFlightSync = false)
    (hlegal : Guarded perform FinishesInFlight d ops) (hstartup : StartupFirst ops) :
    Alternates .started (d.history ops) := by
  have hfirst : d.nextEvent = .started := by rw [nextEvent, hidle]; rfl
  cases ops with
  | nil => exact ⟨.nil, nofun⟩
  | cons op ops =>
    have hrest := history_alternates (consistent_perform h op) hlegal.2 hstartup
    by_cases hop : ∃ execution nowSecs, op = .runStartupSync execution nowSecs
    · obtain ⟨execution, nowSecs, rfl⟩ := hop
      have hnext : (d.perform (.runStartupSync execution nowSecs)).2.nextEvent = .started := by
        rw [perform, runStartupSync_eq]
        cases execution <;> rfl
      have hne : SyncEvent.started ≠ .finished := nofun
      rw [hnext] at hrest
      exact alternates_cons hne (alternates_cons hne.symm hrest)
    · rw [← hfirst]
      refine history_alternates h hlegal fun execution nowSecs hmem => ?_
      rcases List.mem_cons.mp hmem with he | hmem
      · exact hop ⟨execution, nowSecs, he.symm⟩
      · exact hstartup execution nowSecs hmem

/-- A call says whether the sync was to be started. -/
theorem startSync_fst (d : DaemonLoop) (nowSecs : UInt64) : (d.startSync nowSecs).1 = d.shouldStartSync nowSecs := by
  rw [startSync]
  cases d.shouldStartSync nowSecs <;> rfl

private theorem stopped_of_critical_op (d : DaemonLoop) (h : op.Critical) :
    (d.perform op).2.state.mode = .stopped := by
  cases op with
  | finishSync execution nowSecs =>
    cases execution with
    | success result => cases h
    | criticalFailure message => rfl
  | runStartupSync execution nowSecs =>
    cases execution with
    | success result => cases h
    | criticalFailure message => rw [perform, runStartupSync_eq]; rfl
  | setKnownPeersCount count => cases h
  | triggerSyncFromDiscovery => cases h
  | requestShutdown => cases h
  | startSync nowSecs => cases h

private theorem not_mem_since {before since : List Op} (h : StartupFirst (before ++ since)) (hne : before ≠ [])
    (execution : SyncExecution) (nowSecs : UInt64) : .runStartupSync execution nowSecs ∉ since := by
  intro hmem
  refine h execution nowSecs ?_
  rw [List.tail_append_of_ne_nil hne]
  exact List.mem_append_right _ hmem

structure Orderly (start : DaemonLoop) (ops : List Op) : Prop where
  stopping_iff : (start.after ops).state.mode = .stopping ↔
    .requestShutdown ∈ ops ∧ (start.after ops).state.inFlightSync = true
  idle_of_stopped : (start.after ops).state.mode = .stopped → (start.after ops).state.inFlightSync = false
  unrequested_of_running : (start.after ops).state.mode = .running → .requestShutdown ∉ ops
  starts_running : ∀ nowSecs, ((start.after ops).startSync nowSecs).1 = true →
    (start.after ops).state.mode = .running ∧ (start.after ops).state.inFlightSync = false
  alternates : Alternates .started (start.history ops)
  never_restarts : ∀ op ∈ ops, op = .requestShutdown ∨ op.Critical →
    ∀ nowSecs, ((start.after ops).startSync nowSecs).1 = false
  stays_stopped : ∀ before since, ops = before ++ since → (start.after before).state.mode = .stopped →
    (start.after ops).state.mode = .stopped
  keeps_critical : ∀ before since message, ops = before ++ since →
    (start.after before).state.lastCriticalError = some message →
    (start.after ops).state.lastCriticalError = some message

/-- A run from `new` in which syncs are finished only in flight and a startup sync comes first. -/
theorem orderly_after (startedAtSecs syncIntervalSecs jitterSecs : UInt64)
    (hlegal : Guarded perform FinishesInFlight (new startedAtSecs syncIntervalSecs jitterSecs) ops)
    (hstartup : StartupFirst ops) : Orderly (new startedAtSecs syncIntervalSecs jitterSecs) ops := by
  have hnew := consistent_new startedAtSecs syncIntervalSecs jitterSecs
  generalize hstart : new startedAtSecs syncIntervalSecs jitterSecs = start at *
  have hmode : start.state.mode = .running := hstart ▸ rfl
  have hcritical : start.state.lastCriticalError = none := hstart ▸ rfl
  have hafter := consistent_after hnew ops
  have hrequested : (start.after ops).shutdownRequested = true ↔ .requestShutdown ∈ ops := by
    rw [shutdownRequested_after, or_iff_right]
    exact hstart ▸ nofun
  -- the state after a part of the run is stopped, and so is every later one
  have hsince {before since : List Op} (hsplit : ops = before ++ since) (hne : before ≠ [])
      (hstopped : (start.after before).state.mode = .stopped) : (start.after ops).state.mode = .stopped ∧
        (start.after ops).state.lastCriticalError = (start.after before).state.lastCriticalError := by
    subst hsplit
    have hrun : start.after (before ++ since) = (start.after before).after since := Transducer.after_append ..
    rw [hrun]
    exact stopped_after (consistent_after hnew before) hstopped (guarded_append.mp hlegal).2
      (not_mem_since hstartup hne)
  constructor
  case stopping_iff => rw [hafter.stopping_iff, hrequested]
  case idle_of_stopped => exact hafter.idle_of_stopped
  case unrequested_of_running =>
    intro hrunning hmem
    exact absurd ((hrequested.mpr hmem).symm.trans (hafter.unrequested_of_running hrunning)) nofun
  case starts_running =>
    intro nowSecs hstarts
    exact shouldStartSync_cases hafter ((startSync_fst ..).symm.trans hstarts)
  case alternates => exact history_start_alternates hnew (hstart ▸ rfl) hlegal hstartup
  case never_restarts =>
    intro op hop hend nowSecs
    rw [startSync_fst]
    rcases hend with rfl | hend
    · exact shouldStartSync_of_requested (hrequested.mpr hop) nowSecs
    · obtain ⟨before, since, rfl⟩ := List.append_of_mem hop
      have hstopped : (start.after (before ++ [op])).state.mode = .stopped := by
        rw [show start.after (before ++ [op]) = ((start.after before).perform op).2 from Transducer.after_append ..]
        exact stopped_of_critical_op _ hend
      have hsplit : before ++ op :: since = (before ++ [op]) ++ since := by
        rw [List.append_assoc, List.singleton_append]
      have hne : before ++ [op] ≠ [] := List.append_ne_nil_of_right_ne_nil _ (List.cons_ne_nil _ _)
      exact shouldStartSync_of_stopped (hsince hsplit hne hstopped).1 nowSecs
  case stays_stopped =>
    intro before since hsplit hstopped
    refine (hsince hsplit ?_ hstopped).1
    rintro rfl
    exact absurd (hmode.symm.trans hstopped) nofun
  case keeps_critical =>
    intro before since message hsplit hmessage
    have hstopped := (consistent_after hnew before).stopped_of_critical (by rw [hmessage]; nofun)
    refine (hsince hsplit ?_ hstopped).2.trans hmessage
    rintro rfl
    exact absurd (hcritical.symm.trans hmessage) nofun

/-- A shutdown that waits for the sync in flight. -/
theorem orderly_after_graceful : Orderly (new 1000 30 0)
    [.startSync 1030, .requestShutdown, .finishSync (.success ⟨1031, []⟩) 1031, .startSync 2000] :=
  orderly_after 1000 30 0 ⟨trivial, trivial, rfl, trivial, trivial⟩ fun _ _ => by simp

end DaemonLoop
end SshKeySync.Daemon
