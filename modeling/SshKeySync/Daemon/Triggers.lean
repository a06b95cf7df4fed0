import SshKeySync.Daemon.Lifecycle

/-! Discovery triggers. Finishing a sync clears the flag, also of a trigger that came after the
start; no other operation loses one. -/
namespace SshKeySync.Daemon
open RustStd Transducer

def Op.finish? : Op → Option (SyncExecution × UInt64)
  | .finishSync execution nowSecs | .runStartupSync execution nowSecs => some (execution, nowSecs)
  | _ => none

namespace DaemonLoop

def Starts (d : DaemonLoop) : Op → Prop
  | .startSync nowSecs | .runStartupSync _ nowSecs => (d.startSync nowSecs).1 = true
  | _ => False

/-- The operation starts nothing, asks for no shutdown and does not stop the loop. -/
def Waits (d : DaemonLoop) (op : Op) : Prop :=
  ¬ d.Starts op ∧ op ≠ .requestShutdown ∧ (d.perform op).2.state.mode ≠ .stopped

/-- A trigger in running mode, after which the loop has only waited, is still pending whenever no
sync is in flight. -/
def TriggersKept (start : DaemonLoop) (ops : List Op) : Prop := ∀ before since,
  ops = before ++ .triggerSyncFromDiscovery :: since → (start.after before).state.mode = .running →
  Guarded perform Waits (start.after (before ++ [.triggerSyncFromDiscovery])) since →
  (start.after ops).state.inFlightSync = false → ∀ nowSecs, (start.after ops).shouldStartSync nowSecs = true

def AlwaysKept (start : DaemonLoop) (ops : List Op) : Prop := ∀ ops', ops' <+: ops → TriggersKept start ops'

def nextDue (d : DaemonLoop) (nowSecs : UInt64) : UInt64 := nowSecs + d.syncIntervalSecs + d.jitterSecs

/-- The first sync to finish in these operations is a success, no shutdown is requested before,
and the due time it sets is not zero. -/
def Succeeds (d : DaemonLoop) (ops : List Op) : Prop := ∃ during op later result nowSecs,
  ops = during ++ op :: later ∧ op.finish? = some (.success result, nowSecs) ∧
  (∀ o ∈ during, o.finish? = none ∧ o ≠ .requestShutdown) ∧ d.nextDue nowSecs ≠ 0

/-- A trigger in running mode finds a sync in flight, and that sync succeeds. -/
def Overtaken (start : DaemonLoop) (ops : List Op) : Prop := ∃ before since,
  ops = before ++ .triggerSyncFromDiscovery :: since ∧ (start.after before).state.mode = .running ∧
  (start.after before).state.inFlightSync = true ∧ (start.after before).Succeeds since

/-- A trigger is pending, or was overtaken by a due time of zero, or a sync is in flight. -/
structure Alert (d : DaemonLoop) : Prop where
  mode : d.state.mode = .running
  shutdown : d.shutdownRequested = false
  pending : d.state.inFlightSync = false → d.state.syncTriggerPending = true ∨ d.state.nextSyncDueSecs = 0

variable {d : DaemonLoop} {op : Op} {ops : List Op}

/-- An alert loop that is idle starts a sync at any time. -/
theorem Alert.shouldStartSync (h : d.Alert) (hidle : d.state.inFlightSync = false) (nowSecs : UInt64) :
    d.shouldStartSync nowSecs = true := by
  rw [DaemonLoop.shouldStartSync, if_neg (by simp [h.mode, h.shutdown, hidle]), Bool.or_eq_true, decide_eq_true_iff]
  refine (h.pending hidle).imp_right fun hdue => ?_
  rw [hdue]
  exact UInt64.zero_le

theorem nextDue_perform (d : DaemonLoop) (op : Op) : (d.perform op).2.nextDue = d.nextDue := by
  cases op with
  | setKnownPeersCount count => rfl
  | triggerSyncFromDiscovery =>
    rw [perform, triggerSyncFromDiscovery]
    split <;> rfl
  | requestShutdown =>
    rw [perform, requestShutdown]
    dsimp only
    split <;> rfl
  | startSync nowSecs =>
    rw [perform, startSync]
    split <;> rfl
  | runStartupSync execution nowSecs =>
    rw [perform, runStartupSync_eq]
    cases execution <;> rfl
  | finishSync execution nowSecs => cases execution <;> rfl

/-- A call that finishes a sync leaves the loop as `finish_sync` does. -/
theorem perform_of_finish {execution : SyncExecution} {nowSecs : UInt64}
    (h : op.finish? = some (execution, nowSecs)) : (d.perform op).2 = d.finishSync execution nowSecs := by
  cases op with
  | runStartupSync execution nowSecs =>
    cases h
    exact runStartupSync_eq d execution nowSecs
  | finishSync execution nowSecs =>
    cases h
    rfl
  | _ => cases h

private theorem alert_finishSync (hshutdown : d.shutdownRequested = false) {execution : SyncExecution}
    {nowSecs : UInt64} (hstopped : (d.finishSync execution nowSecs).state.mode ≠ .stopped)
    (hdue : ∀ result, execution = .success result → d.nextDue nowSecs = 0) :
    (d.finishSync execution nowSecs).Alert ∧ (d.finishSync execution nowSecs).state.inFlightSync = false := by
  cases execution with
  | criticalFailure message => exact absurd rfl hstopped
  | success result =>
    have hmode : (d.finishSync (.success result) nowSecs).state.mode =
      if d.shutdownRequested then .stopped else .running := rfl
    rw [hshutdown] at hmode
    exact ⟨⟨hmode, hshutdown, fun _ => Or.inr (hdue result rfl)⟩, rfl⟩

private theorem alert_perform (h : d.Alert) (hlegal : d.FinishesInFlight op) (hwaits : d.Waits op)
    (hfinish : d.state.inFlightSync = true → ∀ result nowSecs, op.finish? = some (.success result, nowSecs) →
      d.nextDue nowSecs = 0) :
    (d.perform op).2.Alert ∧ ((d.perform op).2.state.inFlightSync = true →
      d.state.inFlightSync = true ∧ op.finish? = none) := by
  obtain ⟨hstarts, hshutdown, hstopped⟩ := hwaits
  cases op with
  | setKnownPeersCount count => exact ⟨⟨h.mode, h.shutdown, h.pending⟩, fun hflight => ⟨hflight, rfl⟩⟩
  | triggerSyncFromDiscovery =>
    rw [perform, triggerSyncFromDiscovery, if_pos h.mode]
    exact ⟨⟨h.mode, h.shutdown, fun _ => Or.inl rfl⟩, fun hflight => ⟨hflight, rfl⟩⟩
  | requestShutdown => exact absurd rfl hshutdown
  | startSync nowSecs =>
    have hfalse : d.shouldStartSync nowSecs = false := by
      rw [Starts, startSync_fst] at hstarts
      exact Bool.not_eq_true _ ▸ hstarts
    rw [perform, startSync, hfalse]
    exact ⟨h, fun hflight => ⟨hflight, rfl⟩⟩
  | runStartupSync execution nowSecs =>
    have hflight : d.state.inFlightSync = true := by
      rw [Starts, startSync_fst] at hstarts
      by_contra hidle
      exact hstarts (h.shouldStartSync (Bool.not_eq_true _ ▸ hidle) nowSecs)
    rw [perform, runStartupSync_eq] at hstopped ⊢
    obtain ⟨halert, hidle⟩ := alert_finishSync h.shutdown hstopped fun result he =>
      hfinish hflight result nowSecs (by rw [Op.finish?, he])
    refine ⟨halert, fun hc => ?_⟩
    cases hidle.symm.trans hc
  | finishSync execution nowSecs =>
    obtain ⟨halert, hidle⟩ := alert_finishSync h.shutdown hstopped fun result he =>
      hfinish hlegal result nowSecs (by rw [Op.finish?, he])
    refine ⟨halert, fun hc => ?_⟩
    cases hidle.symm.trans hc

private theorem alert_after (h : d.Alert) (hlegal : Guarded perform FinishesInFlight d ops)
    (hwaits : Guarded perform Waits d ops) (hnot : d.state.inFlightSync = true → ¬ d.Succeeds ops) :
    (d.after ops).Alert := by
  induction ops generalizing d with
  | nil => exact h
  | cons op ops ih =>
    obtain ⟨halert, hflight⟩ := alert_perform h hlegal.1 hwaits.1 fun hc result nowSecs hop => by
      by_contra hdue
      exact hnot hc ⟨[], op, ops, result, nowSecs, rfl, hop, nofun, hdue⟩
    refine ih halert hlegal.2 hwaits.2 fun hc => ?_
    rintro ⟨during, last, later, result, nowSecs, rfl, hlast, hduring, hdue⟩
    obtain ⟨hold, hop⟩ := hflight hc
    rw [nextDue_perform] at hdue
    exact hnot hold ⟨op :: during, last, later, result, nowSecs, rfl, hlast,
      List.forall_mem_cons.mpr ⟨⟨hop, hwaits.1.2.1⟩, hduring⟩, hdue⟩

/-- A sync is in flight in a loop that nobody asked to stop. -/
structure Busy (d : DaemonLoop) : Prop where
  mode : d.state.mode = .running
  shutdown : d.shutdownRequested = false
  flight : d.state.inFlightSync = true

private theorem Busy.shouldStartSync (h : d.Busy) (nowSecs : UInt64) : d.shouldStartSync nowSecs = false :=
  if_pos (Or.inr (Or.inr h.flight))

private theorem busy_perform (h : d.Busy) (hfinish : op.finish? = none) (hshutdown : op ≠ .requestShutdown) :
    (d.perform op).2.Busy ∧ d.Waits op := by
  have hwaits (hbusy : (d.perform op).2.Busy) (hstarts : ¬ d.Starts op) : (d.perform op).2.Busy ∧ d.Waits op := by
    refine ⟨hbusy, hstarts, hshutdown, ?_⟩
    rw [hbusy.mode]
    decide
  cases op with
  | setKnownPeersCount count => exact hwaits ⟨h.mode, h.shutdown, h.flight⟩ id
  | triggerSyncFromDiscovery =>
    refine hwaits ?_ id
    rw [perform, triggerSyncFromDiscovery, if_pos h.mode]
    exact ⟨h.mode, h.shutdown, h.flight⟩
  | requestShutdown => exact absurd rfl hshutdown
  | startSync nowSecs =>
    have hperform : (d.perform (.startSync nowSecs)).2 = d := by
      rw [perform, startSync, h.shouldStartSync]
      rfl
    refine hwaits (hperform.symm ▸ h) ?_
    rw [Starts, startSync_fst, h.shouldStartSync]
    decide
  | runStartupSync execution nowSecs => cases hfinish
  | finishSync execution nowSecs => cases hfinish

private theorem busy_after (h : d.Busy) (hduring : ∀ o ∈ ops, o.finish? = none ∧ o ≠ .requestShutdown) :
    (d.after ops).Busy ∧ Guarded perform Waits d ops ∧ (d.after ops).nextDue = d.nextDue := by
  induction ops generalizing d with
  | nil => exact ⟨h, trivial, rfl⟩
  | cons op ops ih =>
    obtain ⟨⟨hfinish, hshutdown⟩, hduring⟩ := List.forall_mem_cons.mp hduring
    obtain ⟨hbusy, hwaits⟩ := busy_perform h hfinish hshutdown
    obtain ⟨hbusy', hwaits', hdue⟩ := ih hbusy hduring
    exact ⟨hbusy', ⟨hwaits, hwaits'⟩, hdue.trans (nextDue_perform d op)⟩

private theorem Busy.success (h : d.Busy) {result : SyncCycleResult} {nowSecs : UInt64}
    (hop : op.finish? = some (.success result, nowSecs)) (hdue : d.nextDue nowSecs ≠ 0) :
    d.Waits op ∧ (d.perform op).2.state.inFlightSync = false ∧ (d.perform op).2.shouldStartSync 0 = false := by
  have hstarts : ¬ d.Starts op := by
    cases op with
    | runStartupSync execution nowSecs =>
      rw [Starts, startSync_fst, h.shouldStartSync]
      decide
    | _ => cases hop <;> exact id
  have hperform := perform_of_finish (d := d) hop
  have hmode : (d.finishSync (.success result) nowSecs).state.mode = .running := if_neg (by simp [h.shutdown])
  rw [Waits, hperform]
  refine ⟨⟨hstarts, ?_, ?_⟩, rfl, ?_⟩
  · rintro rfl
    cases hop
  · rw [hmode]
    decide
  · have hlate : ¬ (d.finishSync (.success result) nowSecs).state.nextSyncDueSecs ≤ 0 := by
      rw [UInt64.le_zero_iff]
      exact hdue
    have hflag : (d.finishSync (.success result) nowSecs).state.syncTriggerPending = false := rfl
    rw [DaemonLoop.shouldStartSync, hflag, Bool.false_or, decide_eq_false hlate, ite_self]

private theorem after_trigger {start : DaemonLoop} {before : List Op}
    (hmode : (start.after before).state.mode = .running) :
    start.after (before ++ [.triggerSyncFromDiscovery]) = { start.after before with
      state := { (start.after before).state with syncTriggerPending := true } } :=
  (Transducer.after_append ..).trans (if_pos hmode)

private theorem after_since (start : DaemonLoop) (before since : List Op) :
    start.after (before ++ op :: since) = (start.after (before ++ [op])).after since := by
  rw [after, after, after, ← Transducer.after_append, List.append_assoc, List.singleton_append]

/-- No trigger is lost in a run if and only if none is overtaken by the success of a sync that
was in flight when it came. -/
theorem triggers_kept_iff (startedAtSecs syncIntervalSecs jitterSecs : UInt64)
    (hlegal : Guarded perform FinishesInFlight (new startedAtSecs syncIntervalSecs jitterSecs) ops) :
    AlwaysKept (new startedAtSecs syncIntervalSecs jitterSecs) ops ↔
      ¬ Overtaken (new startedAtSecs syncIntervalSecs jitterSecs) ops := by
  have hnew := consistent_new startedAtSecs syncIntervalSecs jitterSecs
  generalize new startedAtSecs syncIntervalSecs jitterSecs = start at *
  constructor
  · rintro hkept ⟨before, _, rfl, hmode, hflight, during, op, later, result, nowSecs, rfl, hop, hduring, hdue⟩
    have hshutdown := (consistent_after hnew before).unrequested_of_running hmode
    have hbusy : (start.after (before ++ [.triggerSyncFromDiscovery])).Busy := by
      rw [after_trigger hmode]
      exact ⟨hmode, hshutdown, hflight⟩
    have hsame : (start.after (before ++ [.triggerSyncFromDiscovery])).nextDue = (start.after before).nextDue := by
      rw [after_trigger hmode]
      rfl
    obtain ⟨hbusy, hwaits, hdue'⟩ := busy_after hbusy hduring
    rw [← hsame, ← hdue'] at hdue
    obtain ⟨hwait, hidle, hlost⟩ := hbusy.success hop hdue
    have hprefix : before ++ .triggerSyncFromDiscovery :: (during ++ [op]) <+:
        before ++ .triggerSyncFromDiscovery :: (during ++ op :: later) := ⟨later, by simp⟩
    have hrun : start.after (before ++ .triggerSyncFromDiscovery :: (during ++ [op])) =
        (((start.after (before ++ [.triggerSyncFromDiscovery])).after during).perform op).2 := by
      rw [after_since]
      exact Transducer.after_append ..
    have hstart := hkept _ hprefix before (during ++ [op]) rfl hmode (guarded_append.mpr ⟨hwaits, hwait, trivial⟩)
      (by rwa [hrun]) 0
    rw [hrun, hlost] at hstart
    cases hstart
  · rintro hnot ops' ⟨rest, rfl⟩ before since rfl hmode hwaits hidle nowSecs
    have hshutdown := (consistent_after hnew before).unrequested_of_running hmode
    have halert : (start.after (before ++ [.triggerSyncFromDiscovery])).Alert := by
      rw [after_trigger hmode]
      exact ⟨hmode, hshutdown, fun _ => Or.inl rfl⟩
    have hsince : Guarded perform FinishesInFlight (start.after (before ++ [.triggerSyncFromDiscovery])) since := by
      have hsplit : before ++ .triggerSyncFromDiscovery :: since ++ rest =
        (before ++ [.triggerSyncFromDiscovery]) ++ (since ++ rest) := by simp
      rw [hsplit] at hlegal
      exact (guarded_append.mp (guarded_append.mp hlegal).2).1
    rw [after_since] at hidle ⊢
    refine (alert_after halert hsince hwaits fun hflight => ?_).shouldStartSync hidle nowSecs
    rw [after_trigger hmode] at hflight ⊢
    rintro ⟨during, op, later, result, time, rfl, hop, hduring, hdue⟩
    refine hnot ⟨before, during ++ op :: (later ++ rest), by simp, hmode, hflight, ?_⟩
    exact ⟨during, op, later ++ rest, result, time, rfl, hop, hduring, hdue⟩

private def pollThenTrigger : List Op :=
  [.startSync 1030, .finishSync (.success ⟨1031, []⟩) 1031, .triggerSyncFromDiscovery]

/-- A trigger while nothing is in flight is kept. -/
theorem triggers_kept_idle : AlwaysKept (new 1000 30 0) pollThenTrigger := by
  have hlegal : Guarded perform FinishesInFlight (new 1000 30 0) pollThenTrigger :=
    ⟨trivial, rfl, trivial, trivial⟩
  refine (triggers_kept_iff 1000 30 0 hlegal).mpr ?_
  rintro ⟨before, since, hsplit, -, hflight, -⟩
  rcases before with _ | ⟨first, _ | ⟨second, _ | ⟨third, before⟩⟩⟩
  · cases hsplit
  · cases hsplit
  · cases hsplit
    cases hflight
  · cases before <;> cases hsplit

/-- A trigger comes while a sync is in flight, and is forgotten when that sync succeeds. -/
theorem trigger_lost : ∃ ops : List Op, Guarded perform FinishesInFlight (new 1000 30 0) ops ∧
    ¬ TriggersKept (new 1000 30 0) ops := by
  refine ⟨[.startSync 1030, .triggerSyncFromDiscovery, .finishSync (.success ⟨1031, []⟩) 1031],
    ⟨trivial, trivial, rfl, trivial⟩, fun h => ?_⟩
  have hstart := h [.startSync 1030] [.finishSync (.success ⟨1031, []⟩) 1031] rfl rfl ⟨?_, trivial⟩ rfl 1032
  · cases hstart
  · exact ⟨id, nofun, by decide⟩

end DaemonLoop
end SshKeySync.Daemon
