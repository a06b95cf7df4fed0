import SshKeySync.Daemon.Triggers
import SshKeySync.Std.Number

/-! When a sync is due. A due time is a sum of `u64`s that nothing bounds, so a long interval can
wrap to a time that has passed. -/
namespace SshKeySync.Daemon
open RustStd Transducer

/-- The due time is the exact sum, and later than now. -/
def Ahead (dueSecs nowSecs : UInt64) (delay : Nat) : Prop :=
  dueSecs.toNat = nowSecs.toNat + delay ∧ nowSecs < dueSecs

/-- The due time lies ahead exactly when the sum does not wrap. -/
theorem ahead_iff {dueSecs nowSecs : UInt64} {delay : Nat} (hpos : 0 < delay)
    (hdue : dueSecs.toNat = (nowSecs.toNat + delay) % UInt64.size) :
    Ahead dueSecs nowSecs delay ↔ nowSecs.toNat + delay < UInt64.size := by
  rw [Ahead, hdue, UInt64.lt_iff_toNat_lt, hdue]
  constructor
  · rintro ⟨hexact, -⟩
    exact hexact ▸ Nat.mod_lt _ (by decide)
  · intro hfits
    rw [Nat.mod_eq_of_lt hfits]
    omega

/-- The interval is at least a second. -/
theorem one_le_max (syncIntervalSecs : UInt64) : 1 ≤ (max syncIntervalSecs 1).toNat := by
  rw [show max syncIntervalSecs 1 = if syncIntervalSecs ≤ 1 then 1 else syncIntervalSecs from rfl]
  split
  · rfl
  · rename_i h
    exact (UInt64.lt_iff_toNat_lt.mp (UInt64.not_le.mp h)).le

def Op.success? (op : Op) : Option UInt64 := op.finish?.bind fun finish =>
  match finish.1 with
  | .success _ => some finish.2
  | .criticalFailure _ => none

def lastFinish (ops : List Op) : Option UInt64 := (ops.filterMap Op.finish?).getLast?.map Prod.snd

namespace DaemonLoop
variable {d : DaemonLoop} {op : Op} {ops : List Op}

private theorem nextDue_after (d : DaemonLoop) (ops : List Op) : (d.after ops).nextDue = d.nextDue :=
  invariant_after (fun d' : DaemonLoop => d'.nextDue = d.nextDue)
    (fun d' op h => (nextDue_perform d' op).trans h) rfl ops

private theorem after_concat (d : DaemonLoop) (ops : List Op) (op : Op) :
    d.after (ops ++ [op]) = ((d.after ops).perform op).2 := Transducer.after_append ..

private theorem perform_of_finish_none (h : op.finish? = none) :
    (d.perform op).2.state.nextSyncDueSecs = d.state.nextSyncDueSecs ∧
      (d.state.mode = .stopped → (d.perform op).2.state.mode = .stopped) := by
  cases op with
  | setKnownPeersCount count => exact ⟨rfl, id⟩
  | triggerSyncFromDiscovery =>
    rw [perform, triggerSyncFromDiscovery]
    split
    · exact ⟨rfl, id⟩
    · exact ⟨rfl, id⟩
  | requestShutdown =>
    rw [perform, requestShutdown]
    dsimp only
    split
    · exact ⟨rfl, id⟩
    · rename_i hne
      exact ⟨rfl, fun hstopped => absurd hstopped hne⟩
  | startSync nowSecs =>
    rw [perform, startSync]
    split
    · exact ⟨rfl, id⟩
    · exact ⟨rfl, id⟩
  | runStartupSync execution nowSecs => cases h
  | finishSync execution nowSecs => cases h

/-- Unless the loop is stopped, the last sync to finish was a success and set the due time. -/
def Timed (start : DaemonLoop) (ops : List Op) : Prop := (start.after ops).state.mode = .stopped ∨
  ∀ finishedSecs, lastFinish ops = some finishedSecs → finishedSecs ∈ ops.filterMap Op.success? ∧
    (start.after ops).state.nextSyncDueSecs = start.nextDue finishedSecs

private theorem timed_after (start : DaemonLoop) (ops : List Op) : start.Timed ops := by
  induction ops using List.reverseRecOn with
  | nil => exact Or.inr nofun
  | append_singleton ops op ih =>
    rw [Timed, after_concat]
    cases hfinish : op.finish? with
    | none =>
      obtain ⟨hdue, hstopped⟩ := perform_of_finish_none (d := start.after ops) hfinish
      refine ih.imp hstopped fun h finishedSecs hlast => ?_
      rw [lastFinish, List.filterMap_append, List.filterMap_cons_none hfinish, List.filterMap_nil,
        List.append_nil] at hlast
      obtain ⟨hmem, hprev⟩ := h finishedSecs hlast
      rw [List.filterMap_append]
      exact ⟨List.mem_append_left _ hmem, hdue.trans hprev⟩
    | some finish =>
      obtain ⟨execution, nowSecs⟩ := finish
      rw [perform_of_finish hfinish]
      cases execution with
      | criticalFailure message => exact Or.inl rfl
      | success result =>
        refine Or.inr fun finishedSecs hlast => ?_
        rw [lastFinish, List.filterMap_append, List.filterMap_cons_some hfinish, List.filterMap_nil,
          List.getLast?_concat] at hlast
        obtain rfl : nowSecs = finishedSecs := Option.some.inj hlast
        have hsuccess : op.success? = some nowSecs := by rw [Op.success?, hfinish]; rfl
        refine ⟨?_, congrFun (nextDue_after start ops) nowSecs⟩
        rw [List.filterMap_append, List.filterMap_cons_some hsuccess]
        exact List.mem_append_right _ List.mem_cons_self

def delay (syncIntervalSecs jitterSecs : UInt64) : Nat := (max syncIntervalSecs 1).toNat + jitterSecs.toNat

/-- In a run from `new` every due time is ahead, and no sync starts untriggered before a full interval
has passed since the last one finished. -/
structure Scheduled (startedAtSecs syncIntervalSecs jitterSecs : UInt64) (ops : List Op) : Prop where
  ahead_new : Ahead (new startedAtSecs syncIntervalSecs jitterSecs).state.nextSyncDueSecs startedAtSecs
    (delay syncIntervalSecs jitterSecs)
  ahead_finish : ∀ before op later nowSecs, ops = before ++ op :: later → op.success? = some nowSecs →
    Ahead ((new startedAtSecs syncIntervalSecs jitterSecs).after (before ++ [op])).state.nextSyncDueSecs nowSecs
      (delay syncIntervalSecs jitterSecs)
  spaced : ∀ before nowSecs finishedSecs, before <+: ops →
    ((new startedAtSecs syncIntervalSecs jitterSecs).after before).state.syncTriggerPending = false →
    (((new startedAtSecs syncIntervalSecs jitterSecs).after before).startSync nowSecs).1 = true →
    lastFinish before = some finishedSecs →
    finishedSecs.toNat + (max syncIntervalSecs 1).toNat ≤ nowSecs.toNat

/-- The start and every success leave room for the delay below the largest time. -/
def Fits (startedAtSecs syncIntervalSecs jitterSecs : UInt64) (ops : List Op) : Prop :=
  ∀ nowSecs ∈ startedAtSecs :: ops.filterMap Op.success?,
    nowSecs.toNat + delay syncIntervalSecs jitterSecs < UInt64.size

instance (startedAtSecs syncIntervalSecs jitterSecs : UInt64) (ops : List Op) :
    Decidable (Fits startedAtSecs syncIntervalSecs jitterSecs ops) := List.decidableBAll ..

section
variable {startedAtSecs syncIntervalSecs jitterSecs : UInt64}

private theorem ahead_nextDue (startedAtSecs nowSecs : UInt64) :
    Ahead ((new startedAtSecs syncIntervalSecs jitterSecs).nextDue nowSecs) nowSecs
        (delay syncIntervalSecs jitterSecs) ↔
      nowSecs.toNat + delay syncIntervalSecs jitterSecs < UInt64.size := by
  refine ahead_iff (Nat.add_pos_left (one_le_max syncIntervalSecs) _) ?_
  rw [nextDue, UInt64.toNat_add, UInt64.toNat_add, Nat.mod_add_mod, delay, Nat.add_assoc]
  rfl

private theorem due_of_success {before : List Op} {nowSecs : UInt64} (h : op.success? = some nowSecs) :
    ((new startedAtSecs syncIntervalSecs jitterSecs).after (before ++ [op])).state.nextSyncDueSecs =
      (new startedAtSecs syncIntervalSecs jitterSecs).nextDue nowSecs := by
  obtain ⟨⟨execution, finishedSecs⟩, hfinish, h⟩ := Option.bind_eq_some_iff.mp h
  cases execution with
  | criticalFailure message => cases h
  | success result =>
    obtain rfl : finishedSecs = nowSecs := Option.some.inj h
    rw [after_concat, perform_of_finish hfinish]
    exact congrFun (nextDue_after _ before) finishedSecs

private theorem due_of_untriggered {nowSecs : UInt64} (huntriggered : d.state.syncTriggerPending = false)
    (hstart : d.shouldStartSync nowSecs = true) : d.state.nextSyncDueSecs ≤ nowSecs := by
  rw [shouldStartSync] at hstart
  split at hstart
  · cases hstart
  · simpa [huntriggered] using hstart

/-- Every due time of a run lies ahead exactly when every sum fits. -/
theorem scheduled_iff (startedAtSecs syncIntervalSecs jitterSecs : UInt64) (ops : List Op) :
    Scheduled startedAtSecs syncIntervalSecs jitterSecs ops ↔ Fits startedAtSecs syncIntervalSecs jitterSecs ops := by
  constructor
  · intro h nowSecs hmem
    rcases List.mem_cons.mp hmem with rfl | hmem
    · exact (ahead_nextDue nowSecs nowSecs).mp h.ahead_new
    · obtain ⟨op, hop, hsuccess⟩ := List.mem_filterMap.mp hmem
      obtain ⟨before, later, rfl⟩ := List.append_of_mem hop
      have hahead := h.ahead_finish before op later nowSecs rfl hsuccess
      rw [due_of_success hsuccess] at hahead
      exact (ahead_nextDue startedAtSecs nowSecs).mp hahead
  · intro hfits
    refine ⟨(ahead_nextDue startedAtSecs startedAtSecs).mpr (hfits _ List.mem_cons_self), ?_, ?_⟩
    · rintro before op later nowSecs rfl hsuccess
      rw [due_of_success hsuccess]
      exact (ahead_nextDue startedAtSecs nowSecs).mpr (hfits _ (List.mem_cons_of_mem _
        (List.mem_filterMap.mpr ⟨op, by simp, hsuccess⟩)))
    · rintro before nowSecs finishedSecs ⟨later, rfl⟩ huntriggered hstart hlast
      rw [startSync_fst] at hstart
      rcases timed_after (new startedAtSecs syncIntervalSecs jitterSecs) before with hstopped | htimed
      · cases (shouldStartSync_of_stopped hstopped nowSecs).symm.trans hstart
      · obtain ⟨hmem, hdue⟩ := htimed finishedSecs hlast
        have hroom := hfits finishedSecs (List.mem_cons_of_mem _ (by
          rw [List.filterMap_append]
          exact List.mem_append_left _ hmem))
        have hexact := ((ahead_nextDue startedAtSecs finishedSecs).mpr hroom).1
        have hreached := due_of_untriggered huntriggered hstart
        rw [hdue, UInt64.le_iff_toNat_le, hexact, delay] at hreached
        omega

end
end DaemonLoop
end SshKeySync.Daemon
