import SshKeySync.Config.Load
import SshKeySync.Daemon.Schedule

/-! The timer of `run_daemon`. The next sync is due an interval after the clock was read, which is
before the sync runs, and the sum is not checked. -/
namespace SshKeySync.Runtime
open RustStd Transducer Daemon

/-- A turn of the loop: the clock when it is read, whether discovery asks for a sync, and the clock at
the end of the turn, when a sync that it ran has finished. -/
structure Turn where
  nowSecs : UInt64
  discoveryTrigger : Bool
  finishedSecs : UInt64
  deriving DecidableEq

/-- Whether a sync runs, and when the next one is due. A sync that fails counts as well. -/
def takeTurn (syncIntervalSecs nextSyncAt : UInt64) (t : Turn) : Bool × UInt64 :=
  if nextSyncAt ≤ t.nowSecs ∨ t.discoveryTrigger then (true, t.nowSecs + max syncIntervalSecs 1)
  else (false, nextSyncAt)

def InOrder (turns : List Turn) : Prop :=
  (∀ t ∈ turns, t.nowSecs ≤ t.finishedSecs) ∧ turns.Pairwise fun a b => a.finishedSecs ≤ b.nowSecs

section
variable (syncIntervalSecs nextSyncAt : UInt64) (turns : List Turn)

def syncs : List Turn := ((trace (takeTurn syncIntervalSecs) nextSyncAt turns).filter Prod.snd).map Prod.fst

/-- After a sync the due time is ahead, and however the loop goes on, the next sync does not start
untriggered before a full interval has passed since this one finished. -/
def SpacedAfter (t : Turn) : Prop :=
  Ahead (t.nowSecs + max syncIntervalSecs 1) t.nowSecs (max syncIntervalSecs 1).toNat ∧
  ∀ idle next, InOrder (t :: (idle ++ [next])) →
    syncs syncIntervalSecs (t.nowSecs + max syncIntervalSecs 1) idle = [] → next.discoveryTrigger = false →
    (takeTurn syncIntervalSecs (after (takeTurn syncIntervalSecs) (t.nowSecs + max syncIntervalSecs 1) idle)
      next).1 = true →
    t.finishedSecs.toNat + (max syncIntervalSecs 1).toNat ≤ next.nowSecs.toNat

end

section
variable {syncIntervalSecs nextSyncAt : UInt64} {turns : List Turn} {t : Turn}

private theorem takeTurn_untriggered (h : t.discoveryTrigger = false) :
    (takeTurn syncIntervalSecs nextSyncAt t).1 = true ↔ nextSyncAt ≤ t.nowSecs := by
  rw [takeTurn, h]
  split
  · rename_i hdue
    exact iff_of_true rfl (hdue.resolve_right nofun)
  · rename_i hdue
    exact iff_of_false nofun fun h => hdue (Or.inl h)

private theorem takeTurn_of_idle (h : (takeTurn syncIntervalSecs nextSyncAt t).1 = false) :
    (takeTurn syncIntervalSecs nextSyncAt t).2 = nextSyncAt := by
  rw [takeTurn] at h ⊢
  split at h
  · cases h
  · rename_i hidle
    rw [if_neg hidle]

/-- The timer waits through the turns that do not sync. -/
theorem after_idle (h : syncs syncIntervalSecs nextSyncAt turns = []) :
    after (takeTurn syncIntervalSecs) nextSyncAt turns = nextSyncAt := by
  induction turns with
  | nil => rfl
  | cons t turns ih =>
    rw [syncs, trace] at h
    cases hturn : (takeTurn syncIntervalSecs nextSyncAt t).1 with
    | true => simp [hturn] at h
    | false =>
      rw [hturn, takeTurn_of_idle hturn, List.filter_cons_of_neg Bool.false_ne_true] at h
      rw [after_cons, takeTurn_of_idle hturn]
      exact ih h

/-- The next sync waits for a full interval exactly when the sum fits and the sync is over in the
second in which the clock was read. -/
theorem spacedAfter_iff (hle : t.nowSecs ≤ t.finishedSecs) : SpacedAfter syncIntervalSecs t ↔
    t.nowSecs.toNat + (max syncIntervalSecs 1).toNat < UInt64.size ∧ t.finishedSecs = t.nowSecs := by
  have hpos := one_le_max syncIntervalSecs
  rw [SpacedAfter, ahead_iff hpos (UInt64.toNat_add ..)]
  refine and_congr_right fun hfits => ?_
  have hdue : (t.nowSecs + max syncIntervalSecs 1).toNat = t.nowSecs.toNat + (max syncIntervalSecs 1).toNat :=
    (UInt64.toNat_add ..).trans (Nat.mod_eq_of_lt hfits)
  constructor
  · intro hspaced
    have hnext (nowSecs : UInt64) (hfinished : t.finishedSecs ≤ nowSecs)
        (hreached : t.nowSecs + max syncIntervalSecs 1 ≤ nowSecs) :
        t.finishedSecs.toNat + (max syncIntervalSecs 1).toNat ≤ nowSecs.toNat := by
      refine hspaced [] ⟨nowSecs, false, nowSecs⟩ ?_ rfl rfl ((takeTurn_untriggered rfl).mpr hreached)
      exact ⟨by simp [hle], by simp [hfinished]⟩
    -- the loop can go on at the due time, or at once when the sync took longer than the interval
    rcases UInt64.le_total (t.nowSecs + max syncIntervalSecs 1) t.finishedSecs with hlate | hlate
    · have := hnext t.finishedSecs UInt64.le_rfl hlate
      omega
    · have hsame := hnext _ hlate UInt64.le_rfl
      rw [hdue] at hsame
      exact UInt64.le_antisymm (UInt64.le_iff_toNat_le.mpr (by omega)) hle
  · intro hfinished idle next _ hidle huntriggered hsync
    rw [after_idle hidle, takeTurn_untriggered huntriggered, UInt64.le_iff_toNat_le, hdue] at hsync
    rw [hfinished]
    exact hsync

end

/-- Every sync of the run leaves room for the interval below the largest time, and is over in the
second in which the clock was read. -/
def Prompt (syncIntervalSecs nextSyncAt : UInt64) (turns : List Turn) : Prop :=
  ∀ t ∈ syncs syncIntervalSecs nextSyncAt turns,
    t.nowSecs.toNat + (max syncIntervalSecs 1).toNat < UInt64.size ∧ t.finishedSecs = t.nowSecs

private theorem mem_of_mem_syncs {syncIntervalSecs nextSyncAt : UInt64} {turns : List Turn} {t : Turn}
    (h : t ∈ syncs syncIntervalSecs nextSyncAt turns) : t ∈ turns := by
  obtain ⟨entry, hentry, rfl⟩ := List.mem_map.mp h
  have hturns : (trace (takeTurn syncIntervalSecs) nextSyncAt turns).map Prod.fst = turns := map_fst_trace ..
  exact hturns ▸ List.mem_map_of_mem (List.mem_filter.mp hentry).1

/-- Due times are ahead and syncs a full interval apart exactly while the sums fit and, in the loop of
the daemon, each sync is over in the second in which it started. -/
theorem schedule_iff (startedAtSecs syncIntervalSecs jitterSecs nextSyncAt : UInt64) (ops : List Op)
    (turns : List Turn) (horder : InOrder turns) :
    (DaemonLoop.Scheduled startedAtSecs syncIntervalSecs jitterSecs ops ↔
      DaemonLoop.Fits startedAtSecs syncIntervalSecs jitterSecs ops) ∧
    ((∀ t ∈ syncs syncIntervalSecs nextSyncAt turns, SpacedAfter syncIntervalSecs t) ↔
      Prompt syncIntervalSecs nextSyncAt turns) :=
  ⟨DaemonLoop.scheduled_iff startedAtSecs syncIntervalSecs jitterSecs ops,
    forall₂_congr fun t ht => spacedAfter_iff (horder.1 t (mem_of_mem_syncs ht))⟩

/-- A start, a sync and an idle turn of a loop with the default interval. -/
theorem schedule_default :
    let turns := [⟨1000, false, 1000⟩, ⟨1001, false, 1001⟩, ⟨1030, false, 1030⟩]
    DaemonLoop.Scheduled 1000 30 5 [.finishSync (.success ⟨1031, []⟩) 1031] ∧
      ∀ t ∈ syncs 30 1000 turns, SpacedAfter 30 t := by
  have horder : InOrder [⟨1000, false, 1000⟩, ⟨1001, false, 1001⟩, ⟨1030, false, 1030⟩] := by
    simp [InOrder]
  have hiff := schedule_iff 1000 30 5 1000 [.finishSync (.success ⟨1031, []⟩) 1031] _ horder
  refine ⟨hiff.1.mpr (by decide), hiff.2.mpr ?_⟩
  rw [Prompt]
  decide

/-- An interval that loading accepts, after which the daemon syncs on every turn. -/
theorem longest_interval_wraps :
    let input : Config.ConfigInput :=
      { sid := some "group-a".toList, sidToken := some "secret".toList,
        syncIntervalSecs := some 18446744073709551615 }
    (∃ config, Config.loadConfigWithSources (fun _ => none) input .requireSyncConfig ∅ = .ok (some config) ∧
      config.syncIntervalSecs = 18446744073709551615) ∧
    ¬ DaemonLoop.Scheduled 1000 18446744073709551615 0 [] ∧
    ¬ SpacedAfter 18446744073709551615 ⟨1000, false, 1000⟩ ∧
    syncs 18446744073709551615 1000 [⟨1000, false, 1000⟩, ⟨1000, false, 1000⟩] =
      [⟨1000, false, 1000⟩, ⟨1000, false, 1000⟩] := by
  refine ⟨⟨_, rfl, rfl⟩, ?_, ?_, by decide⟩
  · rw [DaemonLoop.scheduled_iff]
    decide
  · rw [spacedAfter_iff UInt64.le_rfl]
    decide

end SshKeySync.Runtime
