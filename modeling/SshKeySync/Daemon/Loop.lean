import SshKeySync.Std.Text
import SshKeySync.Theory.Transducer

/-! The scheduling of sync cycles. A shutdown waits for the sync in flight, and a critical
failure stops the loop for good. -/
namespace SshKeySync.Daemon
open RustStd

inductive DaemonMode where
  | running
  | stopping
  | stopped
  deriving DecidableEq

inductive PeerSyncErrorKind where
  | authFailed
  | unreachable
  | invalidPayload
  deriving DecidableEq

structure PeerSyncError where
  participantId : Str
  kind : PeerSyncErrorKind
  message : Str
  deriving DecidableEq

structure SyncCycleResult where
  completedAtSecs : UInt64
  peerErrors : List PeerSyncError
  deriving DecidableEq

inductive SyncExecution where
  | success (result : SyncCycleResult)
  | criticalFailure (message : Str)
  deriving DecidableEq

structure DaemonState where
  mode : DaemonMode
  knownPeersCount : USize
  syncTriggerPending : Bool
  nextSyncDueSecs : UInt64
  inFlightSync : Bool
  lastSuccessfulSyncAtSecs : Option UInt64
  lastPeerErrors : List PeerSyncError
  lastCriticalError : Option Str
  deriving DecidableEq

structure DaemonLoop where
  syncIntervalSecs : UInt64
  jitterSecs : UInt64
  shutdownRequested : Bool
  state : DaemonState
  deriving DecidableEq

namespace DaemonLoop

/-- The sums wrap, as they do without overflow checks. -/
def new (startedAtSecs syncIntervalSecs jitterSecs : UInt64) : DaemonLoop where
  syncIntervalSecs := max syncIntervalSecs 1
  jitterSecs := jitterSecs
  shutdownRequested := false
  state := {
    mode := .running
    knownPeersCount := 0
    syncTriggerPending := false
    nextSyncDueSecs := startedAtSecs + max syncIntervalSecs 1 + jitterSecs
    inFlightSync := false
    lastSuccessfulSyncAtSecs := none
    lastPeerErrors := []
    lastCriticalError := none }

variable (d : DaemonLoop)

def setKnownPeersCount (count : USize) : DaemonLoop :=
  { d with state := { d.state with knownPeersCount := count } }

def triggerSyncFromDiscovery : DaemonLoop :=
  if d.state.mode = .running then { d with state := { d.state with syncTriggerPending := true } } else d

def requestShutdown : DaemonLoop :=
  let d := { d with shutdownRequested := true }
  if d.state.mode = .stopped then d
  else { d with state := { d.state with mode := if d.state.inFlightSync then .stopping else .stopped } }

def shouldStartSync (nowSecs : UInt64) : Bool :=
  if d.state.mode = .stopped ∨ d.shutdownRequested ∨ d.state.inFlightSync then false
  else d.state.syncTriggerPending || d.state.nextSyncDueSecs ≤ nowSecs

def startSync (nowSecs : UInt64) : Bool × DaemonLoop :=
  if d.shouldStartSync nowSecs then (true, { d with state := { d.state with inFlightSync := true } })
  else (false, d)

/-- A critical failure returns before the shutdown is looked at. -/
def finishSync (execution : SyncExecution) (nowSecs : UInt64) : DaemonLoop :=
  let state := { d.state with inFlightSync := false, syncTriggerPending := false }
  match execution with
  | .success result => { d with state := { state with
      lastSuccessfulSyncAtSecs := some result.completedAtSecs
      lastPeerErrors := result.peerErrors
      lastCriticalError := none
      nextSyncDueSecs := nowSecs + d.syncIntervalSecs + d.jitterSecs
      mode := if d.shutdownRequested then .stopped else .running } }
  | .criticalFailure message => { d with state := { state with
      lastCriticalError := some message, mode := .stopped } }

def runStartupSync (execution : SyncExecution) (nowSecs : UInt64) : DaemonLoop :=
  let (started, d) := d.startSync nowSecs
  let d := if started then d else { d with state := { d.state with inFlightSync := true } }
  d.finishSync execution nowSecs

end DaemonLoop

inductive Op where
  | setKnownPeersCount (count : USize)
  | triggerSyncFromDiscovery
  | requestShutdown
  | startSync (nowSecs : UInt64)
  | runStartupSync (execution : SyncExecution) (nowSecs : UInt64)
  | finishSync (execution : SyncExecution) (nowSecs : UInt64)
  deriving DecidableEq

namespace DaemonLoop
variable (d : DaemonLoop)

/-- The output is the result of `startSync`; the other operations return nothing. -/
def perform : Op → Option Bool × DaemonLoop
  | .setKnownPeersCount count => (none, d.setKnownPeersCount count)
  | .triggerSyncFromDiscovery => (none, d.triggerSyncFromDiscovery)
  | .requestShutdown => (none, d.requestShutdown)
  | .startSync nowSecs => (some (d.startSync nowSecs).1, (d.startSync nowSecs).2)
  | .runStartupSync execution nowSecs => (none, d.runStartupSync execution nowSecs)
  | .finishSync execution nowSecs => (none, d.finishSync execution nowSecs)

def after (ops : List Op) : DaemonLoop := Transducer.after perform d ops

/-- A sync is finished only while one is in flight. -/
def FinishesInFlight (d : DaemonLoop) : Op → Prop
  | .finishSync _ _ => d.state.inFlightSync
  | _ => True

def StartupFirst (ops : List Op) : Prop := ∀ execution nowSecs, .runStartupSync execution nowSecs ∉ ops.tail

end DaemonLoop
end SshKeySync.Daemon
