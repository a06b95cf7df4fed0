import SshKeySync.Runtime.DaemonRuns

/-! The daemon has a timer and a trigger of its own in the place of a `DaemonLoop`. In every run it
begins and finishes its syncs, and ends, as the loop would that was started one interval before. -/
namespace SshKeySync.Runtime.DaemonProcess
open RustStd Parties
open SshKeySync.Daemon (DaemonLoop DaemonMode Op)

abbrev Call := Op × Option Bool

/-- The mode of a loop at this stage, whether its shutdown is requested, and whether a sync is in
flight. A daemon that panics tells it nothing. -/
def Stage.loopView : Stage → DaemonMode × Bool × Bool
  | .asking .. | .awaiting .. | .saving _ | .announcing _ => (.running, false, true)
  | .ended .stopped => (.stopped, true, false)
  | .ended (.failed _) => (.stopped, false, false)
  | _ => (.running, false, false)

def Stage.syncing (stage : Stage) : Bool := stage.loopView.2.2

/-- The calls that a step of the daemon stands for, with the answer that the daemon gives itself. A sync
counts from the time at which it began. -/
def calls (d : Daemon) (s s' : State) : Event → List Call
  | .noDatagram nowSecs _ _ =>
    (if s.discovery.takeSyncTrigger.1 then [(.triggerSyncFromDiscovery, none)] else []) ++
      [(.startSync nowSecs, some s'.stage.syncing)]
  | .save .. => match s.stage, s'.stage with
    | .saving began, .ended _ => [(.finishSync (.criticalFailure d.authorizedKeysPath) began, none)]
    | _, _ => []
  | .announce nowSecs _ => match s.stage with
    | .announcing began => [(.finishSync (.success ⟨nowSecs, []⟩) began, none)]
    | _ => []
  | .pause true => [(.requestShutdown, none)]
  | _ => []

def callingStep (P : Auth.Primitives) (d : Daemon) (s : State) (e : Event) : Option (List Call × State) :=
  (step P d s e).map fun next => (calls d s next.2 e, next.2)

/-- The loop without jitter that was started one interval before the daemon. -/
def loopOf (d : Daemon) (startedAt : UInt64) : DaemonLoop :=
  .new (startedAt - max d.config.syncIntervalSecs 1) d.config.syncIntervalSecs 0

/-- A sync is finished only while one is in flight, and a trigger or a shutdown comes only while none is. -/
def Timely (loop : DaemonLoop) : Op → Prop
  | .finishSync _ _ => loop.state.inFlightSync = true
  | .triggerSyncFromDiscovery | .requestShutdown => loop.state.inFlightSync = false
  | _ => True

/-- The loop stands where the daemon stands. -/
structure InStep (d : Daemon) (loop : DaemonLoop) (s : State) : Prop where
  syncIntervalSecs : loop.syncIntervalSecs = max d.config.syncIntervalSecs 1
  jitterSecs : loop.jitterSecs = 0
  view : (loop.state.mode, loop.shutdownRequested, loop.state.inFlightSync) = s.stage.loopView
  trigger : s.stage.syncing = false → loop.state.syncTriggerPending = false
  due : loop.state.nextSyncDueSecs = s.nextSyncAt

/-- The loop returns what is listed, is called in time, and stands where the daemon stands afterwards. -/
structure Agrees (d : Daemon) (loop : DaemonLoop) (called : List Call) (s : State) : Prop where
  trace : Transducer.trace DaemonLoop.perform loop (called.map Prod.fst) = called
  timely : Transducer.Guarded DaemonLoop.perform Timely loop (called.map Prod.fst)
  inStep : InStep d (loop.after (called.map Prod.fst)) s

section
variable {P : Auth.Primitives} {d : Daemon} {loop : DaemonLoop} {s s' : State} {e : Event} {out : List Output}

private theorem loopView_ask (began : UInt64) (endpoints : List PeerEndpoint) :
    (Stage.ask began endpoints).loopView = (.running, false, true) := by
  cases endpoints <;> rfl

private theorem inStep_start (d : Daemon) (startedAt : UInt64) :
    InStep d (loopOf d startedAt) (d.start startedAt) where
  syncIntervalSecs := rfl
  jitterSecs := rfl
  view := rfl
  trigger _ := rfl
  due := by
    have hdue : (loopOf d startedAt).state.nextSyncDueSecs =
        startedAt - max d.config.syncIntervalSecs 1 + max d.config.syncIntervalSecs 1 + 0 := rfl
    rw [hdue, UInt64.add_zero, UInt64.sub_add_cancel]
    rfl

private theorem InStep.keep (h : InStep d loop s) (hview : s'.stage.loopView = s.stage.loopView)
    (hdue : s'.nextSyncAt = s.nextSyncAt) : InStep d loop s' := by
  refine ⟨h.syncIntervalSecs, h.jitterSecs, h.view.trans hview.symm, fun hidle => h.trigger ?_, h.due.trans hdue.symm⟩
  rw [Stage.syncing, ← hview]
  exact hidle

private theorem startSync_idle (hmode : loop.state.mode = .running) (hshutdown : loop.shutdownRequested = false)
    (hidle : loop.state.inFlightSync = false) (nowSecs : UInt64) : loop.startSync nowSecs =
      if loop.state.nextSyncDueSecs ≤ nowSecs ∨ loop.state.syncTriggerPending = true then
        (true, { loop with state := { loop.state with inFlightSync := true } }) else (false, loop) := by
  have hstart : loop.shouldStartSync nowSecs = true ↔
      loop.state.nextSyncDueSecs ≤ nowSecs ∨ loop.state.syncTriggerPending = true := by
    rw [DaemonLoop.shouldStartSync, if_neg (by simp [hmode, hshutdown, hidle]), Bool.or_eq_true, decide_eq_true_iff]
    exact or_comm
  rw [DaemonLoop.startSync]
  exact ite_congr (propext hstart) (fun _ => rfl) fun _ => rfl

private theorem Agrees.append {called later : List Call} (h : Agrees d loop called s)
    (hlater : Agrees d (loop.after (called.map Prod.fst)) later s') : Agrees d loop (called ++ later) s' := by
  refine ⟨?_, ?_, ?_⟩
  · rw [List.map_append, Transducer.trace_append, h.trace]
    exact congrArg _ hlater.trace
  · rw [List.map_append]
    exact Transducer.guarded_append.mpr ⟨h.timely, hlater.timely⟩
  · rw [List.map_append, DaemonLoop.after, Transducer.after_append]
    exact hlater.inStep

private theorem Agrees.quiet (h : InStep d loop s) : Agrees d loop [] s := ⟨rfl, trivial, h⟩

private theorem Agrees.cons {op : Op} {answer : Option Bool} {later : List Call} (htimely : Timely loop op)
    (hanswer : (loop.perform op).1 = answer) (h : Agrees d (loop.perform op).2 later s) :
    Agrees d loop ((op, answer) :: later) s := by
  refine ⟨?_, ⟨htimely, h.timely⟩, h.inStep⟩
  rw [List.map_cons, Transducer.trace, h.trace, hanswer]

private theorem idle_of_view (h : InStep d loop s) (hview : s.stage.loopView = (.running, false, false)) :
    loop.state.mode = .running ∧ loop.shutdownRequested = false ∧ loop.state.inFlightSync = false ∧
      loop.state.syncTriggerPending = false := by
  have hsame := h.view.trans hview
  simp only [Prod.mk.injEq] at hsame
  refine ⟨hsame.1, hsame.2.1, hsame.2.2, h.trigger ?_⟩
  rw [Stage.syncing, hview]

private theorem agrees_polled (h : InStep d loop s) (hstage : s.stage = .receiving) (nowSecs : UInt64)
    (recordOrder : HashMap.Iteration Discovery.PeerRecord) (endpointOrder : HashMap.Iteration PeerEndpoint) :
    Agrees d loop (calls d s (s.poll d nowSecs recordOrder endpointOrder)
      (.noDatagram nowSecs recordOrder endpointOrder)) (s.poll d nowSecs recordOrder endpointOrder) := by
  obtain ⟨hmode, hshutdown, hidle, hpending⟩ := idle_of_view h (by rw [hstage]; rfl)
  have hstarted (pending : Bool) (hdue : s.nextSyncAt ≤ nowSecs ∨ pending = true)
      (hsync : s.nextSyncAt ≤ nowSecs ∨ s.discovery.takeSyncTrigger.1 = true) :
      Agrees d { loop with state := { loop.state with syncTriggerPending := pending } }
        [(.startSync nowSecs, some (s.poll d nowSecs recordOrder endpointOrder).stage.syncing)]
        (s.poll d nowSecs recordOrder endpointOrder) := by
    have hview : (s.poll d nowSecs recordOrder endpointOrder).stage.loopView = (.running, false, true) :=
      (congrArg Stage.loopView (if_pos hsync)).trans (loopView_ask ..)
    have hstart := @startSync_idle { loop with state := { loop.state with syncTriggerPending := pending } }
      hmode hshutdown hidle nowSecs
    rw [if_pos (h.due ▸ hdue)] at hstart
    refine Agrees.cons trivial ?_ (Agrees.quiet ?_)
    · rw [DaemonLoop.perform, hstart, Stage.syncing, hview]
    · rw [DaemonLoop.perform, hstart]
      refine ⟨h.syncIntervalSecs, h.jitterSecs, ?_, fun hc => ?_, h.due⟩
      · rw [hview, hmode, hshutdown]
      · rw [Stage.syncing, hview] at hc
        cases hc
  rw [calls]
  cases htrigger : s.discovery.takeSyncTrigger.1 with
  | true =>
    have hraise : loop.triggerSyncFromDiscovery =
        { loop with state := { loop.state with syncTriggerPending := true } } := if_pos hmode
    refine Agrees.cons hidle rfl ?_
    rw [DaemonLoop.perform, hraise]
    exact hstarted true (Or.inr rfl) (Or.inr htrigger)
  | false =>
    by_cases hdue : s.nextSyncAt ≤ nowSecs
    · have hsame : { loop with state := { loop.state with syncTriggerPending := false } } = loop := by
        rw [← hpending]
      have hagrees := hstarted false (Or.inl hdue) (Or.inl hdue)
      rwa [hsame] at hagrees
    · have hidleStage : (s.poll d nowSecs recordOrder endpointOrder).stage = .pausing :=
        if_neg (by rw [htrigger]; simp [hdue])
      have hstart := startSync_idle hmode hshutdown hidle nowSecs
      rw [if_neg (by simp [h.due, hdue, hpending])] at hstart
      refine Agrees.cons trivial ?_ (Agrees.quiet ?_)
      · rw [DaemonLoop.perform, hstart, hidleStage]
        rfl
      · rw [DaemonLoop.perform, hstart]
        refine h.keep ?_ rfl
        rw [hidleStage, hstage]
        rfl

private theorem agrees_step (h : InStep d loop s) (hsteps : Steps P d s e out s') :
    Agrees d loop (calls d s s' e) s' := by
  have hquiet (hview : s'.stage.loopView = s.stage.loopView) (hdue : s'.nextSyncAt = s.nextSyncAt) :
      Agrees d loop [] s' := Agrees.quiet (h.keep hview hdue)
  have hflight (hview : s.stage.loopView = (.running, false, true)) :
      loop.state.mode = .running ∧ loop.shutdownRequested = false ∧ loop.state.inFlightSync = true := by
    have hsame := h.view.trans hview
    simp only [Prod.mk.injEq] at hsame
    exact hsame
  cases hsteps with
  | start hstage =>
    rw [calls, hstage]
    exact hquiet (by rw [hstage]; rfl) rfl
  | replied hstage hreply => exact hquiet rfl rfl
  | dropped hstage hreply => exact hquiet rfl rfl
  | panicked hstage hreply => exact hquiet (by rw [hstage]; rfl) rfl
  | served hstage => exact hquiet (by rw [hstage]; rfl) rfl
  | received hstage => exact hquiet rfl rfl
  | polled hstage => exact agrees_polled h hstage _ _ _
  | posted hstage => exact hquiet (by rw [hstage]; rfl) rfl
  | answered hstage => exact hquiet (by rw [hstage]; exact loopView_ask ..) rfl
  | unwritten hstage hdryRun =>
    rw [calls, hstage]
    exact hquiet (by rw [hstage]; rfl) rfl
  | written hstage hdryRun hfile =>
    rw [calls, hstage]
    exact hquiet (by rw [hstage]; rfl) rfl
  | refused hstage hdryRun hfile =>
    obtain ⟨-, hshutdown, hin⟩ := hflight (by rw [hstage]; rfl)
    rw [calls, hstage]
    refine Agrees.cons hin rfl (Agrees.quiet ⟨h.syncIntervalSecs, h.jitterSecs, ?_, fun _ => rfl, h.due⟩)
    rw [DaemonLoop.perform, DaemonLoop.finishSync]
    exact congrArg (fun shutdown => (DaemonMode.stopped, shutdown, false)) hshutdown
  | @announced began nowSecs nanos hstage =>
    obtain ⟨hmode, hshutdown, hin⟩ := hflight (by rw [hstage]; rfl)
    rw [calls, hstage]
    refine Agrees.cons hin rfl (Agrees.quiet ⟨h.syncIntervalSecs, h.jitterSecs, ?_, fun _ => rfl, ?_⟩)
    · rw [DaemonLoop.perform, DaemonLoop.finishSync]
      dsimp only
      rw [hshutdown]
      rfl
    · rw [DaemonLoop.perform, DaemonLoop.finishSync]
      dsimp only
      rw [h.syncIntervalSecs, h.jitterSecs, UInt64.add_zero]
  | @paused stopRequested hstage =>
    obtain ⟨hmode, hshutdown, hidle, hpending⟩ := idle_of_view h (by rw [hstage]; rfl)
    cases stopRequested with
    | false => exact hquiet (by rw [hstage]; rfl) rfl
    | true =>
      have hstop : loop.requestShutdown =
          { loop with shutdownRequested := true, state := { loop.state with mode := .stopped } } := by
        simp [DaemonLoop.requestShutdown, hmode, hidle]
      refine Agrees.cons hidle rfl (Agrees.quiet ?_)
      rw [DaemonLoop.perform, hstop]
      exact ⟨h.syncIntervalSecs, h.jitterSecs, congrArg (fun flight => (DaemonMode.stopped, true, flight)) hidle,
        fun _ => hpending, h.due⟩

end

/-- In every run of the daemon, a loop that is told of its triggers, polls, finished syncs and stop starts
a sync exactly when the daemon does, and has the daemon's due time and state. -/
theorem daemon_follows_loop {P : Auth.Primitives} {d : Daemon} {startedAt : UInt64} {events : List Event}
    {called : List Call} {s : State}
    (hrun : Runs.run (logged (callingStep P d)) ([], d.start startedAt) events = some (called, s)) :
    Agrees d (loopOf d startedAt) called s := by
  have hguard : Runs.Guarded (logged (callingStep P d)) (fun _ _ => True) ([], d.start startedAt) events :=
    Runs.guarded_of_forall (fun _ _ => trivial) _ events
  refine @Runs.invariant_run _ _ _ _ (fun s => Agrees d (loopOf d startedAt) s.1 s.2) _ _ _
    (fun t e t' h _ hstep => ?_) (Agrees.quiet (inStep_start d startedAt)) hguard hrun
  obtain ⟨later, hlater, hlog⟩ := logged_eq_some_iff.mp hstep
  obtain ⟨⟨out, next⟩, hnext, hpair⟩ := Option.map_eq_some_iff.mp hlater
  obtain ⟨rfl, rfl⟩ := Prod.mk.inj hpair
  rw [hlog]
  exact h.append (agrees_step h.inStep (steps_of_step hnext))

private def shortRun : List Event := [.announce 1000 1, .noConnection, .noDatagram 1000 (.identity _) (.identity _),
  .save (.identity _) none true, .announce 1001 2, .pause false, .noConnection,
  .noDatagram 1029 (.identity _) (.identity _), .pause true]

/-- A sync at the first poll, a poll before the next is due, and a stop. -/
theorem daemon_follows_loop_stopped : ∃ called s,
    Runs.run (logged (callingStep .standard (daemonA []))) ([], (daemonA []).start 1000) shortRun = some (called, s) ∧
    called = [(.startSync 1000, some true), (.finishSync (.success ⟨1001, []⟩) 1000, none),
      (.startSync 1029, some false), (.requestShutdown, none)] ∧
    Agrees (daemonA []) (loopOf (daemonA []) 1000) called s := by
  obtain ⟨called, s, hrun, hcalled⟩ : ∃ called s,
      Runs.run (logged (callingStep .standard (daemonA []))) ([], (daemonA []).start 1000) shortRun =
        some (called, s) ∧
      called = [(.startSync 1000, some true), (.finishSync (.success ⟨1001, []⟩) 1000, none),
        (.startSync 1029, some false), (.requestShutdown, none)] := ⟨_, _, rfl, rfl⟩
  exact ⟨called, s, hrun, hcalled, daemon_follows_loop hrun⟩

end SshKeySync.Runtime.DaemonProcess
