import Mathlib.Logic.Function.Basic
import SshKeySync.Theory.Runs

/-! The processes that share the control files of one SID: daemons and the commands `start`,
`stop` and `status`, step by step on the pid file and the stop file. -/
namespace SshKeySync.Runtime.ControlFiles

abbrev Pid := UInt32

inductive DaemonStatus where
  | running (pid : Pid)
  | stopped
  | stalePidFile (pid : Pid)
  deriving DecidableEq

inductive Command where
  | start
  | stop
  | status
  deriving DecidableEq

/-- Where a process stands. The main loop of a daemon begins when the pid file is written. -/
inductive Phase where
  | reading (command : Command)
  | probing (command : Command) (target : Pid)
  | spawning
  | requesting (target : Pid)
  | waiting (target : Pid)
  | discardingPid
  | discardingStop
  | starting
  | registering
  | looping
  | leaving
  | clearing
  | foreign
  deriving DecidableEq

def Phase.isDaemon : Phase → Bool
  | .starting | .registering | .looping | .leaving | .clearing => true
  | _ => false

/-- The control files of one SID and the processes of the machine. -/
structure World where
  pidFile : Option Pid
  stopFile : Bool
  process : Pid → Option Phase

namespace World
variable (w : World) (pid : Pid)

def idle : World := ⟨none, false, fun _ => none⟩

def set (phase : Option Phase) : World := { w with process := Function.update w.process pid phase }

def statusDaemon : DaemonStatus := match w.pidFile with
  | none => .stopped
  | some target => if (w.process target).isSome then .running target else .stalePidFile target

/-- The daemon has written its pid file and not yet left its main loop. -/
def Running : Prop := w.process pid = some .looping

def Names (target : Pid) : Prop :=
  w.pidFile = some target ∧ ∃ phase, w.process target = some phase ∧ phase.isDaemon

/-- While a daemon is running, the pid file names a live daemon and the status says so. -/
def Accounted : Prop := ∀ pid, w.Running pid → ∃ target, w.Names target ∧ w.statusDaemon = .running target

end World

/-- What a command does with the status; a command that is done exits. -/
def afterStatus : Command → DaemonStatus → Option Phase
  | .start, .running _ => none
  | .start, .stopped | .start, .stalePidFile _ => some .spawning
  | .stop, .running target => some (.requesting target)
  | .stop, .stalePidFile _ => some .discardingPid
  | .stop, .stopped => none
  | .status, _ => none

/-- The next step of a process. A file that is to be removed need not exist; `stop` ends its
target when waiting did not help. -/
def act (w : World) (pid : Pid) : Phase → Option World
  | .reading command => match w.pidFile with
    | none => some (w.set pid (afterStatus command .stopped))
    | some target => some (w.set pid (some (.probing command target)))
  | .probing command target => some (w.set pid (afterStatus command
      (if (w.process target).isSome then .running target else .stalePidFile target)))
  | .requesting target => some ({ w with stopFile := true }.set pid (some (.waiting target)))
  | .waiting target => some ((w.set target none).set pid none)
  | .discardingPid => some ({ w with pidFile := none }.set pid (some .discardingStop))
  | .discardingStop => some ({ w with stopFile := false }.set pid none)
  | .starting => some ({ w with stopFile := false }.set pid (some .registering))
  | .registering => some ({ w with pidFile := some pid }.set pid (some .looping))
  | .looping => some (if w.stopFile then w.set pid (some .leaving) else w)
  | .leaving => some ({ w with pidFile := none }.set pid (some .clearing))
  | .clearing => some ({ w with stopFile := false }.set pid none)
  | .spawning | .foreign => none

inductive Program where
  | command (asked : Command)
  | foreground
  | foreign
  deriving DecidableEq

def Program.entry : Program → Phase
  | .command asked => .reading asked
  | .foreground => .starting
  | .foreign => .foreign

/-- A program starts at a free pid, a process takes its next step, `start` begins a daemon in
the background, or a process ends early: by a crash, by an error or from outside. -/
inductive Event where
  | launch (pid : Pid) (program : Program)
  | act (pid : Pid)
  | spawn (pid child : Pid)
  | exit (pid : Pid)
  deriving DecidableEq

def step (w : World) : Event → Option World
  | .launch pid program => if w.process pid = none then some (w.set pid (some program.entry)) else none
  | .act pid => (w.process pid).bind (ControlFiles.act w pid)
  | .spawn pid child => if w.process pid = some .spawning ∧ w.process child = none then
      some ((w.set pid none).set child (some .starting)) else none
  | .exit pid => if (w.process pid).isSome then some (w.set pid none) else none

namespace World
variable (w : World)

/-- The pid may end: the pid file does not name it, or no other daemon is running. -/
def Released (pid : Pid) : Prop := w.pidFile = some pid → ∀ other, other ≠ pid → ¬ w.Running other

/-- The pid file is removed only while no daemon is running, and a process that it names ends
only while no other daemon is running. -/
def Undisturbed : Event → Prop
  | .act pid => match w.process pid with
    | some .leaving | some .discardingPid => ∀ other, ¬ w.Running other
    | some .clearing => w.Released pid
    | some (.waiting target) => w.Released target
    | _ => True
  | .exit pid => w.Released pid
  | _ => True

end World

namespace World
variable {w : World} {pid : Pid} {phase : Option Phase}

@[simp] theorem set_process_self : (w.set pid phase).process pid = phase := Function.update_self ..

@[simp] theorem set_process_of_ne {other : Pid} (h : other ≠ pid) :
    (w.set pid phase).process other = w.process other := Function.update_of_ne h ..

theorem set_eq_self (h : w.process pid = phase) : w.set pid phase = w := by
  rw [set, Function.update_eq_self_iff.mpr h.symm]

private theorem set_set (phase' : Option Phase) : (w.set pid phase).set pid phase' = w.set pid phase' := by
  rw [set, set, set, Function.update_idem]

private theorem accounted_iff : w.Accounted ↔ ∀ pid, w.Running pid → ∃ target, w.Names target := by
  refine forall₂_congr fun pid _ => exists_congr fun target => and_iff_left_of_imp ?_
  rintro ⟨hfile, phase, hphase, -⟩
  simp only [statusDaemon, hfile, hphase, Option.isSome_some, if_true]

/-- A process that enters no main loop and does not stop being a daemon changes nothing. -/
theorem accounted_set (h : w.Accounted) (hrunning : phase ≠ some .looping)
    (hdaemon : ∀ p, w.process pid = some p → p.isDaemon → ∃ p', phase = some p' ∧ p'.isDaemon) :
    (w.set pid phase).Accounted := by
  rw [accounted_iff] at h ⊢
  intro other hother
  have hne : other ≠ pid := by
    rintro rfl
    exact hrunning (set_process_self.symm.trans hother)
  obtain ⟨target, hfile, p, hp, hisDaemon⟩ := h other ((set_process_of_ne hne).symm.trans hother)
  refine ⟨target, hfile, ?_⟩
  by_cases htarget : target = pid
  · subst htarget
    obtain ⟨p', hp', hisDaemon'⟩ := hdaemon p hp hisDaemon
    exact ⟨p', set_process_self.trans hp', hisDaemon'⟩
  · exact ⟨p, (set_process_of_ne htarget).trans hp, hisDaemon⟩

/-- The end of a process that is no daemon changes nothing. -/
theorem accounted_end_command (hp : ∀ p, w.process pid = some p → p.isDaemon = false) :
    (w.set pid none).Accounted ↔ w.Accounted := by
  constructor
  · intro h
    have hback : (w.set pid none).set pid (w.process pid) = w := (set_set _).trans (set_eq_self rfl)
    rw [← hback]
    refine accounted_set h (fun hlooping => ?_) fun p hend => ?_
    · cases hp _ hlooping
    · cases set_process_self.symm.trans hend
  · intro h
    refine accounted_set h nofun fun p hold hdaemon => ?_
    cases (hp p hold).symm.trans hdaemon

private theorem accounted_write : ({ w with pidFile := some pid }.set pid (some .looping)).Accounted :=
  accounted_iff.mpr fun _ _ => ⟨pid, rfl, .looping, set_process_self, rfl⟩

private theorem accounted_remove (hp : w.process pid ≠ some .looping) (hphase : phase ≠ some .looping) :
    ({ w with pidFile := none }.set pid phase).Accounted ↔ ∀ other, ¬ w.Running other := by
  rw [accounted_iff]
  refine forall_congr' fun other => ?_
  have hrunning : ({ w with pidFile := none }.set pid phase).Running other ↔ w.Running other := by
    by_cases h : other = pid
    · subst h
      exact iff_of_false (fun hc => hphase (set_process_self.symm.trans hc)) hp
    · rw [Running, set_process_of_ne h, Running]
  rw [hrunning]
  refine imp_congr_right fun _ => iff_of_false ?_ id
  rintro ⟨_, hfile, _⟩
  cases hfile

/-- A process may end exactly when its pid is released. -/
theorem accounted_end (h : w.Accounted) : (w.set pid none).Accounted ↔ w.Released pid := by
  rw [accounted_iff] at h ⊢
  constructor
  · intro h' hfile other hne hother
    obtain ⟨target, htarget, p, hp, -⟩ := h' other ((set_process_of_ne hne).trans hother)
    obtain rfl : pid = target := Option.some.inj (hfile.symm.trans htarget)
    cases set_process_self.symm.trans hp
  · intro hreleased other hother
    have hne : other ≠ pid := by
      rintro rfl
      cases set_process_self.symm.trans hother
    have hrunning : w.Running other := (set_process_of_ne hne).symm.trans hother
    obtain ⟨target, hfile, p, hp, hisDaemon⟩ := h other hrunning
    have htarget : target ≠ pid := by
      rintro rfl
      exact hreleased hfile other hne hrunning
    exact ⟨target, hfile, p, (set_process_of_ne htarget).trans hp, hisDaemon⟩

private theorem accounted_act {w' : World} {p : Phase} (h : w.Accounted) (hp : w.process pid = some p)
    (hact : act w pid p = some w') : w'.Accounted ↔ w.Undisturbed (.act pid) := by
  have hcommand (hc : p.isDaemon = false) : ∀ q, w.process pid = some q → q.isDaemon = false := by
    intro q hq
    obtain rfl : p = q := Option.some.inj (hp.symm.trans hq)
    exact hc
  have hstatus (hc : p.isDaemon = false) {command : Command} {status : DaemonStatus} :
      (w.set pid (afterStatus command status)).Accounted :=
    accounted_set h (by cases command <;> cases status <;> nofun) fun q hq hdaemon => by
      cases (hcommand hc q hq).symm.trans hdaemon
  have hmove {p' : Phase} (hp' : p' ≠ .looping) (hdaemon : p.isDaemon → p'.isDaemon) :
      (w.set pid (some p')).Accounted := by
    refine accounted_set h (fun hc => hp' (Option.some.inj hc)) fun q hq hisDaemon => ⟨p', rfl, hdaemon ?_⟩
    obtain rfl : p = q := Option.some.inj (hp.symm.trans hq)
    exact hisDaemon
  rw [Undisturbed, hp]
  cases p with
  | reading command =>
    rw [act] at hact
    split at hact <;> cases hact
    · exact iff_of_true (hstatus rfl) trivial
    · exact iff_of_true (hmove nofun nofun) trivial
  | probing command target =>
    cases hact
    exact iff_of_true (hstatus rfl) trivial
  | requesting target =>
    cases hact
    have hmoved : (w.set pid (some (.waiting target))).Accounted := hmove nofun nofun
    exact iff_of_true hmoved trivial
  | waiting target =>
    cases hact
    refine (accounted_end_command fun q hq => ?_).trans (accounted_end h)
    by_cases htarget : pid = target
    · subst htarget
      cases set_process_self.symm.trans hq
    · exact hcommand rfl q ((set_process_of_ne htarget).symm.trans hq)
  | discardingPid =>
    cases hact
    exact accounted_remove (by simp [hp]) nofun
  | discardingStop =>
    cases hact
    have hend : (w.set pid none).Accounted := (accounted_end_command (hcommand rfl)).mpr h
    exact iff_of_true hend trivial
  | starting =>
    cases hact
    have hmoved : (w.set pid (some .registering)).Accounted := hmove nofun fun _ => rfl
    exact iff_of_true hmoved trivial
  | registering =>
    cases hact
    exact iff_of_true accounted_write trivial
  | looping =>
    rw [act] at hact
    split at hact <;> cases hact
    · exact iff_of_true (hmove nofun fun _ => rfl) trivial
    · exact iff_of_true h trivial
  | leaving =>
    cases hact
    exact accounted_remove (by simp [hp]) nofun
  | clearing =>
    cases hact
    exact accounted_end (w := { w with stopFile := false }) h
  | spawning => cases hact
  | foreign => cases hact

/-- From an accounted state, an undisturbed step and no other leads to an accounted state. -/
theorem accounted_step {w' : World} {e : Event} (h : w.Accounted) (hstep : step w e = some w') :
    w'.Accounted ↔ w.Undisturbed e := by
  cases e with
  | launch pid program =>
    rw [step, Option.ite_none_right_eq_some] at hstep
    obtain ⟨hfree, hstep⟩ := hstep
    cases hstep
    refine iff_of_true (accounted_set h ?_ (by simp [hfree])) trivial
    cases program <;> rw [Program.entry] <;> nofun
  | spawn pid child =>
    rw [step, Option.ite_none_right_eq_some] at hstep
    obtain ⟨⟨hspawning, hfree⟩, hstep⟩ := hstep
    cases hstep
    have hne : child ≠ pid := by
      rintro rfl
      cases hfree.symm.trans hspawning
    have hend : (w.set pid none).Accounted := (accounted_end_command (by simp [hspawning, Phase.isDaemon])).mpr h
    exact iff_of_true (accounted_set hend nofun (by simp [hne, hfree])) trivial
  | exit pid =>
    rw [step, Option.ite_none_right_eq_some] at hstep
    obtain ⟨-, hstep⟩ := hstep
    cases hstep
    exact accounted_end h
  | act pid =>
    rw [step, Option.bind_eq_some_iff] at hstep
    obtain ⟨p, hp, hact⟩ := hstep
    exact accounted_act h hp hact

end World

def AlwaysAccounted (events : List Event) : Prop :=
  ∀ before w, before <+: events → Runs.run step .idle before = some w → w.Accounted

/-- In a run of daemons and commands on one SID, every state is accounted if and only if every
step is undisturbed. -/
theorem daemons_accounted_iff {events : List Event} (hrun : (Runs.run step .idle events).isSome) :
    AlwaysAccounted events ↔ Runs.Guarded step World.Undisturbed .idle events :=
  Runs.always_iff_guarded (fun _ _ _ => World.accounted_step) (fun _ h => nomatch h) hrun

private def stopRun : List Event := [.launch 1 .foreground, .act 1, .act 1, .launch 2 (.command .stop),
  .act 2, .act 2, .act 2, .act 1, .act 1, .act 1, .act 2]

private theorem stopRun_undisturbed : Runs.Guarded step World.Undisturbed .idle stopRun := by
  refine Runs.guarded_cons rfl trivial (Runs.guarded_cons rfl trivial (Runs.guarded_cons rfl trivial ?_))
  refine Runs.guarded_cons rfl trivial (Runs.guarded_cons rfl trivial (Runs.guarded_cons rfl trivial ?_))
  refine Runs.guarded_cons rfl trivial (Runs.guarded_cons rfl trivial (Runs.guarded_cons rfl ?_ ?_))
  · intro other hother
    by_cases h1 : other = 1
    · subst h1
      cases hother
    · by_cases h2 : other = 2
      · subst h2
        cases hother
      · simp [World.Running, World.set, World.idle, h1, h2] at hother
  · exact Runs.guarded_cons rfl nofun (Runs.guarded_cons rfl nofun trivial)

/-- A daemon that is alone is started and stopped. -/
theorem daemons_accounted_alone : AlwaysAccounted stopRun :=
  (daemons_accounted_iff rfl).mpr stopRun_undisturbed

/-- Of two foreground daemons the second is stopped, and removes the pid file while the first is
running. The same happens to two background starts that both see no pid file. -/
theorem running_daemon_lost : ∃ events events' : List Event,
    (∀ pid, Event.launch pid .foreground ∉ events') ∧
    (∃ w, Runs.run step .idle events = some w ∧ w.Running 1 ∧ w.statusDaemon = .stopped ∧ ¬ w.Accounted) ∧
    ∃ w, Runs.run step .idle events' = some w ∧ w.Running 3 ∧ w.statusDaemon = .stopped ∧ ¬ w.Accounted := by
  have hlost {w : World} {pid : Pid} (hrunning : w.Running pid) (hfile : w.pidFile = none) :
      w.Running pid ∧ w.statusDaemon = .stopped ∧ ¬ w.Accounted := by
    refine ⟨hrunning, by rw [World.statusDaemon, hfile], fun h => ?_⟩
    obtain ⟨target, ⟨htarget, -⟩, -⟩ := h pid hrunning
    cases hfile.symm.trans htarget
  refine ⟨[.launch 1 .foreground, .act 1, .act 1, .launch 2 .foreground, .act 2, .act 2, .launch 5 (.command .stop),
    .act 5, .act 5, .act 5, .act 2, .act 2], [.launch 1 (.command .start), .launch 2 (.command .start),
    .act 1, .act 2, .spawn 1 3, .spawn 2 4, .act 3, .act 3, .act 4, .act 4, .launch 5 (.command .stop), .act 5,
    .act 5, .act 5, .act 4, .act 4], by simp, ⟨_, rfl, hlost rfl rfl⟩, _, rfl, hlost rfl rfl⟩

end SshKeySync.Runtime.ControlFiles
