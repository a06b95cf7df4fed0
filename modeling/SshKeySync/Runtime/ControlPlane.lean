import SshKeySync.Runtime.ControlFiles
import SshKeySync.Runtime.ControlPaths
import SshKeySync.Theory.FileSystem
import SshKeySync.Theory.Parties

/-! The processes of several groups on one machine. Each group has its directory of control files, and
all share the marker that names the group for a command that was given none. -/
namespace SshKeySync.Runtime.ControlPlane
open RustStd
open ControlFiles (Pid Command Phase World)

/-- A process looks for a SID, works for one, or writes its own into the marker, which it empties first.
The search goes through the directories below the root one by one. -/
inductive Process where
  | resolving (command : Command)
  | opening (command : Command)
  | discovering (command : Command) (entries : List Str) (foundSid : Option Str)
  | working (sid : Str) (phase : Phase)
  | marking (sid : Str)
  | writing (sid : Str)
  | foreign
  deriving DecidableEq

/-- Where the process stands for the group with this directory; to the others it is foreign. -/
def Process.phaseAt (name : Str) : Process → Phase
  | .working sid phase => if sanitizeForFile sid = name then phase else .foreign
  | .marking sid | .writing sid => if sanitizeForFile sid = name then .looping else .foreign
  | _ => .foreign

def Process.move (name : Str) (phase : Phase) : Process → Process
  | .working sid old => .working sid (if sanitizeForFile sid = name then phase else old)
  | process => process

/-- The marker, the directories below the root, and the pid file and stop file in a directory. -/
structure Machine where
  marker : Option Bytes
  dirs : List Str
  files : Str → Option Pid × Bool
  process : Pid → Option Process

namespace Machine
variable (m : Machine) (pid : Pid) (name : Str)

def idle : Machine := ⟨none, [], fun _ => (none, false), fun _ => none⟩

def world : World where
  pidFile := (m.files name).1
  stopFile := (m.files name).2
  process pid := (m.process pid).map (Process.phaseAt name)

def set (process : Option Process) : Machine := { m with process := Function.update m.process pid process }

def put (w : World) : Machine := { m with
  files := Function.update m.files name (w.pidFile, w.stopFile)
  process := fun pid => (w.process pid).bind fun phase => (m.process pid).map (Process.move name phase) }

def work (sid : Str) (phase : Phase) : Option Machine :=
  (ControlFiles.act (m.world (sanitizeForFile sid)) pid phase).map (m.put (sanitizeForFile sid))

/-- The marker cannot become a directory, and the directories `.` and `..` are there already. -/
def ensureDir : Option Machine :=
  if name = currentSidFileName ∧ m.marker.isSome then none
  else if name = ['.'] ∨ name = ['.', '.'] ∨ m.dirs.contains name then some m
  else some { m with dirs := m.dirs ++ [name] }

end Machine

/-- The next step of a process; one that fails has none and exits. -/
def act (m : Machine) (pid : Pid) (listing : List Str) : Process → Option Machine
  | .resolving command =>
    if m.dirs.contains currentSidFileName then none
    else match m.marker with
      | none => some (m.set pid (some (.opening command)))
      | some bytes => (fromUtf8 bytes).map fun text =>
        m.set pid (some (if trim text = [] then .opening command else .working (trim text) (.reading command)))
  | .opening command =>
    if listing.Perm m.dirs then some (m.set pid (some (.discovering command listing none))) else none
  | .discovering command (name :: entries) foundSid =>
    if (m.files name).1 = none then some (m.set pid (some (.discovering command entries foundSid)))
    else if foundSid.isSome then none
    else some (m.set pid (some (.discovering command entries (some name))))
  | .discovering command [] foundSid => foundSid.map fun sid => m.set pid (some (.working sid (.reading command)))
  | .working sid .starting => (m.ensureDir (sanitizeForFile sid)).bind fun m => m.work pid sid .starting
  | .working sid .registering => (m.work pid sid .registering).map fun m => m.set pid (some (.marking sid))
  | .working sid phase => m.work pid sid phase
  | .marking sid =>
    if m.dirs.contains currentSidFileName then none
    else some ({ m with marker := some [] }.set pid (some (.writing sid)))
  | .writing sid =>
    let written := FileSystem.Disk.overlay 0 (m.marker.getD []) 0 (utf8 sid)
    some ({ m with marker := some written }.set pid (some (.working sid .looping)))
  | .foreign => none

/-- The programs, with the SID of a configuration, or the one given to a command and that of its
environment. -/
inductive Program where
  | start (sid : Str)
  | foreground (sid : Str)
  | stop (explicitSid envSid : Option Str)
  | status (explicitSid envSid : Option Str)
  | foreign

/-- The part of `resolve_control_sid` that needs no file. -/
def resolveControlSid (command : Command) (explicitSid envSid : Option Str) : Process :=
  match (nonBlank explicitSid).or (nonBlank envSid) with
  | some sid => .working (trim sid) (.reading command)
  | none => .resolving command

def Program.entry : Program → Process
  | .start sid => .working sid (.reading .start)
  | .foreground sid => .working sid .starting
  | .stop explicitSid envSid => resolveControlSid .stop explicitSid envSid
  | .status explicitSid envSid => resolveControlSid .status explicitSid envSid
  | .foreign => .foreign

/-- A program starts at a free pid, a process takes its next step, `start` begins a daemon in the
background, or a process ends early. -/
inductive Event where
  | launch (pid : Pid) (program : Program)
  | act (pid : Pid) (listing : List Str)
  | spawn (pid child : Pid)
  | exit (pid : Pid)

def step (m : Machine) : Event → Option Machine
  | .launch pid program => if m.process pid = none then some (m.set pid (some program.entry)) else none
  | .act pid listing => (m.process pid).bind (act m pid listing)
  | .spawn pid child => match m.process pid with
    | some (.working sid .spawning) =>
      if m.process child = none then (m.ensureDir (sanitizeForFile sid)).map fun m =>
        (m.set pid none).set child (some (.working sid .starting))
      else none
    | _ => none
  | .exit pid => if (m.process pid).isSome then some (m.set pid none) else none

/-- To one group a step is undisturbed: its own steps as they would be on a machine of its own, while of
the others' only a `stop` that ends its target counts. -/
def Machine.Undisturbed (name : Str) (m : Machine) : Event → Prop
  | .act pid _ => match m.process pid with
    | some (.working sid phase) =>
      if sanitizeForFile sid = name then (m.world name).Undisturbed (.act pid)
      else ∀ target, phase = .waiting target → (m.world name).Released target
    | _ => True
  | .exit pid => (m.world name).Released pid
  | _ => True

inductive Acts (m : Machine) (pid : Pid) (listing : List Str) : Process → Machine → Prop
  | unnamed {command} (hfile : m.dirs.contains currentSidFileName = false)
      (hmarker : ∀ bytes, m.marker = some bytes → ∃ text, fromUtf8 bytes = some text ∧ trim text = []) :
      Acts m pid listing (.resolving command) (m.set pid (some (.opening command)))
  | named {command bytes text} (hfile : m.dirs.contains currentSidFileName = false) (hmarker : m.marker = some bytes)
      (htext : fromUtf8 bytes = some text) (hblank : trim text ≠ []) :
      Acts m pid listing (.resolving command) (m.set pid (some (.working (trim text) (.reading command))))
  | opened {command} (hperm : listing.Perm m.dirs) :
      Acts m pid listing (.opening command) (m.set pid (some (.discovering command listing none)))
  | passed {command name entries foundSid} (hfile : (m.files name).1 = none) :
      Acts m pid listing (.discovering command (name :: entries) foundSid)
        (m.set pid (some (.discovering command entries foundSid)))
  | found {command name entries} (hfile : (m.files name).1 ≠ none) :
      Acts m pid listing (.discovering command (name :: entries) none)
        (m.set pid (some (.discovering command entries (some name))))
  | discovered {command sid} : Acts m pid listing (.discovering command [] (some sid))
      (m.set pid (some (.working sid (.reading command))))
  | started {sid m₁ m'} (hdir : m.ensureDir (sanitizeForFile sid) = some m₁)
      (hwork : m₁.work pid sid .starting = some m') : Acts m pid listing (.working sid .starting) m'
  | registered {sid m'} (hwork : m.work pid sid .registering = some m') :
      Acts m pid listing (.working sid .registering) (m'.set pid (some (.marking sid)))
  | worked {sid phase m'} (hphase : phase ≠ .starting ∧ phase ≠ .registering)
      (hwork : m.work pid sid phase = some m') : Acts m pid listing (.working sid phase) m'
  | emptied {sid} (hfile : m.dirs.contains currentSidFileName = false) :
      Acts m pid listing (.marking sid) ({ m with marker := some [] }.set pid (some (.writing sid)))
  | wrote {sid} : Acts m pid listing (.writing sid)
      ({ m with marker := some (FileSystem.Disk.overlay 0 (m.marker.getD []) 0 (utf8 sid)) }.set pid
        (some (.working sid .looping)))

private theorem acts_of_act {m m' : Machine} {pid : Pid} {listing : List Str} {process : Process}
    (h : act m pid listing process = some m') : Acts m pid listing process m' := by
  cases process with
  | resolving command =>
    rw [act, Option.ite_none_left_eq_some] at h
    obtain ⟨hfile, h⟩ := h
    rw [Bool.not_eq_true] at hfile
    cases hmarker : m.marker with
    | none =>
      rw [hmarker] at h
      cases h
      exact .unnamed hfile fun bytes hbytes => by cases hmarker.symm.trans hbytes
    | some bytes =>
      rw [hmarker] at h
      obtain ⟨text, htext, rfl⟩ := Option.map_eq_some_iff.mp h
      split
      · rename_i hblank
        refine .unnamed hfile fun bytes' hbytes => ⟨text, ?_, hblank⟩
        rwa [← Option.some.inj (hmarker.symm.trans hbytes)]
      · rename_i hblank
        exact .named hfile hmarker htext hblank
  | opening command =>
    rw [act, Option.ite_none_right_eq_some] at h
    obtain ⟨hperm, h⟩ := h
    cases h
    exact .opened hperm
  | discovering command entries foundSid =>
    cases entries with
    | nil =>
      obtain ⟨sid, rfl, rfl⟩ := Option.map_eq_some_iff.mp h
      exact .discovered
    | cons name entries =>
      rw [act] at h
      split at h
      · rename_i hfile
        cases h
        exact .passed hfile
      · rename_i hfile
        cases foundSid <;> cases h
        exact .found hfile
  | working sid phase =>
    cases phase with
    | starting =>
      obtain ⟨m₁, hdir, hwork⟩ := Option.bind_eq_some_iff.mp h
      exact .started hdir hwork
    | registering =>
      rw [act] at h
      obtain ⟨m₁, hwork, rfl⟩ := Option.map_eq_some_iff.mp h
      exact .registered hwork
    | _ => exact .worked ⟨nofun, nofun⟩ h
  | marking sid =>
    rw [act, Option.ite_none_left_eq_some] at h
    obtain ⟨hfile, h⟩ := h
    cases h
    exact .emptied (Bool.not_eq_true _ ▸ hfile)
  | writing sid =>
    cases h
    exact .wrote
  | foreign => cases h

namespace Process
variable {name name' : Str} {phase : Phase} {process : Process}

private theorem phaseAt_working {sid : Str} (h : sanitizeForFile sid = name) :
    (working sid phase).phaseAt name = phase := if_pos h

private theorem phaseAt_move_self :
    (process.move name (process.phaseAt name)).phaseAt name = process.phaseAt name := by
  cases process with
  | working sid old =>
    rw [phaseAt, move, phaseAt]
    split <;> rfl
  | _ => rfl

private theorem phaseAt_move_of_ne (h : name' ≠ name) :
    (process.move name phase).phaseAt name' = process.phaseAt name' := by
  cases process with
  | working sid old =>
    rw [move, phaseAt, phaseAt]
    split
    · rename_i hown
      rw [if_neg fun hc => h (hown.symm.trans hc)]
    · rfl
  | _ => rfl

end Process

private theorem process_of_act {w w' : World} {pid : Pid} {phase : Phase} (hphase : w.process pid = some phase)
    (h : ControlFiles.act w pid phase = some w') :
    (∃ next, w'.process = Function.update w.process pid next ∧ ∀ target, phase ≠ .waiting target) ∨
      ∃ target, phase = .waiting target ∧
        w'.process = Function.update (Function.update w.process target none) pid none := by
  cases phase with
  | reading command =>
    rw [ControlFiles.act] at h
    split at h <;> cases h <;> exact Or.inl ⟨_, rfl, fun _ hc => by cases hc⟩
  | looping =>
    rw [ControlFiles.act] at h
    split at h <;> cases h
    · exact Or.inl ⟨_, rfl, fun _ hc => by cases hc⟩
    · exact Or.inl ⟨_, (Function.update_eq_self_iff.mpr hphase.symm).symm, fun _ hc => by cases hc⟩
  | waiting target =>
    cases h
    exact Or.inr ⟨target, rfl, rfl⟩
  | spawning => cases h
  | foreign => cases h
  | _ =>
    cases h
    exact Or.inl ⟨_, rfl, fun _ hc => by cases hc⟩

namespace Machine
variable {m m' : Machine} {pid : Pid} {name name' : Str} {process : Option Process} {w : World}

private theorem process_world : (m.world name).process pid = (m.process pid).map (Process.phaseAt name) := rfl

private theorem process_working {sid : Str} {phase : Phase} (h : m.process pid = some (.working sid phase)) :
    (m.world (sanitizeForFile sid)).process pid = some phase := by
  rw [process_world, h]
  exact congrArg some (Process.phaseAt_working rfl)

private theorem world_set :
    (m.set pid process).world name = (m.world name).set pid (process.map (Process.phaseAt name)) := by
  have hprocess : (fun p => (Function.update m.process pid process p).map (Process.phaseAt name)) =
      Function.update (fun p => (m.process p).map (Process.phaseAt name)) pid
        (process.map (Process.phaseAt name)) := by
    funext p
    by_cases hp : p = pid
    · subst hp
      rw [Function.update_self, Function.update_self]
    · rw [Function.update_of_ne hp, Function.update_of_ne hp]
  rw [world, World.set, set, hprocess]
  rfl

/-- A move that a group does not see. -/
theorem world_set_of_eq (h : process.map (Process.phaseAt name) = (m.process pid).map (Process.phaseAt name)) :
    (m.set pid process).world name = m.world name := by
  rw [world_set, h]
  exact World.set_eq_self rfl

private theorem ensureDir_eq (h : m.ensureDir name = some m') :
    m'.process = m.process ∧ ∀ name, m'.world name = m.world name := by
  rw [ensureDir] at h
  split at h
  · cases h
  · split at h <;> cases h <;> exact ⟨rfl, fun _ => rfl⟩

section
variable {sid : Str} {phase : Phase} (hprocess : m.process pid = some (.working sid phase))
  (hact : ControlFiles.act (m.world (sanitizeForFile sid)) pid phase = some w)
include hprocess hact

private theorem process_put : (m.put (sanitizeForFile sid) w).process pid =
    (w.process pid).map (Process.working sid) ∧
    ∀ p, p ≠ pid → w.process p = none ∨ w.process p = (m.process p).map (Process.phaseAt (sanitizeForFile sid)) := by
  refine ⟨?_, fun p hp => ?_⟩
  · rw [put]
    dsimp only
    rw [hprocess]
    cases w.process pid with
    | none => rfl
    | some next => exact congrArg (fun q => some (Process.working sid q)) (if_pos rfl)
  · rcases process_of_act (process_working hprocess) hact with ⟨next, hw, -⟩ | ⟨target, -, hw⟩
    · rw [hw, Function.update_of_ne hp]
      exact Or.inr rfl
    · rw [hw, Function.update_of_ne hp]
      by_cases htarget : p = target
      · rw [htarget, Function.update_self]
        exact Or.inl rfl
      · rw [Function.update_of_ne htarget]
        exact Or.inr rfl

private theorem world_put_self : (m.put (sanitizeForFile sid) w).world (sanitizeForFile sid) = w := by
  obtain ⟨hself, hother⟩ := process_put hprocess hact
  have hprocesses : ((m.put (sanitizeForFile sid) w).world (sanitizeForFile sid)).process = w.process := by
    funext p
    by_cases hp : p = pid
    · subst hp
      rw [process_world, hself, Option.map_map]
      cases w.process p with
      | none => rfl
      | some next => exact congrArg some (Process.phaseAt_working rfl)
    · rw [process_world, put]
      dsimp only
      rcases hother p hp with hgone | hsame
      · rw [hgone]
        rfl
      · rw [hsame]
        cases m.process p with
        | none => rfl
        | some process => exact congrArg some Process.phaseAt_move_self
  have hfiles : (m.put (sanitizeForFile sid) w).files (sanitizeForFile sid) = (w.pidFile, w.stopFile) :=
    Function.update_self ..
  rw [world] at hprocesses ⊢
  rw [hfiles]
  cases w
  exact congrArg _ hprocesses

end

private theorem world_put_of_ne {sid : Str} (hne : name ≠ sanitizeForFile sid) :
    (m.put (sanitizeForFile sid) w).world name = { m.world name with
      process := fun p => (w.process p).bind fun _ => (m.world name).process p } := by
  have hfiles : (m.put (sanitizeForFile sid) w).files name = m.files name := Function.update_of_ne hne ..
  rw [world, hfiles, put]
  dsimp only
  refine congrArg _ (funext fun p => ?_)
  cases w.process p with
  | none => rfl
  | some phase =>
    rw [Option.bind_some, Option.bind_some, Option.map_map]
    refine congrFun (congrArg Option.map (funext fun process => ?_)) (m.process p)
    exact Process.phaseAt_move_of_ne hne

private theorem bind_process (p : Pid) : (((m.world name').process p).bind fun _ => (m.world name).process p) =
    (m.world name).process p := by
  rw [process_world, process_world]
  cases m.process p <;> rfl

private theorem world_put_foreign {sid : Str} {phase : Phase} (hother : sanitizeForFile sid ≠ name)
    (hprocess : m.process pid = some (.working sid phase))
    (hact : ControlFiles.act (m.world (sanitizeForFile sid)) pid phase = some w) :
    (∃ next : Option Phase, (∀ target, phase ≠ .waiting target) ∧ (m.put (sanitizeForFile sid) w).world name =
        (m.world name).set pid (next.map fun _ => .foreign)) ∨
      ∃ target, phase = .waiting target ∧
        (m.put (sanitizeForFile sid) w).world name = ((m.world name).set target none).set pid none := by
  have hforeign : (m.world name).process pid = some .foreign := by
    rw [process_world, hprocess]
    exact congrArg some (if_neg hother)
  rw [world_put_of_ne (Ne.symm hother)]
  rcases process_of_act (process_working hprocess) hact with ⟨next, hw, hwaiting⟩ | ⟨target, rfl, hw⟩
  · refine Or.inl ⟨next, hwaiting, congrArg _ (funext fun p => ?_)⟩
    rw [hw]
    by_cases hp : p = pid
    · subst hp
      rw [Function.update_self, Function.update_self, hforeign]
      cases next <;> rfl
    · rw [Function.update_of_ne hp, Function.update_of_ne hp, bind_process]
  · refine Or.inr ⟨target, rfl, congrArg _ (funext fun p => ?_)⟩
    rw [hw]
    by_cases hp : p = pid
    · subst hp
      rw [Function.update_self, Function.update_self]
      rfl
    · rw [Function.update_of_ne hp, Function.update_of_ne hp]
      by_cases htarget : p = target
      · rw [htarget, Function.update_self]
        exact World.set_process_self.symm
      · rw [Function.update_of_ne htarget, bind_process]
        exact (World.set_process_of_ne htarget).symm

private theorem accounted_work {sid : Str} {phase : Phase} (hprocess : m.process pid = some (.working sid phase))
    (hwork : m.work pid sid phase = some m') (h : (m.world name).Accounted) : (m'.world name).Accounted ↔
      if sanitizeForFile sid = name then (m.world name).Undisturbed (.act pid)
      else ∀ target, phase = .waiting target → (m.world name).Released target := by
  obtain ⟨w, hact, rfl⟩ := Option.map_eq_some_iff.mp hwork
  split
  · rename_i hown
    subst hown
    rw [world_put_self hprocess hact]
    refine World.accounted_step h ?_
    rw [ControlFiles.step, process_working hprocess]
    exact hact
  · rename_i hother
    have hforeign : (m.world name).process pid = some .foreign := by
      rw [process_world, hprocess]
      exact congrArg some (if_neg hother)
    have hcommand : ∀ p, (m.world name).process pid = some p → p.isDaemon = false := by
      intro p hp
      cases hforeign.symm.trans hp
      rfl
    rcases world_put_foreign hother hprocess hact with ⟨next, hwaiting, hworld⟩ | ⟨target, rfl, hworld⟩
    · rw [hworld]
      refine iff_of_true ?_ fun target htarget => absurd htarget (hwaiting target)
      cases next with
      | none => exact (World.accounted_end_command hcommand).mpr h
      | some next => rwa [Option.map_some, World.set_eq_self hforeign]
    · rw [hworld]
      refine (World.accounted_end_command fun p hp => ?_).trans ((World.accounted_end h).trans ?_)
      · by_cases htarget : pid = target
        · rw [htarget, World.set_process_self] at hp
          cases hp
        · exact hcommand p ((World.set_process_of_ne htarget).symm.trans hp)
      · constructor
        · intro hreleased other hother
          cases hother
          exact hreleased
        · intro hreleased
          exact hreleased target rfl

private theorem accounted_command {process : Process} (h : (m.world name).Accounted)
    (hold : ∀ old, m.process pid = some old → (old.phaseAt name).isDaemon = false)
    (hnew : process.phaseAt name ≠ .looping) : ((m.set pid (some process)).world name).Accounted := by
  rw [world_set]
  refine World.accounted_set h (fun hc => hnew (Option.some.inj hc)) fun p hp hdaemon => ?_
  obtain ⟨old, hprocess, rfl⟩ := Option.map_eq_some_iff.mp hp
  exact absurd ((hold old hprocess).symm.trans hdaemon) Bool.false_ne_true

private theorem accounted_act {process : Process} {listing : List Str} (h : (m.world name).Accounted)
    (hprocess : m.process pid = some process) (hact : act m pid listing process = some m') :
    (m'.world name).Accounted ↔ m.Undisturbed name (.act pid listing) := by
  have hwait {next : Process} (hold : process.phaseAt name = .foreign) (hnew : next.phaseAt name ≠ .looping) :
      ((m.set pid (some next)).world name).Accounted := by
    refine accounted_command h (fun old hc => ?_) hnew
    obtain rfl := Option.some.inj (hprocess.symm.trans hc)
    rw [hold]
    rfl
  have hbegin (sid : Str) (command : Command) : (Process.working sid (.reading command)).phaseAt name ≠ .looping := by
    rw [Process.phaseAt]
    split <;> nofun
  rw [Undisturbed, hprocess]
  cases acts_of_act hact with
  | unnamed hfile hmarker => exact iff_of_true (hwait rfl nofun) trivial
  | named hfile hmarker htext hblank => exact iff_of_true (hwait rfl (hbegin _ _)) trivial
  | opened hperm => exact iff_of_true (hwait rfl nofun) trivial
  | passed hfile => exact iff_of_true (hwait rfl nofun) trivial
  | found hfile => exact iff_of_true (hwait rfl nofun) trivial
  | discovered => exact iff_of_true (hwait rfl (hbegin _ _)) trivial
  | started hdir hwork =>
    obtain ⟨hsame, hworld⟩ := ensureDir_eq hdir
    rw [← hworld] at h ⊢
    exact accounted_work (hsame ▸ hprocess) hwork h
  | registered hwork =>
    obtain ⟨w, hregistered, rfl⟩ := Option.map_eq_some_iff.mp hwork
    rw [world_set_of_eq, accounted_work hprocess hwork h]
    rw [(process_put hprocess hregistered).1]
    cases hregistered
    rw [World.set_process_self]
    rfl
  | worked hphase hwork => exact accounted_work hprocess hwork h
  | emptied hfile =>
    refine iff_of_true ?_ trivial
    rw [world_set_of_eq (by rw [hprocess]; rfl)]
    exact h
  | wrote =>
    refine iff_of_true ?_ trivial
    rw [world_set_of_eq (by rw [hprocess]; rfl)]
    exact h

/-- A step keeps a group accounted exactly if it is undisturbed to it. -/
theorem accounted_step {e : Event} (h : (m.world name).Accounted) (hstep : step m e = some m') :
    (m'.world name).Accounted ↔ m.Undisturbed name e := by
  cases e with
  | launch pid program =>
    rw [step, Option.ite_none_right_eq_some] at hstep
    obtain ⟨hfree, hstep⟩ := hstep
    cases hstep
    refine iff_of_true (accounted_command h (fun old hold => ?_) ?_) trivial
    · cases hfree.symm.trans hold
    · have hresolve (command : Command) (explicitSid envSid : Option Str) :
          (resolveControlSid command explicitSid envSid).phaseAt name ≠ .looping := by
        rw [resolveControlSid]
        split
        · rw [Process.phaseAt]
          split <;> nofun
        · nofun
      cases program with
      | stop explicitSid envSid => exact hresolve .stop explicitSid envSid
      | status explicitSid envSid => exact hresolve .status explicitSid envSid
      | foreign => nofun
      | _ =>
        rw [Program.entry, Process.phaseAt]
        split <;> nofun
  | act pid listing =>
    obtain ⟨process, hprocess, hact⟩ := Option.bind_eq_some_iff.mp hstep
    exact accounted_act h hprocess hact
  | spawn pid child =>
    rw [step] at hstep
    split at hstep
    · rename_i sid hspawning
      rw [Option.ite_none_right_eq_some] at hstep
      obtain ⟨hfree, hstep⟩ := hstep
      obtain ⟨m₁, hdir, rfl⟩ := Option.map_eq_some_iff.mp hstep
      obtain ⟨hsame, hworld⟩ := ensureDir_eq hdir
      have hne : child ≠ pid := by
        rintro rfl
        cases hfree.symm.trans hspawning
      have hend : ((m₁.set pid none).world name).Accounted := by
        rw [world_set, hworld]
        refine (World.accounted_end_command fun p hp => ?_).mpr h
        rw [process_world, hspawning] at hp
        obtain rfl := Option.some.inj hp
        rw [Process.phaseAt]
        split <;> rfl
      refine iff_of_true (accounted_command hend (fun old hold => ?_) ?_) trivial
      · have hchild : (m₁.set pid none).process child = m₁.process child := Function.update_of_ne hne ..
        rw [hchild, hsame, hfree] at hold
        cases hold
      · rw [Process.phaseAt]
        split <;> nofun
    · cases hstep
  | exit pid =>
    rw [step, Option.ite_none_right_eq_some] at hstep
    obtain ⟨-, hstep⟩ := hstep
    cases hstep
    rw [world_set]
    exact World.accounted_end h

end Machine

def AlwaysAccounted (name : Str) (events : List Event) : Prop :=
  ∀ before m, before <+: events → Runs.run step .idle before = some m → (m.world name).Accounted

def Machine.marked (m : Machine) : Event → Option Str
  | .act pid _ => match m.process pid with
    | some (.writing sid) => some sid
    | _ => none
  | _ => none

def markingStep (m : Machine) (e : Event) : Option (List Str × Machine) :=
  (step m e).map fun m' => ((m.marked e).toList, m')

/-- A daemon empties the marker only while no other is about to write it. -/
def Machine.Serial (m : Machine) : Event → Prop
  | .act pid _ => match m.process pid with
    | some (.marking _) => ∀ other sid, m.process other ≠ some (.writing sid)
    | _ => True
  | _ => True

/-- The marker is blank or names the SID that was written last, and a search stays below the root. -/
structure Named (s : List Str × Machine) : Prop where
  marker : s.2.marker = some [] ∨ s.2.marker = s.1.getLast?.map utf8
  writing : ∀ pid sid, s.2.process pid = some (.writing sid) → s.2.marker = some [] ∧
    ∀ other sid', s.2.process other = some (.writing sid') → other = pid
  dirs : ∀ name ∈ s.2.dirs, sanitizeForFile name = name
  search : ∀ pid command entries foundSid, s.2.process pid = some (.discovering command entries foundSid) →
    (∀ name ∈ entries, name ∈ s.2.dirs) ∧ ∀ name ∈ foundSid, name ∈ s.2.dirs

private theorem sanitizeForFile_idempotent (s : Str) : sanitizeForFile (sanitizeForFile s) = sanitizeForFile s := by
  rw [sanitizeForFile, sanitizeForFile, List.map_map]
  refine List.map_congr_left fun ch _ => ?_
  rw [Function.comp_apply]
  by_cases hkept : Kept ch
  · rw [if_pos hkept, if_pos hkept]
  · rw [if_neg hkept]
    rfl

section
variable {m m' : Machine} {log : List Str} {pid : Pid}

private theorem process_set {process : Option Process} {p : Pid} {q : Process}
    (h : (m.set pid process).process p = some q) : (p = pid ∧ process = some q) ∨ m.process p = some q := by
  have hupdate : Function.update m.process pid process p = some q := h
  by_cases hp : p = pid
  · rw [hp, Function.update_self] at hupdate
    exact Or.inl ⟨hp, hupdate⟩
  · rw [Function.update_of_ne hp] at hupdate
    exact Or.inr hupdate

private theorem process_of_put {name : Str} {w : World} {p : Pid} {q : Process}
    (h : (m.put name w).process p = some q) (hq : ∀ sid phase, q ≠ .working sid phase) : m.process p = some q := by
  obtain ⟨phase, -, h⟩ := Option.bind_eq_some_iff.mp h
  obtain ⟨old, hold, rfl⟩ := Option.map_eq_some_iff.mp h
  cases old with
  | working sid phase' => exact absurd rfl (hq _ _)
  | _ => exact hold

private theorem Named.keep (h : Named (log, m)) (hmarker : m'.marker = m.marker)
    (hsub : ∀ name ∈ m.dirs, name ∈ m'.dirs)
    (hdirs : ∀ name ∈ m'.dirs, name ∈ m.dirs ∨ sanitizeForFile name = name)
    (hprocess : ∀ p q, m'.process p = some q → m.process p = some q ∨ (∀ sid, q ≠ .writing sid) ∧
      ∀ command entries foundSid, q = .discovering command entries foundSid →
        (∀ name ∈ entries, name ∈ m.dirs) ∧ ∀ name ∈ foundSid, name ∈ m.dirs) : Named (log, m') := by
  have hwriting {p : Pid} {sid : Str} (hp : m'.process p = some (.writing sid)) : m.process p = some (.writing sid) :=
    (hprocess p _ hp).resolve_right fun hc => hc.1 sid rfl
  refine ⟨?_, fun p sid hp => ?_, fun name hname => ?_, fun p command entries foundSid hp => ?_⟩
  · rw [hmarker]
    exact h.marker
  · rw [hmarker]
    obtain ⟨hblank, honly⟩ := h.writing p sid (hwriting hp)
    exact ⟨hblank, fun other sid' hother => honly other sid' (hwriting hother)⟩
  · exact (hdirs name hname).elim (h.dirs name) id
  · rcases hprocess p _ hp with hold | ⟨-, hnew⟩
    · obtain ⟨hentries, hfound⟩ := h.search p command entries foundSid hold
      exact ⟨fun name hname => hsub name (hentries name hname), fun name hname => hsub name (hfound name hname)⟩
    · obtain ⟨hentries, hfound⟩ := hnew command entries foundSid rfl
      exact ⟨fun name hname => hsub name (hentries name hname), fun name hname => hsub name (hfound name hname)⟩

private theorem Named.set (h : Named (log, m)) {process : Option Process}
    (hprocess : ∀ q, process = some q → (∀ sid, q ≠ .writing sid) ∧
      ∀ command entries foundSid, q = .discovering command entries foundSid →
        (∀ name ∈ entries, name ∈ m.dirs) ∧ ∀ name ∈ foundSid, name ∈ m.dirs) : Named (log, m.set pid process) := by
  refine h.keep rfl (fun _ => id) (fun _ => Or.inl) fun p q hq => ?_
  rcases process_set hq with ⟨-, hnew⟩ | hold
  · exact Or.inr (hprocess q hnew)
  · exact Or.inl hold

private theorem Named.ensureDir {sid : Str} (h : Named (log, m))
    (hdir : m.ensureDir (sanitizeForFile sid) = some m') : Named (log, m') := by
  rw [Machine.ensureDir] at hdir
  split at hdir
  · cases hdir
  · split at hdir
    · cases hdir
      exact h
    · cases hdir
      refine h.keep rfl (fun name => List.mem_append_left _) (fun name hname => ?_) fun _ _ => Or.inl
      rcases List.mem_append.mp hname with hold | hnew
      · exact Or.inl hold
      · rw [List.mem_singleton.mp hnew]
        exact Or.inr (sanitizeForFile_idempotent sid)

private theorem Named.work {sid : Str} {phase : Phase} (h : Named (log, m)) (hwork : m.work pid sid phase = some m') :
    Named (log, m') := by
  obtain ⟨w, -, rfl⟩ := Option.map_eq_some_iff.mp hwork
  refine h.keep rfl (fun _ => id) (fun _ => Or.inl) fun p q hq => ?_
  cases q with
  | working sid phase => exact Or.inr ⟨nofun, nofun⟩
  | _ => exact Or.inl (process_of_put hq nofun)

private theorem resolveControlSid_cases (command : Command) (explicitSid envSid : Option Str) :
    (∃ sid, resolveControlSid command explicitSid envSid = .working sid (.reading command)) ∨
      resolveControlSid command explicitSid envSid = .resolving command := by
  rw [resolveControlSid]
  split
  · exact Or.inl ⟨_, rfl⟩
  · exact Or.inr rfl

private theorem Named.emptied {sid : Str} (h : Named (log, m))
    (hserial : ∀ other sid', m.process other ≠ some (.writing sid')) :
    Named (log, { m with marker := some [] }.set pid (some (.writing sid))) := by
  have hpid {p : Pid} {sid' : Str} (hp : ({ m with marker := some [] }.set pid
      (some (.writing sid))).process p = some (.writing sid')) : p = pid :=
    ((process_set hp).resolve_right (hserial p sid')).1
  refine ⟨Or.inl rfl, fun p sid' hp => ⟨rfl, fun other sid'' hother => ?_⟩, h.dirs,
    fun p command entries foundSid hp => ?_⟩
  · exact (hpid hother).trans (hpid hp).symm
  · rcases process_set hp with ⟨-, hnew⟩ | hold
    · cases hnew
    · exact h.search p command entries foundSid hold

private theorem Named.wrote {sid : Str} (h : Named (log, m)) (hprocess : m.process pid = some (.writing sid)) :
    Named (log ++ [sid], { m with marker := some (FileSystem.Disk.overlay 0 (m.marker.getD []) 0 (utf8 sid)) }.set pid
      (some (.working sid .looping))) := by
  obtain ⟨hblank, honly⟩ := h.writing pid sid hprocess
  refine ⟨Or.inr ?_, fun p sid' hp => ?_, h.dirs, fun p command entries foundSid hp => ?_⟩
  · have hlast : (log ++ [sid]).getLast? = some sid := List.getLast?_concat
    have hwritten : FileSystem.Disk.overlay 0 (m.marker.getD []) 0 (utf8 sid) = utf8 sid := by
      rw [hblank]
      simp [FileSystem.Disk.overlay]
    exact (congrArg some hwritten).trans (congrArg (Option.map utf8) hlast).symm
  · rcases process_set hp with ⟨-, hnew⟩ | hold
    · cases hnew
    · obtain rfl := honly p sid' hold
      cases (Function.update_self ..).symm.trans hp
  · rcases process_set hp with ⟨-, hnew⟩ | hold
    · cases hnew
    · exact h.search p command entries foundSid hold

private theorem named_quiet {process : Process} {listing : List Str} (h : Named (log, m))
    (hprocess : m.process pid = some process) (hserial : m.Serial (.act pid listing))
    (hacts : Acts m pid listing process m') (hquiet : ∀ sid, process ≠ .writing sid) : Named (log, m') := by
  have hmoved {next : Process} (hwriting : ∀ sid, next ≠ .writing sid)
      (hsearch : ∀ command entries foundSid, next = .discovering command entries foundSid →
        (∀ name ∈ entries, name ∈ m.dirs) ∧ ∀ name ∈ foundSid, name ∈ m.dirs) :
      Named (log, m.set pid (some next)) := by
    refine h.set fun q hq => ?_
    cases hq
    exact ⟨hwriting, hsearch⟩
  rw [Machine.Serial, hprocess] at hserial
  cases hacts with
  | unnamed hfile hmarker => exact hmoved nofun nofun
  | named hfile hmarker htext hblank => exact hmoved nofun nofun
  | opened hperm =>
    refine hmoved nofun fun _ _ _ hq => ?_
    cases hq
    exact ⟨fun name hname => hperm.mem_iff.mp hname, nofun⟩
  | passed hfile =>
    obtain ⟨hentries, hfound⟩ := h.search pid _ _ _ hprocess
    refine hmoved nofun fun _ _ _ hq => ?_
    cases hq
    exact ⟨(List.forall_mem_cons.mp hentries).2, hfound⟩
  | found hfile =>
    obtain ⟨hentry, hrest⟩ := List.forall_mem_cons.mp (h.search pid _ _ _ hprocess).1
    refine hmoved nofun fun _ _ _ hq => ?_
    cases hq
    refine ⟨hrest, fun name hname => ?_⟩
    cases hname
    exact hentry
  | discovered => exact hmoved nofun nofun
  | started hdir hwork => exact (h.ensureDir hdir).work hwork
  | registered hwork =>
    refine (h.work hwork).set fun q hq => ?_
    cases hq
    exact ⟨nofun, nofun⟩
  | worked hphase hwork => exact h.work hwork
  | emptied hfile => exact h.emptied hserial
  | wrote => exact absurd rfl (hquiet _)

private theorem named_act {process : Process} {listing : List Str} (h : Named (log, m))
    (hprocess : m.process pid = some process) (hserial : m.Serial (.act pid listing))
    (hact : act m pid listing process = some m') :
    Named (log ++ (m.marked (.act pid listing)).toList, m') := by
  have hacts := acts_of_act hact
  rw [Machine.marked, hprocess]
  cases process with
  | writing sid =>
    cases hacts
    exact h.wrote hprocess
  | _ =>
    rw [Option.toList_none, List.append_nil]
    exact named_quiet h hprocess hserial hacts nofun

private theorem named_step {s s' : List Str × Machine} {e : Event} (h : Named s) (hserial : s.2.Serial e)
    (hstep : Parties.logged markingStep s e = some s') : Named s' := by
  obtain ⟨out, hout, hlog⟩ := Parties.logged_eq_some_iff.mp hstep
  obtain ⟨log, m⟩ := s
  obtain ⟨log', m'⟩ := s'
  obtain rfl : log' = log ++ out := hlog
  obtain ⟨m₁, hmove, hpair⟩ := Option.map_eq_some_iff.mp hout
  clear hstep hout
  obtain ⟨rfl, rfl⟩ := Prod.mk.inj hpair
  cases e with
  | launch pid program =>
    rw [step, Option.ite_none_right_eq_some] at hmove
    obtain ⟨-, hmove⟩ := hmove
    cases hmove
    show Named (log ++ [], _)
    rw [List.append_nil]
    refine h.set fun q hq => ?_
    obtain rfl := Option.some.inj hq
    have hresolve (command : Command) (explicitSid envSid : Option Str) :
        (∀ sid, resolveControlSid command explicitSid envSid ≠ .writing sid) ∧ ∀ command' entries foundSid,
          resolveControlSid command explicitSid envSid ≠ .discovering command' entries foundSid := by
      rcases resolveControlSid_cases command explicitSid envSid with ⟨sid, hsid⟩ | hsid <;> rw [hsid] <;>
        exact ⟨nofun, nofun⟩
    cases program with
    | stop explicitSid envSid =>
      obtain ⟨hwriting, hsearch⟩ := hresolve .stop explicitSid envSid
      exact ⟨hwriting, fun _ _ _ hq => absurd hq (hsearch _ _ _)⟩
    | status explicitSid envSid =>
      obtain ⟨hwriting, hsearch⟩ := hresolve .status explicitSid envSid
      exact ⟨hwriting, fun _ _ _ hq => absurd hq (hsearch _ _ _)⟩
    | _ => exact ⟨nofun, nofun⟩
  | act pid listing =>
    obtain ⟨process, hprocess, hact⟩ := Option.bind_eq_some_iff.mp hmove
    exact named_act h hprocess hserial hact
  | spawn pid child =>
    show Named (log ++ [], _)
    rw [List.append_nil]
    rw [step] at hmove
    split at hmove
    · rename_i sid hspawning
      rw [Option.ite_none_right_eq_some] at hmove
      obtain ⟨-, hmove⟩ := hmove
      obtain ⟨m₁, hdir, rfl⟩ := Option.map_eq_some_iff.mp hmove
      refine ((h.ensureDir hdir).set fun q hq => ?_).set fun q hq => ?_
      · cases hq
      · cases hq
        exact ⟨nofun, nofun⟩
    · cases hmove
  | exit pid =>
    rw [step, Option.ite_none_right_eq_some] at hmove
    obtain ⟨-, hmove⟩ := hmove
    cases hmove
    show Named (log ++ [], _)
    rw [List.append_nil]
    refine h.set fun q hq => ?_
    cases hq

end

/-- As long as no two starts overlap in writing the marker, a command that was given no SID works for the
group that was marked last, or in a directory that it has found below the root. -/
theorem resolved_sid {events : List Event} {log : List Str} {m m' : Machine}
    (hguard : Runs.Guarded (Parties.logged markingStep) (fun s e => s.2.Serial e) ([], .idle) events)
    (hrun : Runs.run (Parties.logged markingStep) ([], .idle) events = some (log, m)) {pid : Pid} {process : Process}
    (hprocess : m.process pid = some process) (hsearching : ∀ sid phase, process ≠ .working sid phase)
    {listing : List Str} (hact : act m pid listing process = some m') {sid : Str} {command : Command}
    (hbegin : m'.process pid = some (.working sid (.reading command))) :
    (∃ last, log.getLast? = some last ∧ sid = trim last) ∨ sid ∈ m.dirs ∧ sanitizeForFile sid = sid := by
  have hstart : Named ([], .idle) := ⟨Or.inr rfl, fun _ _ h => (by cases h), nofun, fun _ _ _ _ h => by cases h⟩
  have hnamed : Named (log, m) := Runs.invariant_run (fun _ _ _ => named_step) hstart hguard hrun
  have hset {next : Process} (h : (m.set pid (some next)).process pid = some (.working sid (.reading command))) :
      next = .working sid (.reading command) := by
    have hself : (m.set pid (some next)).process pid = some next := Function.update_self ..
    exact Option.some.inj (hself.symm.trans h)
  cases acts_of_act hact with
  | named hfile hmarker htext hblank =>
    cases hset hbegin
    refine Or.inl ?_
    rcases hnamed.marker with hempty | hlast
    · cases hmarker.symm.trans hempty
      cases htext
      exact absurd rfl hblank
    · obtain ⟨last, hlog, hbytes⟩ := Option.map_eq_some_iff.mp (hlast.symm.trans hmarker)
      subst hbytes
      rw [fromUtf8_utf8] at htext
      cases htext
      exact ⟨_, hlog, rfl⟩
  | discovered =>
    obtain ⟨-, hfound⟩ := hnamed.search pid _ _ _ hprocess
    cases hset hbegin
    exact Or.inr ⟨hfound _ rfl, hnamed.dirs _ (hfound _ rfl)⟩
  | started | registered | worked => exact absurd rfl (hsearching _ _)
  | _ => cases hset hbegin

/-- Two starts that overlap can leave a name that neither has. -/
example : ∃ m, Runs.run step .idle [.launch 1 (.foreground "group-alpha".toList), .act 1 [], .act 1 [],
      .launch 2 (.foreground "beta".toList), .act 2 [], .act 2 [], .act 1 [], .act 2 [], .act 1 [],
      .act 2 []] = some m ∧
    m.marker = some (utf8 "betap-alpha".toList) := ⟨_, rfl, rfl⟩

private def markedRun : List Event := [.launch 1 (.foreground "group-a".toList), .act 1 [], .act 1 [], .act 1 [],
  .act 1 [], .launch 3 (.stop none none)]

/-- A `stop` that was given no SID finds the group of the daemon that has started. -/
theorem resolved_sid_marked : ∃ log m m',
    Runs.run (Parties.logged markingStep) ([], .idle) markedRun = some (log, m) ∧
    act m 3 [] (.resolving .stop) = some m' ∧ m'.process 3 = some (.working "group-a".toList (.reading .stop)) ∧
    ((∃ last, log.getLast? = some last ∧ "group-a".toList = trim last) ∨
      "group-a".toList ∈ m.dirs ∧ sanitizeForFile "group-a".toList = "group-a".toList) := by
  obtain ⟨log, m, m', hrun, hprocess, hact, hbegin⟩ : ∃ log m m',
      Runs.run (Parties.logged markingStep) ([], .idle) markedRun = some (log, m) ∧
      m.process 3 = some (.resolving .stop) ∧ act m 3 [] (.resolving .stop) = some m' ∧
      m'.process 3 = some (.working "group-a".toList (.reading .stop)) := ⟨_, _, _, rfl, rfl, rfl, rfl⟩
  have hguard : Runs.Guarded (Parties.logged markingStep) (fun s e => s.2.Serial e) ([], .idle) markedRun := by
    refine Runs.guarded_cons rfl trivial (Runs.guarded_cons rfl trivial (Runs.guarded_cons rfl trivial ?_))
    refine Runs.guarded_cons rfl ?_ (Runs.guarded_cons rfl trivial (Runs.guarded_cons rfl trivial trivial))
    intro other sid hother
    by_cases h : other = 1
    · subst h
      cases hother
    · simp [Machine.put, Machine.set, Machine.idle, Machine.world, World.set, h] at hother
  exact ⟨log, m, m', hrun, hact, hbegin, resolved_sid hguard hrun hprocess (fun _ _ h => by cases h) hact hbegin⟩

end SshKeySync.Runtime.ControlPlane
