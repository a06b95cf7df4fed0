import SshKeySync.AuthorizedKeys.AtomicWrite

/-! One call of `apply_managed_block_to_file` that any system error may end and that may stop
after any step. The rename is its commit point: before it the target is as it was, after it
the target holds the whole output, for what it held before if the call has seen that. -/
namespace SshKeySync.AuthorizedKeys
open RustStd FileSystem

/-- A disk with a target and, from an earlier crash, a temporary file, each absent or of any
content. -/
def priorDisk (path : FilePath) (prior stale : Option Bytes) : Disk FilePath UInt8 where
  name p := if p = path then prior.map fun _ => 0 else if p = path.tempPathNear then stale.map fun _ => 1 else none
  data i := if i = 0 then prior.getD [] else stale.getD []
  next := 2
  fresh p i h := by
    split at h
    · obtain ⟨_, -, rfl⟩ := Option.map_eq_some_iff.mp h
      exact Nat.zero_lt_two
    · split at h
      · obtain ⟨_, -, rfl⟩ := Option.map_eq_some_iff.mp h
        exact Nat.one_lt_two
      · cases h

abbrev callStep (path : FilePath) (managedKeys : List Str) : World Unit → Unit × Action → Option (World Unit) :=
  step path fun _ => managedKeys

def BeforeRename : AuthorizedKeysError → Prop
  | .syncFailed _ | .setPermissionsFailed _ => False
  | .missingManagedEnd | .invalidPublicKey | .readFailed _ | .writeFailed _ | .renameFailed _ => True

def Replaced (path : FilePath) (managedKeys : List Str) (prior : Option Bytes) (disk : Disk FilePath UInt8)
    (updated : Str) : Prop :=
  planUpdate path prior managedKeys = .ok updated ∧ disk.read path = some (utf8 updated)

def Phase.Target (path : FilePath) (managedKeys : List Str) (prior : Option Bytes) (disk : Disk FilePath UInt8) :
    Phase → Prop
  | .ready | .prepared => disk.read path = prior
  | .planned updated | .writing updated _ _ | .synced updated =>
    planUpdate path prior managedKeys = .ok updated ∧ disk.read path = prior
  | .renamed updated | .done updated => Replaced path managedKeys prior disk updated
  | .failed error => disk.read path = prior ∨
    ¬ BeforeRename error ∧ ∃ updated, Replaced path managedKeys prior disk updated
  | .stopped => disk.read path = prior ∨ ∃ updated, Replaced path managedKeys prior disk updated

/-- The test for the file fails only where there is none or an empty one. -/
def Sees {ι : Type} (path : FilePath) (w : World ι) (e : ι × Action) : Prop :=
  e.2 = .read true → w.disk.read path = none ∨ w.disk.read path = some []

instance {ι : Type} (path : FilePath) (w : World ι) (e : ι × Action) : Decidable (Sees path w e) :=
  inferInstanceAs (Decidable (e.2 = .read true → _))

section
variable {path : FilePath} {managedKeys : List Str} {prior stale : Option Bytes}

private theorem read_priorDisk : (priorDisk path prior stale).read path = prior := by
  cases prior <;> simp [Disk.read, priorDisk]

private theorem separate_priorDisk : (priorDisk path prior stale).Separate path.tempPathNear path := by
  intro i hi hi'
  simp only [priorDisk, if_neg path.ne_tempPathNear.symm, if_pos] at hi hi'
  obtain ⟨_, -, rfl⟩ := Option.map_eq_some_iff.mp hi
  obtain ⟨_, -, h⟩ := Option.map_eq_some_iff.mp hi'
  cases h

private theorem target_failed {disk : Disk FilePath UInt8} {phase : Phase} {error : AuthorizedKeysError}
    (h : phase.Target path managedKeys prior disk) (herror : error ∈ failures path phase) :
    (Phase.failed error).Target path managedKeys prior disk := by
  cases phase with
  | ready => exact Or.inl h
  | prepared => exact Or.inl h
  | planned updated => exact Or.inl h.2
  | writing updated inode offset => exact Or.inl h.2
  | synced updated => exact Or.inl h.2
  | renamed updated =>
    refine Or.inr ⟨?_, updated, h⟩
    simp only [failures, List.mem_cons, List.not_mem_nil, or_false] at herror
    rcases herror with rfl | rfl <;> exact id
  | done updated => cases herror
  | failed error => cases herror
  | stopped => cases herror

private theorem target_either {disk : Disk FilePath UInt8} {phase : Phase}
    (h : phase.Target path managedKeys prior disk) :
    disk.read path = prior ∨ ∃ updated, Replaced path managedKeys prior disk updated := by
  cases phase with
  | ready => exact Or.inl h
  | prepared => exact Or.inl h
  | planned updated => exact Or.inl h.2
  | writing updated inode offset => exact Or.inl h.2
  | synced updated => exact Or.inl h.2
  | renamed updated => exact Or.inr ⟨updated, h⟩
  | done updated => exact Or.inr ⟨updated, h⟩
  | failed error => exact h.imp_right And.right
  | stopped => exact h

private theorem planUpdate_seen {found : Option Bytes} {unseen : Bool}
    (hsees : unseen = true → found = none ∨ found = some []) :
    planUpdate path (if unseen then none else found) managedKeys = planUpdate path found managedKeys := by
  cases unseen with
  | false => rfl
  | true => rcases hsees rfl with rfl | rfl <;> rfl

/-- One step of a call keeps what its phase says of the target. -/
theorem target_act {disk disk' : Disk FilePath UInt8} {phase phase' : Phase} {a : Action}
    (htarget : phase.Target path managedKeys prior disk) (hondisk : phase.OnDisk path disk)
    (hsees : a = .read true → disk.read path = none ∨ disk.read path = some [])
    (hseparate : disk.Separate path.tempPathNear path)
    (h : act path managedKeys disk phase a = some (disk', phase')) :
    phase'.Target path managedKeys prior disk' := by
  unfold act at h
  split at h
  case h_1 =>
    cases h
    exact htarget
  case h_2 unseen =>
    have hread : disk.read path = prior := htarget
    rw [planUpdate_seen fun hunseen => hsees (congrArg Action.read hunseen), hread] at h
    split at h
    · rename_i hplan
      cases h
      exact ⟨hplan, hread⟩
    · cases h
      exact Or.inl hread
  case h_3 updated =>
    cases h
    obtain ⟨hread, -⟩ := Disk.openTruncate_frame rfl path.ne_tempPathNear hseparate
    exact ⟨htarget.1, hread.trans htarget.2⟩
  case h_4 updated inode offset count =>
    split at h
    · cases h
      exact ⟨htarget.1, (Disk.write_frame _ _ _ (hseparate inode hondisk.1)).trans htarget.2⟩
    · cases h
  case h_5 updated inode offset =>
    split at h
    · cases h
      exact htarget
    · cases h
  case h_6 updated =>
    split at h
    · rename_i hrename
      cases h
      obtain ⟨hread, -⟩ := Disk.rename_read hrename path.ne_tempPathNear.symm hseparate
      exact ⟨htarget.1, hread.trans hondisk⟩
    · cases h
      exact Or.inl htarget.2
  case h_7 updated =>
    cases h
    exact htarget
  case h_8 error =>
    split at h
    · rename_i herror
      cases h
      exact target_failed htarget herror
    · cases h
  case h_9 =>
    split at h
    · cases h
    · cases h
      exact target_either htarget
  case h_10 => cases h

structure Sound (path : FilePath) (managedKeys : List Str) (prior : Option Bytes) (w : World Unit) : Prop where
  safe : Safe path (fun _ => managedKeys) (fun _ => True) prior w
  target : (w.phase ()).Target path managedKeys prior w.disk

private theorem sound_start : Sound path managedKeys prior (start (priorDisk path prior stale)) := by
  refine ⟨?_, read_priorDisk⟩
  have hsafe : Safe path (fun _ : Unit => managedKeys) (fun _ => True) ((priorDisk path prior stale).read path)
      (start (priorDisk path prior stale)) := safe_start separate_priorDisk
  rwa [read_priorDisk] at hsafe

private theorem sound_step {w w' : World Unit} {e : Unit × Action} (h : Sound path managedKeys prior w)
    (hsees : Sees path w e) (hstep : callStep path managedKeys w e = some w') :
    Sound path managedKeys prior w' := by
  refine ⟨safe_step h.safe (fun _ _ hne => absurd rfl hne) (fun _ => trivial) hstep, ?_⟩
  obtain ⟨⟨disk, phase⟩, hact, rfl⟩ := Option.map_eq_some_iff.mp hstep
  have htarget := target_act h.target (h.safe.onDisk ()) hsees h.safe.separate hact
  rwa [← World.set_phase_self w disk e.1 phase] at htarget

/-- Wherever a call that sees the file is stopped and whichever of its steps fails, the target is as before
or holds the complete output; it is as before with every error that the rename does not precede, and a
call that returns has put in place what it returns. -/
theorem update_all_or_nothing {events : List (Unit × Action)} {w : World Unit}
    (hsees : Runs.Guarded (callStep path managedKeys) (Sees path) (start (priorDisk path prior stale)) events)
    (hrun : Runs.run (callStep path managedKeys) (start (priorDisk path prior stale)) events = some w) :
    (w.disk.read path = prior ∨ ∃ updated, Replaced path managedKeys prior w.disk updated) ∧
    (∀ error, w.phase () = .failed error → BeforeRename error → w.disk.read path = prior) ∧
    ∀ updated, w.phase () = .done updated → Replaced path managedKeys prior w.disk updated := by
  have htarget := (Runs.invariant_run (fun _ _ _ => sound_step) sound_start hsees hrun).target
  generalize w.phase () = phase at htarget
  refine ⟨target_either htarget, ?_, ?_⟩
  · rintro error rfl hbefore
    exact htarget.resolve_right fun h => h.1 hbefore
  · rintro updated rfl
    exact htarget

end

private def sshPath : FilePath := ⟨"/root/.ssh".toList, "authorized_keys".toList⟩

private def userLine : Option Bytes := some (utf8 "ssh-rsa AA me".toList)

private def keyB : List Str := ["ssh-rsa BB b".toList]

private def fullDisk : List (Unit × Action) :=
  [.prepare, .read false, .openTemp, .write 10, .fail (.writeFailed sshPath.tempPathNear.display)].map ((), ·)

private def wholeUpdate (unseen : Bool) (length : Nat) : List (Unit × Action) :=
  [.prepare, .read unseen, .openTemp, .write length, .sync, .rename, .finish].map ((), ·)

private def withKeyB : Str :=
  "ssh-rsa AA me\n\n# ssh-key-sync begin\nssh-rsa BB b\n# ssh-key-sync end".toList

/-- A write that fails half-way leaves the target, and one that goes through puts in place what is
returned. -/
theorem update_all_or_nothing_full :
    (∃ w, Runs.run (callStep sshPath keyB) (start (priorDisk sshPath userLine (some [7]))) fullDisk = some w ∧
      w.disk.read sshPath = userLine) ∧
    ∃ w, Runs.run (callStep sshPath keyB) (start (priorDisk sshPath userLine (some [7]))) (wholeUpdate false 67) =
      some w ∧ w.phase () = .done withKeyB ∧ w.disk.read sshPath = some (utf8 withKeyB) := by
  constructor
  · have hruns : (Runs.run (callStep sshPath keyB) (start (priorDisk sshPath userLine (some [7])))
        fullDisk).map (·.phase ()) = some (.failed (.writeFailed sshPath.tempPathNear.display)) := by decide +kernel
    obtain ⟨w, hw, hphase⟩ := Option.map_eq_some_iff.mp hruns
    exact ⟨w, hw, (update_all_or_nothing (by decide +kernel) hw).2.1 _ hphase trivial⟩
  · have hruns : (Runs.run (callStep sshPath keyB) (start (priorDisk sshPath userLine (some [7])))
        (wholeUpdate false 67)).map (·.phase ()) = some (.done withKeyB) := by decide +kernel
    obtain ⟨w, hw, hphase⟩ := Option.map_eq_some_iff.mp hruns
    exact ⟨w, hw, hphase, ((update_all_or_nothing (by decide +kernel) hw).2.2 _ hphase).2⟩

/-- A call that does not see the file returns, and the line of the user is gone: the target is not as before,
nor is it the output for what it held. -/
theorem unseen_update_drops_lines : ∃ w updated,
    Runs.run (callStep sshPath keyB) (start (priorDisk sshPath userLine none)) (wholeUpdate true 52) = some w ∧
      w.phase () = .done updated ∧ w.disk.read sshPath = some (utf8 updated) ∧
      "ssh-rsa AA me".toList ∉ lines updated ∧
      ¬ (w.disk.read sshPath = userLine ∨ ∃ updated, Replaced sshPath keyB userLine w.disk updated) := by
  have hruns : (Runs.run (callStep sshPath keyB) (start (priorDisk sshPath userLine none))
      (wholeUpdate true 52)).map (fun w => (w.phase (), w.disk.read sshPath)) = some (.done
        "# ssh-key-sync begin\nssh-rsa BB b\n# ssh-key-sync end".toList,
        some (utf8 "# ssh-key-sync begin\nssh-rsa BB b\n# ssh-key-sync end".toList)) := by decide +kernel
  obtain ⟨w, hw, hstands⟩ := Option.map_eq_some_iff.mp hruns
  obtain ⟨hphase, hread⟩ := Prod.ext_iff.mp hstands
  refine ⟨w, _, hw, hphase, hread, by decide, ?_⟩
  have hplan : planUpdate sshPath userLine keyB = .ok withKeyB := by decide +kernel
  rintro (hsame | ⟨updated, hupdated, hplace⟩)
  · rw [show w.disk.read sshPath = _ from hread] at hsame
    exact absurd hsame (by decide +kernel)
  · cases hplan.symm.trans hupdated
    rw [show w.disk.read sshPath = _ from hread] at hplace
    exact absurd hplace (by decide +kernel)

end SshKeySync.AuthorizedKeys
