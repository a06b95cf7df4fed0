import SshKeySync.AuthorizedKeys.ManagedBlock
import SshKeySync.Std.Utf8
import SshKeySync.Theory.FileSystem
import SshKeySync.Theory.Runs

/-! Concurrent calls of `apply_managed_block_to_file` on one path, step by step on a shared
disk. All of them write through one temporary name, which opening truncates. -/
namespace SshKeySync.AuthorizedKeys
open RustStd FileSystem

/-- The displayed parent directory of a file, and the file's name in it. -/
structure FilePath where
  parent : Str
  fileName : Str
  deriving DecidableEq

namespace FilePath

def display (path : FilePath) : Str :=
  if path.parent = [] ∨ path.parent.getLast? = some '/' then path.parent ++ path.fileName
  else path.parent ++ '/' :: path.fileName

def tempPathNear (path : FilePath) : FilePath := { path with fileName := path.fileName ++ ".tmp".toList }

/-- The temporary file is another file. -/
theorem ne_tempPathNear (path : FilePath) : path ≠ path.tempPathNear := by
  intro h
  have hlength := congrArg (fun p => p.fileName.length) h
  simp [tempPathNear] at hlength

end FilePath

/-- `contents` is `none` where `path.exists()` is false. -/
def readExistingAuthorizedKeys (path : FilePath) (contents : Option Bytes) :
    Except AuthorizedKeysError Str :=
  match contents with
  | none => .ok []
  | some bytes => okOr (fromUtf8 bytes) (.readFailed path.display)

/-- Where a call stands; the offset is the number of bytes written through its handle. A call is stopped
when its process ends before it returns. -/
inductive Phase where
  | ready
  | prepared
  | planned (updated : Str)
  | writing (updated : Str) (inode offset : Nat)
  | synced (updated : Str)
  | renamed (updated : Str)
  | done (updated : Str)
  | failed (error : AuthorizedKeysError)
  | stopped
  deriving DecidableEq

/-- `path.exists()` is false also where the system cannot tell, and the file then goes unseen. -/
inductive Action where
  | prepare
  | read (unseen : Bool)
  | openTemp
  | write (count : Nat)
  | sync
  | rename
  | finish
  | fail (error : AuthorizedKeysError)
  | stop
  deriving DecidableEq

structure World (ι : Type) where
  disk : Disk FilePath UInt8
  phase : ι → Phase

namespace World
variable {ι : Type} [DecidableEq ι] (w : World ι) (disk : Disk FilePath UInt8) (i : ι) (p : Phase)

def set : World ι := ⟨disk, Function.update w.phase i p⟩

@[simp] theorem set_phase_self : (w.set disk i p).phase i = p := Function.update_self ..
@[simp] theorem set_phase_of_ne {j : ι} (h : j ≠ i) : (w.set disk i p).phase j = w.phase j :=
  Function.update_of_ne h ..

end World

def Phase.over : Phase → Bool
  | .done _ | .failed _ | .stopped => true
  | _ => false

/-- The errors a call can return where it stands when the system refuses an operation. -/
def failures (path : FilePath) : Phase → List AuthorizedKeysError
  | .ready => [.writeFailed path.parent, .setPermissionsFailed path.parent]
  | .prepared => [.readFailed path.display]
  | .planned _ => [.writeFailed path.tempPathNear.display]
  | .writing updated _ offset => if offset < (utf8 updated).length then
      [.writeFailed path.tempPathNear.display] else [.syncFailed path.tempPathNear.display]
  | .synced _ => [.renameFailed path.display]
  | .renamed _ => [.syncFailed path.parent, .setPermissionsFailed path.display]
  | _ => []

def planUpdate (path : FilePath) (contents : Option Bytes) (managedKeys : List Str) :
    Except AuthorizedKeysError Str := do
  let existing ← readExistingAuthorizedKeys path contents
  upsertManagedBlock existing managedKeys

/-- One step of a call; `write_all` may write in several pieces. -/
def act (path : FilePath) (managedKeys : List Str) (disk : Disk FilePath UInt8) :
    Phase → Action → Option (Disk FilePath UInt8 × Phase)
  | .ready, .prepare => some (disk, .prepared)
  | .prepared, .read unseen => match planUpdate path (if unseen then none else disk.read path) managedKeys with
    | .ok updated => some (disk, .planned updated)
    | .error error => some (disk, .failed error)
  | .planned updated, .openTemp =>
    some ((disk.openTruncate path.tempPathNear).2,
      .writing updated (disk.openTruncate path.tempPathNear).1 0)
  | .writing updated inode offset, .write count =>
    if 0 < count ∧ offset + count ≤ (utf8 updated).length then
      some (disk.write 0 inode offset (((utf8 updated).drop offset).take count),
        .writing updated inode (offset + count))
    else none
  | .writing updated _ offset, .sync =>
    if offset = (utf8 updated).length then some (disk, .synced updated) else none
  | .synced updated, .rename => match disk.rename path.tempPathNear path with
    | some disk => some (disk, .renamed updated)
    | none => some (disk, .failed (.renameFailed path.display))
  | .renamed updated, .finish => some (disk, .done updated)
  | phase, .fail error => if error ∈ failures path phase then some (disk, .failed error) else none
  | phase, .stop => if phase.over then none else some (disk, .stopped)
  | _, _ => none

section
variable {ι : Type} [DecidableEq ι] (path : FilePath) (keys : ι → List Str)

def step (w : World ι) (e : ι × Action) : Option (World ι) :=
  (act path (keys e.1) w.disk (w.phase e.1) e.2).map fun next => w.set next.1 e.1 next.2

def start (disk : Disk FilePath UInt8) : World ι := ⟨disk, fun _ => .ready⟩

/-- What the target may hold: its initial content, or the complete output of a call that read such a
content or did not see the file. -/
inductive Complete (unseen : ι → Prop) (initial : Option Bytes) : Option Bytes → Prop
  | initial : Complete unseen initial initial
  | updated {i contents output} (hread : Complete unseen initial contents)
      (houtput : planUpdate path contents (keys i) = .ok output) :
      Complete unseen initial (some (utf8 output))
  | blind {i output} (hunseen : unseen i) (houtput : planUpdate path none (keys i) = .ok output) :
      Complete unseen initial (some (utf8 output))

/-- Between its open and its rename, with a process that goes on. -/
def Phase.Holding : Phase → Prop
  | .writing .. => True
  | .synced _ => True
  | _ => False

instance : DecidablePred Phase.Holding
  | .writing .. | .synced _ => isTrue trivial
  | .ready | .prepared | .planned _ | .renamed _ | .done _ | .failed _ | .stopped => isFalse id

/-- A call opens the temporary file only while no other call holds it. -/
def Alone (w : World ι) (e : ι × Action) : Prop :=
  e.2 = .openTemp → ∀ j, j ≠ e.1 → ¬ (w.phase j).Holding

def Phase.pending : Phase → Option Str
  | .planned updated => some updated
  | .writing updated .. => some updated
  | .synced updated => some updated
  | _ => none

def Phase.OnDisk (disk : Disk FilePath UInt8) : Phase → Prop
  | .writing updated inode offset => disk.name path.tempPathNear = some inode ∧
      disk.data inode = (utf8 updated).take offset ∧ offset ≤ (utf8 updated).length
  | .synced updated => disk.read path.tempPathNear = some (utf8 updated)
  | _ => True

structure Safe (unseen : ι → Prop) (initial : Option Bytes) (w : World ι) : Prop where
  complete : Complete path keys unseen initial (w.disk.read path)
  separate : w.disk.Separate path.tempPathNear path
  exclusive : ∀ i j, (w.phase i).Holding → (w.phase j).Holding → i = j
  output : ∀ i updated, (w.phase i).pending = some updated →
    Complete path keys unseen initial (some (utf8 updated))
  onDisk : ∀ i, (w.phase i).OnDisk path w.disk

variable {path keys} {unseen : ι → Prop} {initial : Option Bytes} {w : World ι}

private theorem onDisk_of_not_holding {disk : Disk FilePath UInt8} {p : Phase} (h : ¬ p.Holding) :
    p.OnDisk path disk := by
  cases p <;> first | trivial | exact absurd trivial h

private theorem safe_set (h : Safe path keys unseen initial w) {disk : Disk FilePath UInt8} {i : ι}
    {p : Phase} (hcomplete : Complete path keys unseen initial (disk.read path))
    (hseparate : disk.Separate path.tempPathNear path)
    (hexclusive : p.Holding → ∀ j, j ≠ i → ¬ (w.phase j).Holding)
    (hout : ∀ updated, p.pending = some updated → Complete path keys unseen initial (some (utf8 updated)))
    (hself : p.OnDisk path disk) (hothers : ∀ j, j ≠ i → (w.phase j).OnDisk path disk) :
    Safe path keys unseen initial (w.set disk i p) := by
  refine ⟨hcomplete, hseparate, fun j k hj hk => ?_, fun j => ?_, fun j => ?_⟩
  · by_cases hji : j = i <;> by_cases hki : k = i
    · rw [hji, hki]
    · subst hji
      simp only [World.set_phase_self, World.set_phase_of_ne _ _ _ _ hki] at hj hk
      exact absurd hk (hexclusive hj k hki)
    · subst hki
      simp only [World.set_phase_self, World.set_phase_of_ne _ _ _ _ hji] at hj hk
      exact absurd hj (hexclusive hk j hji)
    · simp only [World.set_phase_of_ne _ _ _ _ hji, World.set_phase_of_ne _ _ _ _ hki] at hj hk
      exact h.exclusive j k hj hk
  · by_cases hji : j = i
    · subst hji
      rw [World.set_phase_self]
      exact hout
    · rw [World.set_phase_of_ne _ _ _ _ hji]
      exact h.output j
  · by_cases hji : j = i
    · subst hji
      rw [World.set_phase_self]
      exact hself
    · rw [World.set_phase_of_ne _ _ _ _ hji]
      exact hothers j hji

/-- Everything a step of a call can do to the disk and to its phase. -/
inductive Effect (path : FilePath) (managedKeys : List Str) (disk : Disk FilePath UInt8) :
    Phase → Action → Disk FilePath UInt8 → Phase → Prop
  | idle {p a p'} (hp : ¬ p'.Holding) (hout : ∀ updated, p'.pending = some updated →
      planUpdate path (disk.read path) managedKeys = .ok updated ∨
        a = .read true ∧ planUpdate path none managedKeys = .ok updated) :
      Effect path managedKeys disk p a disk p'
  | opened {updated inode disk'} (h : disk.openTruncate path.tempPathNear = (inode, disk')) :
      Effect path managedKeys disk (.planned updated) .openTemp disk' (.writing updated inode 0)
  | wrote {updated inode offset count} (hcount : offset + count ≤ (utf8 updated).length) :
      Effect path managedKeys disk (.writing updated inode offset) (.write count)
        (disk.write 0 inode offset (((utf8 updated).drop offset).take count))
        (.writing updated inode (offset + count))
  | synced {updated inode} : Effect path managedKeys disk
      (.writing updated inode (utf8 updated).length) .sync disk (.synced updated)
  | renamed {updated disk'} (h : disk.rename path.tempPathNear path = some disk') :
      Effect path managedKeys disk (.synced updated) .rename disk' (.renamed updated)

private theorem effect_of_act {managedKeys : List Str} {disk disk' : Disk FilePath UInt8} {p p' : Phase}
    {a : Action} (h : act path managedKeys disk p a = some (disk', p')) :
    Effect path managedKeys disk p a disk' p' := by
  have idle {q : Phase} (hq : ¬ q.Holding) (hpending : q.pending = none)
      (he : some (disk, q) = some (disk', p')) : Effect path managedKeys disk p a disk' p' := by
    cases he
    exact .idle hq fun updated hu => by rw [hpending] at hu; cases hu
  unfold act at h
  split at h
  · exact idle id rfl h
  · rename_i unseen
    split at h
    · rename_i hplan
      cases h
      refine .idle id fun updated hu => ?_
      cases hu
      cases unseen with
      | true => exact Or.inr ⟨rfl, hplan⟩
      | false => exact Or.inl hplan
    · exact idle id rfl h
  · cases h
    exact .opened rfl
  · split at h
    · rename_i hcount
      cases h
      exact .wrote hcount.2
    · cases h
  · split at h
    · rename_i hoffset
      cases h
      subst hoffset
      exact .synced
    · cases h
  · split at h
    · rename_i hrename
      cases h
      exact .renamed hrename
    · exact idle id rfl h
  · exact idle id rfl h
  · split at h
    · exact idle id rfl h
    · cases h
  · split at h
    · cases h
    · exact idle id rfl h
  · cases h

private theorem write_data {disk : Disk FilePath UInt8} {updated : Str} {inode offset count : Nat}
    (hdata : disk.data inode = (utf8 updated).take offset)
    (hcount : offset + count ≤ (utf8 updated).length) :
    (disk.write 0 inode offset (((utf8 updated).drop offset).take count)).data inode =
      (utf8 updated).take (offset + count) := by
  have hlength : (disk.data inode).length = offset := by
    rw [hdata, List.length_take]
    omega
  have hend := Disk.overlay_at_end (0 : UInt8) (disk.data inode) (((utf8 updated).drop offset).take count)
  rw [hlength] at hend
  calc (disk.write 0 inode offset (((utf8 updated).drop offset).take count)).data inode
      = Disk.overlay 0 (disk.data inode) offset (((utf8 updated).drop offset).take count) :=
        Function.update_self ..
    _ = (utf8 updated).take (offset + count) := by rw [hend, hdata, List.take_add]

/-- A step of a call that is alone with the temporary file keeps the target complete. -/
theorem safe_step {e : ι × Action} {w' : World ι} (h : Safe path keys unseen initial w) (halone : Alone w e)
    (hunseen : e.2 = .read true → unseen e.1) (hstep : step path keys w e = some w') :
    Safe path keys unseen initial w' := by
  obtain ⟨i, a⟩ := e
  obtain ⟨⟨disk', p'⟩, hact, rfl⟩ := Option.map_eq_some_iff.mp hstep
  have heffect := effect_of_act hact
  have hphase := h.onDisk i
  have houtput := h.output i
  have hsole : (w.phase i).Holding → ∀ j, j ≠ i → ¬ (w.phase j).Holding :=
    fun hi j hji hj => hji (h.exclusive j i hj hi)
  dsimp only at heffect ⊢
  generalize hp : w.phase i = p at heffect hphase houtput hsole
  cases heffect with
  | idle hidle hout =>
    refine safe_set h h.complete h.separate (fun hhold => absurd hhold hidle) (fun updated hu => ?_)
      (onDisk_of_not_holding hidle) fun j _ => h.onDisk j
    rcases hout updated hu with hplan | ⟨rfl, hplan⟩
    · exact .updated h.complete hplan
    · exact .blind (hunseen rfl) hplan
  | @opened updated inode _ hopen =>
    obtain ⟨hread, hseparate⟩ := Disk.openTruncate_frame hopen path.ne_tempPathNear h.separate
    obtain ⟨hname, hdata⟩ := Disk.openTruncate_opened hopen
    have hothers := halone rfl
    refine safe_set h ?_ hseparate (fun _ => hothers) houtput ⟨hname, hdata, Nat.zero_le _⟩ ?_
    · rw [hread]
      exact h.complete
    · exact fun j hji => onDisk_of_not_holding (hothers j hji)
  | @wrote updated inode offset count hcount =>
    obtain ⟨hname, hdata, -⟩ := hphase
    have hothers := hsole trivial
    refine safe_set h ?_ h.separate (fun _ => hothers) houtput
      ⟨hname, write_data hdata hcount, hcount⟩ ?_
    · rw [Disk.write_frame _ _ _ (h.separate inode hname)]
      exact h.complete
    · exact fun j hji => onDisk_of_not_holding (hothers j hji)
  | @synced updated inode =>
    obtain ⟨hname, hdata, -⟩ := hphase
    refine safe_set h h.complete h.separate (fun _ => hsole trivial) houtput ?_ fun j _ => h.onDisk j
    rw [Phase.OnDisk, Disk.read, hname, Option.map_some, hdata, List.take_length]
  | @renamed updated _ hrename =>
    obtain ⟨hread, hgone⟩ := Disk.rename_read hrename path.ne_tempPathNear.symm h.separate
    refine safe_set h ?_ ?_ (fun hhold => hhold.elim) (fun _ hpending => by cases hpending) trivial ?_
    · rw [hread.trans hphase]
      exact houtput updated rfl
    · intro inode hinode
      rw [hgone] at hinode
      cases hinode
    · exact fun j hji => onDisk_of_not_holding (hsole trivial j hji)

omit [DecidableEq ι] in
/-- Before any call the target is what it was. -/
theorem safe_start {disk : Disk FilePath UInt8} (hseparate : disk.Separate path.tempPathNear path) :
    Safe path keys unseen (disk.read path) (start disk) :=
  ⟨.initial, hseparate, fun _ _ hi _ => hi.elim, nofun, fun _ => trivial⟩

/-- While the temporary name does not also lead to the target's file, and no call opens it
while another holds it and goes on, the target is never seen empty or partly written. -/
theorem complete_of_alone {disk : Disk FilePath UInt8} {events : List (ι × Action)}
    (hseparate : disk.Separate path.tempPathNear path)
    (halone : Runs.Guarded (step path keys) Alone (start disk) events)
    (hrun : Runs.run (step path keys) (start disk) events = some w) :
    Complete path keys (fun i => (i, .read true) ∈ events) (disk.read path) (w.disk.read path) := by
  have hguard : Runs.Guarded (step path keys) (fun w e => Alone w e ∧ e ∈ events) (start disk) events :=
    Runs.guarded_of_imp halone fun _ _ he ha => ⟨ha, he⟩
  have hstep (w : World ι) (e : ι × Action) (w' : World ι)
      (h : Safe path keys (fun i => (i, .read true) ∈ events) (disk.read path) w)
      (he : Alone w e ∧ e ∈ events) (hnext : step path keys w e = some w') :
      Safe path keys (fun i => (i, .read true) ∈ events) (disk.read path) w' := by
    refine safe_step h he.1 (fun hread => ?_) hnext
    rw [← hread]
    exact he.2
  exact (Runs.invariant_run hstep (safe_start hseparate) hguard hrun).complete

end

instance (w : World Bool) (e : Bool × Action) : Decidable (Alone w e) :=
  decidable_of_iff (e.2 = .openTemp → ¬ (w.phase !e.1).Holding)
    ⟨fun h hopen j hj => by rw [Bool.eq_not_of_ne hj]; exact h hopen,
      fun h hopen => h hopen (!e.1) (by cases e.1 <;> decide)⟩

private def sharedPath : FilePath := ⟨"/root/.ssh".toList, "authorized_keys".toList⟩

private def oneUserLine : Disk FilePath UInt8 where
  name p := if p = sharedPath then some 0 else none
  data _ := utf8 "ssh-rsa AA me".toList
  next := 1
  fresh p i h := by
    split at h
    · cases h
      exact Nat.zero_lt_one
    · cases h

private def daemonAndSync : Bool → List Str
  | true => ["ssh-rsa BB b".toList]
  | false => []

private def wholeCall (caller : Bool) (length : Nat) : List (Bool × Action) :=
  [.prepare, .read false, .openTemp, .write length, .sync, .rename, .finish].map (caller, ·)

private theorem oneUserLine_separate : oneUserLine.Separate sharedPath.tempPathNear sharedPath := by
  intro i hi
  simp only [oneUserLine, if_neg sharedPath.ne_tempPathNear.symm] at hi
  cases hi

private def stoppedCall (caller : Bool) : List (Bool × Action) :=
  [.prepare, .read false, .openTemp, .write 10, .stop].map (caller, ·)

/-- A call that follows another, or finds the temporary file of one that was stopped, keeps what the target
holds complete. -/
theorem complete_of_alone_consecutive :
    (∃ w, Runs.run (step sharedPath daemonAndSync) (start oneUserLine) (wholeCall true 67 ++ wholeCall false 54) =
      some w ∧ Complete sharedPath daemonAndSync (fun i => (i, .read true) ∈ wholeCall true 67 ++ wholeCall false 54)
        (oneUserLine.read sharedPath) (w.disk.read sharedPath)) ∧
    ∃ w, Runs.run (step sharedPath daemonAndSync) (start oneUserLine) (stoppedCall true ++ wholeCall false 54) =
      some w ∧ Complete sharedPath daemonAndSync (fun i => (i, .read true) ∈ stoppedCall true ++ wholeCall false 54)
        (oneUserLine.read sharedPath) (w.disk.read sharedPath) := by
  constructor
  · have hruns : (Runs.run (step sharedPath daemonAndSync) (start oneUserLine)
        (wholeCall true 67 ++ wholeCall false 54)).isSome := by decide +kernel
    obtain ⟨w, hw⟩ := Option.isSome_iff_exists.mp hruns
    exact ⟨w, hw, complete_of_alone oneUserLine_separate (by decide +kernel) hw⟩
  · have hruns : (Runs.run (step sharedPath daemonAndSync) (start oneUserLine)
        (stoppedCall true ++ wholeCall false 54)).isSome := by decide +kernel
    obtain ⟨w, hw⟩ := Option.isSome_iff_exists.mp hruns
    exact ⟨w, hw, complete_of_alone oneUserLine_separate (by decide +kernel) hw⟩

private def overlapping : List (Bool × Action) :=
  [(true, .prepare), (true, .read false), (false, .prepare), (false, .read false), (true, .openTemp),
    (true, .write 67), (true, .sync), (false, .openTemp), (true, .rename)]

private theorem upsertManagedBlock_ne_nil {existing output : Str} {managedKeys : List Str}
    (h : upsertManagedBlock existing managedKeys = .ok output) : output ≠ [] := by
  intro hnil
  have hbegin : managedBegin ∈ lines output := by
    rw [(lines_upsert h).2.2]
    exact List.mem_append_right _ List.mem_cons_self
  rw [hnil] at hbegin
  exact absurd hbegin (by decide)

/-- Two calls on one path leave an empty file where the keys were: neither the initial content
nor a complete output of any call. -/
theorem overlapping_calls_truncate : ∃ w,
    Runs.run (step sharedPath daemonAndSync) (start oneUserLine) overlapping = some w ∧
      w.disk.read sharedPath = some [] ∧ oneUserLine.read sharedPath ≠ w.disk.read sharedPath ∧
      ∀ caller existing output, upsertManagedBlock existing (daemonAndSync caller) = .ok output →
        some (utf8 output) ≠ w.disk.read sharedPath := by
  have hruns : (Runs.run (step sharedPath daemonAndSync) (start oneUserLine) overlapping).map
      (·.disk.read sharedPath) = some (some []) := by decide +kernel
  obtain ⟨w, hw, hread⟩ := Option.map_eq_some_iff.mp hruns
  refine ⟨w, hw, hread, ?_, ?_⟩
  · rw [hread]
    decide +kernel
  · intro caller existing output houtput hempty
    rw [hread] at hempty
    exact upsertManagedBlock_ne_nil houtput (utf8_inj (Option.some.inj hempty))

end SshKeySync.AuthorizedKeys
