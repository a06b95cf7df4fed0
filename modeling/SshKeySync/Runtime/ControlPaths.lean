import SshKeySync.Config.FixedPoint
import SshKeySync.Runtime.EnvelopeCodec
import SshKeySync.Std.Path

/-! The control files of a group. The SID becomes a directory name through a map that keeps
letters, digits, `-`, `_` and `.` and blurs every other character to `_`. -/
namespace SshKeySync.Runtime
open RustStd Config

def controlRootDir : Str := "ssh-key-sync".toList
def pidFileName : Str := "daemon.pid".toList
def stopFileName : Str := "daemon.stop".toList
def logFileName : Str := "daemon.log".toList
def currentSidFileName : Str := "current_sid".toList

def Kept (ch : Char) : Prop := ch.isAlphanum ∨ ch = '-' ∨ ch = '_' ∨ ch = '.'

instance (ch : Char) : Decidable (Kept ch) := inferInstanceAs (Decidable (_ ∨ _))

def sanitizeForFile (value : Str) : Str := value.map fun ch => if Kept ch then ch else '_'

/-- A variable that is blank counts as unset. -/
def nonBlank (value : Option Str) : Option Str := value.filter fun path => trim path ≠ []

def controlRuntimeRootWithEnv (xdgRuntimeDir home : Option Str) : Except RuntimeError Str :=
  match nonBlank xdgRuntimeDir, nonBlank home with
  | some path, _ => .ok (joinPath path controlRootDir)
  | none, some path =>
    .ok (joinPath (joinPath (joinPath path ".local".toList) "run".toList) controlRootDir)
  | none, none => .error .missingHomeDir

section
variable (root sid : Str)

def controlRuntimeDirPathForSid : Str := joinPath root (sanitizeForFile sid)
def pidFilePath : Str := joinPath (controlRuntimeDirPathForSid root sid) pidFileName
def stopFilePath : Str := joinPath (controlRuntimeDirPathForSid root sid) stopFileName
def logFilePath : Str := joinPath (controlRuntimeDirPathForSid root sid) logFileName
def currentSidMarkerPath : Str := joinPath root currentSidFileName

def DirectChild (path : Str) : Prop := ∃ name, components path = components root ++ [.normal name]

/-- The files of two groups are different, and each group's directory is its own. -/
structure ControlFilesApart (sid' : Str) : Prop where
  pid : components (pidFilePath root sid) ≠ components (pidFilePath root sid')
  stop : components (stopFilePath root sid) ≠ components (stopFilePath root sid')
  log : components (logFilePath root sid) ≠ components (logFilePath root sid')
  child : DirectChild root (controlRuntimeDirPathForSid root sid)
  child' : DirectChild root (controlRuntimeDirPathForSid root sid')
  marker : components (controlRuntimeDirPathForSid root sid) ≠ components (currentSidMarkerPath root)
  marker' : components (controlRuntimeDirPathForSid root sid') ≠ components (currentSidMarkerPath root)

end

/-- Characters that stand for `_` in a directory name. -/
def Blurred (ch : Char) : Prop := ch = '_' ∨ ¬ Kept ch

instance (ch : Char) : Decidable (Blurred ch) := inferInstanceAs (Decidable (_ ∨ _))

def Collide (s s' : Str) : Prop := List.Forall₂ (fun ch ch' => ch = ch' ∨ Blurred ch ∧ Blurred ch') s s'

/-- A SID that is a directory of its own. -/
structure OwnDirectory (sid : Str) : Prop where
  dot : sid ≠ ['.']
  dots : sid ≠ ['.', '.']
  marker : ¬ Collide sid currentSidFileName

variable {root sid sid' : Str}

private theorem sanitizeChar_eq_iff {ch ch' : Char} :
    (if Kept ch then ch else '_') = (if Kept ch' then ch' else '_') ↔ ch = ch' ∨ Blurred ch ∧ Blurred ch' := by
  have hunderscore : Kept '_' := by decide
  by_cases h : Kept ch
  · by_cases h' : Kept ch'
    · simp only [h, h', if_true, Blurred, not_true_eq_false, or_false]
      exact ⟨Or.inl, fun hc => hc.elim id fun hb => hb.1.trans hb.2.symm⟩
    · simp only [h, h', if_true, if_false, Blurred, not_true_eq_false, not_false_eq_true, or_false, or_true,
        and_true]
      exact ⟨Or.inr, fun hc => hc.elim (fun he => absurd (he ▸ h) h') id⟩
  · by_cases h' : Kept ch'
    · simp only [h, h', if_true, if_false, Blurred, not_true_eq_false, not_false_eq_true, or_false, or_true,
        true_and]
      exact ⟨fun hc => Or.inr hc.symm, fun hc => hc.elim (fun he => absurd (he ▸ h') h) Eq.symm⟩
    · exact iff_of_true (by rw [if_neg h, if_neg h']) (Or.inr ⟨Or.inr h, Or.inr h'⟩)

private theorem sanitizeForFile_eq_iff {s s' : Str} : sanitizeForFile s = sanitizeForFile s' ↔ Collide s s' := by
  induction s generalizing s' with
  | nil => cases s' <;> simp [sanitizeForFile, Collide]
  | cons ch s ih =>
    cases s' with
    | nil => simp [sanitizeForFile, Collide]
    | cons ch' s' =>
      have hcons (c : Char) (t : Str) :
        sanitizeForFile (c :: t) = (if Kept c then c else '_') :: sanitizeForFile t := rfl
      rw [hcons, hcons, List.cons_eq_cons, sanitizeChar_eq_iff, ih, Collide, Collide, List.forall₂_cons]

instance (s s' : Str) : Decidable (Collide s s') := decidable_of_iff _ sanitizeForFile_eq_iff

private theorem separator_not_mem_sanitizeForFile (s : Str) : '/' ∉ sanitizeForFile s := by
  intro h
  obtain ⟨ch, -, hch⟩ := List.mem_map.mp h
  have hslash : ¬ Kept '/' := by decide
  split at hch
  · rename_i hkept
    exact hslash (hch ▸ hkept)
  · exact absurd hch (by decide)

private theorem sanitizeForFile_ne_nil {s : Str} (hs : s ≠ []) : sanitizeForFile s ≠ [] := by
  rwa [sanitizeForFile, ne_eq, List.map_eq_nil_iff]

private theorem sanitizeForFile_eq_dots {s : Str} (n : Nat) :
    sanitizeForFile s = List.replicate n '.' ↔ s = List.replicate n '.' := by
  have hdot (ch : Char) : (if Kept ch then ch else '_') = '.' ↔ ch = '.' := by
    have hkept : (if Kept '.' then '.' else '_') = '.' := if_pos (by decide)
    have hblurred : ¬ Blurred '.' := by decide
    conv_lhs => rw [← hkept]
    rw [sanitizeChar_eq_iff]
    exact ⟨fun h => h.resolve_right fun hb => hblurred hb.2, Or.inl⟩
  rw [sanitizeForFile, List.eq_replicate_iff, List.eq_replicate_iff, List.length_map, List.forall_mem_map]
  exact and_congr_right fun _ => forall₂_congr fun ch _ => hdot ch

private theorem root_ne_nil {xdgRuntimeDir home : Option Str}
    (hroot : controlRuntimeRootWithEnv xdgRuntimeDir home = .ok root) : root ≠ [] := by
  rw [controlRuntimeRootWithEnv] at hroot
  split at hroot
  · cases hroot
    exact joinPath_ne_nil _ (by decide)
  · cases hroot
    exact joinPath_ne_nil _ (by decide)
  · cases hroot

private theorem toList_inj {a b : Option Component} : a.toList = b.toList ↔ a = b := by
  cases a <;> cases b <;> simp

section
variable (hroot : root ≠ [])
include hroot

private theorem components_sidDir (sid : Str) : components (controlRuntimeDirPathForSid root sid) =
    components root ++ (Component.ofPiece (sanitizeForFile sid)).toList :=
  components_joinPath hroot (separator_not_mem_sanitizeForFile sid)

private theorem components_file_eq_iff (hsid : sid ≠ []) (hsid' : sid' ≠ []) {name : Str} (hname : '/' ∉ name) :
    components (joinPath (controlRuntimeDirPathForSid root sid) name) =
      components (joinPath (controlRuntimeDirPathForSid root sid') name) ↔ Collide sid sid' := by
  have hne {s : Str} (hs : s ≠ []) : controlRuntimeDirPathForSid root s ≠ [] :=
    joinPath_ne_nil root (sanitizeForFile_ne_nil hs)
  rw [components_joinPath (hne hsid) hname, components_joinPath (hne hsid') hname, components_sidDir hroot,
    components_sidDir hroot, List.append_left_inj, List.append_right_inj, toList_inj,
    ofPiece_injective (sanitizeForFile_ne_nil hsid) (sanitizeForFile_ne_nil hsid'), sanitizeForFile_eq_iff]

private theorem directChild_iff (hsid : sid ≠ []) :
    DirectChild root (controlRuntimeDirPathForSid root sid) ↔ sid ≠ ['.'] ∧ sid ≠ ['.', '.'] := by
  have hdot : sanitizeForFile sid = ['.'] ↔ sid = ['.'] := sanitizeForFile_eq_dots 1
  have hdots : sanitizeForFile sid = ['.', '.'] ↔ sid = ['.', '.'] := sanitizeForFile_eq_dots 2
  have hne := sanitizeForFile_ne_nil hsid
  simp only [DirectChild, components_sidDir hroot, List.append_right_inj, ne_eq, ← hdot, ← hdots,
    Component.ofPiece]
  split
  · rename_i h
    refine iff_of_false ?_ fun hc => hc.1 (h.resolve_left hne)
    rintro ⟨name, hc⟩
    cases hc
  · rename_i h
    split
    · rename_i h'
      refine iff_of_false ?_ fun hc => hc.2 h'
      rintro ⟨name, hc⟩
      cases hc
    · rename_i h'
      exact iff_of_true ⟨_, rfl⟩ ⟨fun hc => h (Or.inr hc), h'⟩

private theorem components_marker_eq_iff (hsid : sid ≠ []) :
    components (controlRuntimeDirPathForSid root sid) = components (currentSidMarkerPath root) ↔
      Collide sid currentSidFileName := by
  have hmarker : sanitizeForFile currentSidFileName = currentSidFileName := by decide
  have hpath : currentSidMarkerPath root = controlRuntimeDirPathForSid root currentSidFileName := by
    rw [controlRuntimeDirPathForSid, hmarker]
    rfl
  rw [hpath, components_sidDir hroot, components_sidDir hroot, List.append_right_inj, toList_inj,
    ofPiece_injective (sanitizeForFile_ne_nil hsid) (sanitizeForFile_ne_nil (by decide)), sanitizeForFile_eq_iff]

end

/-- The control files of two loaded groups are apart if and only if their SIDs differ in more than
blurred characters and neither is a dot, two dots or the name of the marker file. -/
theorem controlFilesApart_iff {xdgRuntimeDir home : Option Str} {var readFile var' readFile' : Str → Option Str}
    {input input' : ConfigInput} {mode mode' : ConfigMode} {config config' : AppConfig}
    (hroot : controlRuntimeRootWithEnv xdgRuntimeDir home = .ok root)
    (hload : loadConfig var readFile input mode = .ok (some config))
    (hload' : loadConfig var' readFile' input' mode' = .ok (some config')) :
    ControlFilesApart root config.sid config'.sid ↔
      ¬ Collide config.sid config'.sid ∧ OwnDirectory config.sid ∧ OwnDirectory config'.sid := by
  have hr := root_ne_nil hroot
  have hsid := (sid_of_loadConfig hload).2
  have hsid' := (sid_of_loadConfig hload').2
  constructor
  · intro h
    have hchild := (directChild_iff hr hsid).mp h.child
    have hchild' := (directChild_iff hr hsid').mp h.child'
    refine ⟨fun hc => h.pid ((components_file_eq_iff hr hsid hsid' (by decide)).mpr hc), ?_, ?_⟩
    · exact ⟨hchild.1, hchild.2, fun hc => h.marker ((components_marker_eq_iff hr hsid).mpr hc)⟩
    · exact ⟨hchild'.1, hchild'.2, fun hc => h.marker' ((components_marker_eq_iff hr hsid').mpr hc)⟩
  · rintro ⟨hcollide, hown, hown'⟩
    have hfile {name : Str} (hname : '/' ∉ name) :
        components (joinPath (controlRuntimeDirPathForSid root config.sid) name) ≠
          components (joinPath (controlRuntimeDirPathForSid root config'.sid) name) :=
      fun h => hcollide ((components_file_eq_iff hr hsid hsid' hname).mp h)
    exact {
      pid := hfile (by decide)
      stop := hfile (by decide)
      log := hfile (by decide)
      child := (directChild_iff hr hsid).mpr ⟨hown.dot, hown.dots⟩
      child' := (directChild_iff hr hsid').mpr ⟨hown'.dot, hown'.dots⟩
      marker := fun h => hown.marker ((components_marker_eq_iff hr hsid).mp h)
      marker' := fun h => hown'.marker ((components_marker_eq_iff hr hsid').mp h) }

private def sidInput (sid : Str) : ConfigInput :=
  { sid := some sid, sidToken := some "secret-token".toList }

private def rootA : Str := "/run/user/1000/ssh-key-sync".toList

/-- Two groups that are named by letters and a hyphen. -/
theorem controlFilesApart_letters : ControlFilesApart rootA "group-a".toList "group-b".toList := by
  obtain ⟨config, hload, hsid⟩ : ∃ config, loadConfig (fun _ => none) (fun _ => none)
    (sidInput "group-a".toList) .requireSyncConfig = .ok (some config) ∧ config.sid = "group-a".toList :=
    ⟨_, rfl, rfl⟩
  obtain ⟨config', hload', hsid'⟩ : ∃ config, loadConfig (fun _ => none) (fun _ => none)
    (sidInput "group-b".toList) .requireSyncConfig = .ok (some config) ∧ config.sid = "group-b".toList :=
    ⟨_, rfl, rfl⟩
  have hroot : controlRuntimeRootWithEnv (some "/run/user/1000".toList) none = .ok rootA := rfl
  rw [← hsid, ← hsid']
  refine (controlFilesApart_iff hroot hload hload').mpr ?_
  rw [hsid, hsid']
  exact ⟨by decide, ⟨by decide, by decide, by decide⟩, ⟨by decide, by decide, by decide⟩⟩

/-- A blank and an underscore name the same files, two dots name the directory above the root. -/
theorem control_files_of_two_groups_meet : ∃ config config' config'',
    controlRuntimeRootWithEnv (some "/run/user/1000".toList) none = .ok rootA ∧
    loadConfig (fun _ => none) (fun _ => none) (sidInput "team a".toList) .requireSyncConfig = .ok (some config) ∧
    loadConfig (fun _ => none) (fun _ => none) (sidInput "team_a".toList) .requireSyncConfig = .ok (some config') ∧
    loadConfig (fun _ => none) (fun _ => none) (sidInput "..".toList) .requireSyncConfig = .ok (some config'') ∧
    config.sid ≠ config'.sid ∧ pidFilePath rootA config.sid = pidFilePath rootA config'.sid ∧
    stopFilePath rootA config.sid = stopFilePath rootA config'.sid ∧
    ¬ DirectChild rootA (controlRuntimeDirPathForSid rootA config''.sid) := by
  refine ⟨_, _, _, rfl, rfl, rfl, rfl, by decide, by decide, by decide, ?_⟩
  rintro ⟨name, h⟩
  have happend : components rootA ++ [.parentDir] = components rootA ++ [.normal name] := h
  cases List.append_cancel_left happend

end SshKeySync.Runtime
