import SshKeySync.Config.Load

/-! Which source supplies a field. The fields are first resolved and then checked; the
resolution of texts stops at the first source that mentions them, that of numbers and flags
at the first one that parses. -/
namespace SshKeySync.Config
open RustStd

/-- What the sources give for each field, before defaults and checks. -/
structure Resolved where
  sid : Option Str
  sidToken : Option Str
  syncIntervalSecs : Option UInt64
  participantId : Option Str
  httpListenAddr : Option Str
  udpAnnounceAddr : Option Str
  bootstrapPeers : Option Str
  publicKeyPath : Option Str
  authorizedKeysPath : Option Str
  tlsCertPath : Option Str
  tlsKeyPath : Option Str
  tlsCaPath : Option Str
  tlsServerName : Option Str
  insecureNoTls : Bool
  dryRun : Bool

/-- A field: its keys in the environment and in the file, whether the command line gives it, and
the texts its resolver takes. -/
structure Setting where
  envKey : Str
  fileKey : Str
  given : ConfigInput → Bool
  parses : Str → Bool

def envName (fileKey : String) : Str := ("SSH_KEY_SYNC_" ++ fileKey).toList

def textSetting (fileKey : String) (arg : ConfigInput → Option Str) : Setting :=
  ⟨envName fileKey, fileKey.toList, fun input => (arg input).isSome, fun _ => true⟩

def syncIntervalSetting : Setting :=
  ⟨envName "SYNC_INTERVAL_SECS", "SYNC_INTERVAL_SECS".toList, fun input => input.syncIntervalSecs.isSome,
    fun value => (parseU64 value).isSome⟩

def flagSetting (fileKey : String) (arg : ConfigInput → Bool) : Setting :=
  ⟨envName fileKey, fileKey.toList, arg, fun value => (parseBool value).isSome⟩

def textSettings : List Setting :=
  [textSetting "SID" (·.sid), textSetting "SID_TOKEN" (·.sidToken),
    textSetting "PARTICIPANT_ID" (·.participantId), textSetting "HTTP_LISTEN_ADDR" (·.httpListenAddr),
    textSetting "UDP_ANNOUNCE_ADDR" (·.udpAnnounceAddr), textSetting "BOOTSTRAP_PEERS" (·.bootstrapPeers),
    textSetting "PUBLIC_KEY_PATH" (·.publicKeyPath), textSetting "AUTHORIZED_KEYS_PATH" (·.authorizedKeysPath),
    textSetting "TLS_CERT_PATH" (·.tlsCertPath), textSetting "TLS_KEY_PATH" (·.tlsKeyPath),
    textSetting "TLS_CA_PATH" (·.tlsCaPath), textSetting "TLS_SERVER_NAME" (·.tlsServerName)]

def flagSettings : List Setting :=
  [flagSetting "INSECURE_NO_TLS" (·.insecureNoTls), flagSetting "DRY_RUN" (·.dryRun)]

def settings : List Setting := textSettings ++ syncIntervalSetting :: flagSettings

/-- Command line, environment and file, of which the first value that parses is taken. -/
def resolveFirst {α : Type} (parse : Str → Option α) (arg : Option α) (envValue fileValue : Option Str) : Option α :=
  (arg.or (envValue.bind parse)).or (fileValue.bind parse)

section
variable (input : ConfigInput) (envData fileData : HashMap Str Str)

def resolveText (fileKey : String) (arg : Option Str) : Option Str :=
  resolveFirst some arg (envData.lookup (envName fileKey)) (fileData.lookup fileKey.toList)

def resolveFlag (fileKey : String) (arg : Bool) : Bool :=
  (resolveFirst parseBool (if arg then some true else none) (envData.lookup (envName fileKey))
    (fileData.lookup fileKey.toList)).getD false

def resolveAll : Resolved where
  sid := resolveText envData fileData "SID" input.sid
  sidToken := resolveText envData fileData "SID_TOKEN" input.sidToken
  syncIntervalSecs := resolveFirst parseU64 input.syncIntervalSecs (envData.lookup (envName "SYNC_INTERVAL_SECS"))
    (fileData.lookup "SYNC_INTERVAL_SECS".toList)
  participantId := (resolveText envData fileData "PARTICIPANT_ID" input.participantId).or
    (envData.lookup "HOSTNAME".toList)
  httpListenAddr := resolveText envData fileData "HTTP_LISTEN_ADDR" input.httpListenAddr
  udpAnnounceAddr := resolveText envData fileData "UDP_ANNOUNCE_ADDR" input.udpAnnounceAddr
  bootstrapPeers := resolveText envData fileData "BOOTSTRAP_PEERS" input.bootstrapPeers
  publicKeyPath := resolveText envData fileData "PUBLIC_KEY_PATH" input.publicKeyPath
  authorizedKeysPath := resolveText envData fileData "AUTHORIZED_KEYS_PATH" input.authorizedKeysPath
  tlsCertPath := resolveText envData fileData "TLS_CERT_PATH" input.tlsCertPath
  tlsKeyPath := resolveText envData fileData "TLS_KEY_PATH" input.tlsKeyPath
  tlsCaPath := resolveText envData fileData "TLS_CA_PATH" input.tlsCaPath
  tlsServerName := resolveText envData fileData "TLS_SERVER_NAME" input.tlsServerName
  insecureNoTls := resolveFlag envData fileData "INSECURE_NO_TLS" input.insecureNoTls
  dryRun := resolveFlag envData fileData "DRY_RUN" input.dryRun

end

namespace Resolved
variable (r : Resolved)

def config (sid sidToken : Str) : AppConfig where
  sid := sid
  sidToken := sidToken
  participantId := r.participantId.getD "unknown-participant".toList
  httpListenAddr := r.httpListenAddr.getD defaultHttpListenAddr
  udpAnnounceAddr := r.udpAnnounceAddr.getD defaultUdpAnnounceAddr
  bootstrapPeers := (r.bootstrapPeers.map parseCsv).getD []
  syncIntervalSecs := r.syncIntervalSecs.getD defaultSyncIntervalSecs
  publicKeyPath := r.publicKeyPath.getD defaultPublicKeyPath
  authorizedKeysPath := r.authorizedKeysPath.getD defaultAuthorizedKeysPath
  tlsCertPath := r.tlsCertPath
  tlsKeyPath := r.tlsKeyPath
  tlsCaPath := r.tlsCaPath
  tlsServerName := r.tlsServerName
  insecureNoTls := r.insecureNoTls
  dryRun := r.dryRun

def load (mode : ConfigMode) : Except ConfigError (Option AppConfig) :=
  if mode = .allowMissing ∧ r.sid = none ∧ r.sidToken = none then .ok none
  else do
    let sid ← okOr r.sid .missingSid
    let sid ← okOr (normalizeNonEmpty sid) .invalidSid
    let sidToken ← okOr r.sidToken .missingSidToken
    let sidToken ← okOr (normalizeNonEmpty sidToken) .invalidSidToken
    if r.syncIntervalSecs.getD defaultSyncIntervalSecs = 0 then .error .invalidSyncInterval
    else .ok (some (r.config sid sidToken))

end Resolved

private theorem resolveBool_eq (envKey : Str) (envData fileData : HashMap Str Str) (fileKey : Str) (arg : Bool) :
    resolveBool envKey envData fileData fileKey arg = (resolveFirst parseBool (if arg then some true else none)
      (envData.lookup envKey) (fileData.lookup fileKey)).getD false := by
  cases arg <;> rfl

/-- A text is resolved as any value is, and always parses. -/
theorem resolveString_eq (envKey : Str) (envData fileData : HashMap Str Str) (fileKey : Str) (arg : Option Str) :
    resolveString envKey envData fileData fileKey arg =
      resolveFirst some arg (envData.lookup envKey) (fileData.lookup fileKey) := by
  rw [resolveString, resolveFirst, Option.bind_fun_some, Option.bind_fun_some]

/-- Loading resolves every field and then checks. -/
theorem loadConfigWithSources_eq (readFile : Str → Option Str) (input : ConfigInput) (mode : ConfigMode)
    (envData : HashMap Str Str) : loadConfigWithSources readFile input mode envData =
      (readConfigFile readFile input.configPath >>= fun fileData =>
        (resolveAll input envData fileData).load mode) := by
  unfold loadConfigWithSources
  simp only [resolveString_eq, resolveBool_eq, resolveAll, resolveText, resolveFlag, envName, String.reduceAppend]
  rfl

namespace Setting
variable (s : Setting) (input : ConfigInput) (envData : HashMap Str Str)

def Mentioned : Prop := s.given input ∨ (envData.lookup s.envKey).isSome

/-- The environment mentions the field with a text that its resolver passes over. -/
def FallsThrough : Prop :=
  s.given input = false ∧ ∃ value, envData.lookup s.envKey = some value ∧ s.parses value = false

end Setting

/-- Two files that differ only in fields which a source above them mentions. -/
def FilesDifferBelow (input : ConfigInput) (envData fileData fileData' : HashMap Str Str) : Prop :=
  ∀ key, fileData.lookup key ≠ fileData'.lookup key → ∃ s ∈ settings, s.fileKey = key ∧ s.Mentioned input envData

/-- Two environments that differ only in fields which the command line gives. The host's name stands in
for the participant. -/
def EnvsDifferBelow (input : ConfigInput) (envData envData' : HashMap Str Str) : Prop :=
  ∀ variable', envData.lookup variable' ≠ envData'.lookup variable' →
    (∃ s ∈ settings, s.envKey = variable' ∧ s.given input) ∨
      variable' = "HOSTNAME".toList ∧ input.participantId.isSome

private theorem nodup_fileKeys : (settings.map Setting.fileKey).Nodup := by decide

private theorem envKeys_eq :
    settings.map Setting.envKey = (settings.map Setting.fileKey).map ("SSH_KEY_SYNC_".toList ++ ·) := by
  simp only [settings, textSettings, flagSettings, textSetting, syncIntervalSetting, flagSetting, envName,
    String.toList_append, List.cons_append, List.nil_append, List.map_cons, List.map_nil]

private theorem nodup_envKeys : (settings.map Setting.envKey).Nodup := by
  rw [envKeys_eq]
  exact nodup_fileKeys.map (List.append_right_injective _)

private theorem hostname_not_mem : "HOSTNAME".toList ∉ settings.map Setting.envKey := by
  rw [envKeys_eq]
  intro h
  obtain ⟨fileKey, -, heq⟩ := List.mem_map.mp h
  cases heq

private theorem resolveFirst_congr {α : Type} {parse : Str → Option α} {arg : Option α}
    {envValue fileValue fileValue' : Option Str}
    (h : arg.isSome ∨ (∃ value, envValue = some value ∧ (parse value).isSome) ∨ fileValue = fileValue') :
    resolveFirst parse arg envValue fileValue = resolveFirst parse arg envValue fileValue' := by
  rw [resolveFirst, resolveFirst]
  rcases h with h | ⟨value, rfl, h⟩ | rfl
  · obtain ⟨a, rfl⟩ := Option.isSome_iff_exists.mp h
    rfl
  · obtain ⟨a, ha⟩ := Option.isSome_iff_exists.mp h
    rw [Option.bind_some, ha]
    cases arg <;> rfl
  · rfl

private theorem resolveFirst_of_isSome {α : Type} {parse : Str → Option α} {arg : Option α}
    {envValue fileValue : Option Str} (h : arg.isSome) : resolveFirst parse arg envValue fileValue = arg := by
  obtain ⟨a, rfl⟩ := Option.isSome_iff_exists.mp h
  rfl

private theorem resolveFirst_of_file {α : Type} {parse : Str → Option α} {arg : Option α}
    {envValue fileValue : Option Str} (harg : arg = none) (henv : envValue.bind parse = none) :
    resolveFirst parse arg envValue fileValue = fileValue.bind parse := by
  rw [resolveFirst, harg, henv]
  rfl

section
variable {input : ConfigInput} {envData envData' fileData fileData' : HashMap Str Str}

/-- A field that does not fall through is decided above the file, or the files agree on it. -/
theorem decided (hfiles : FilesDifferBelow input envData fileData fileData') {s : Setting} (hs : s ∈ settings)
    (hparse : ¬ s.FallsThrough input envData) :
    s.given input ∨ (∃ value, envData.lookup s.envKey = some value ∧ s.parses value) ∨
      fileData.lookup s.fileKey = fileData'.lookup s.fileKey := by
  by_cases hgiven : s.given input = true
  · exact Or.inl hgiven
  · cases henv : envData.lookup s.envKey with
    | some value =>
      refine Or.inr (Or.inl ⟨value, rfl, ?_⟩)
      by_contra hvalue
      exact hparse ⟨Bool.not_eq_true _ ▸ hgiven, value, henv, Bool.not_eq_true _ ▸ hvalue⟩
    | none =>
      refine Or.inr (Or.inr ?_)
      by_contra hne
      obtain ⟨s', hs', hkey, hmentioned⟩ := hfiles s.fileKey hne
      obtain rfl := List.inj_on_of_nodup_map nodup_fileKeys hs' hs hkey
      rcases hmentioned with h | h
      · exact hgiven h
      · rw [henv] at h
        cases h

private theorem resolveText_congr (hfiles : FilesDifferBelow input envData fileData fileData') {fileKey : String}
    {arg : ConfigInput → Option Str} (hs : textSetting fileKey arg ∈ settings) :
    resolveText envData fileData fileKey (arg input) = resolveText envData fileData' fileKey (arg input) :=
  resolveFirst_congr (decided hfiles hs fun ⟨_, _, _, h⟩ => nomatch h)

private theorem resolveFlag_congr (hfiles : FilesDifferBelow input envData fileData fileData') {fileKey : String}
    {arg : ConfigInput → Bool} (hs : flagSetting fileKey arg ∈ settings)
    (hparse : ¬ (flagSetting fileKey arg).FallsThrough input envData) :
    resolveFlag envData fileData fileKey (arg input) = resolveFlag envData fileData' fileKey (arg input) := by
  refine congrArg (Option.getD · false) (resolveFirst_congr ?_)
  refine (decided hfiles hs hparse).imp_left fun hgiven => ?_
  rw [show arg input = true from hgiven]
  rfl

/-- The files show at most in the fields whose resolver passes over a text. -/
theorem resolveAll_of_files (hfiles : FilesDifferBelow input envData fileData fileData') :
    resolveAll input envData fileData' = { resolveAll input envData fileData with
      syncIntervalSecs := (resolveAll input envData fileData').syncIntervalSecs
      insecureNoTls := (resolveAll input envData fileData').insecureNoTls
      dryRun := (resolveAll input envData fileData').dryRun } := by
  have htext {fileKey : String} {arg : ConfigInput → Option Str} (hs : textSetting fileKey arg ∈ textSettings) :
      resolveText envData fileData' fileKey (arg input) = resolveText envData fileData fileKey (arg input) :=
    (resolveText_congr hfiles (List.mem_append_left _ hs)).symm
  simp only [resolveAll, Resolved.mk.injEq, and_true, true_and]
  refine ⟨htext ?_, htext ?_, congrArg (Option.or · _) (htext ?_), htext ?_, htext ?_, htext ?_, htext ?_,
    htext ?_, htext ?_, htext ?_, htext ?_, htext ?_⟩ <;> simp [textSettings]

private theorem given_or_eq (henvs : EnvsDifferBelow input envData envData') {s : Setting} (hs : s ∈ settings) :
    s.given input ∨ envData.lookup s.envKey = envData'.lookup s.envKey := by
  by_contra h
  obtain ⟨hgiven, hne⟩ := not_or.mp h
  rcases henvs s.envKey hne with ⟨s', hs', hkey, hgiven'⟩ | ⟨hkey, -⟩
  · obtain rfl := List.inj_on_of_nodup_map nodup_envKeys hs' hs hkey
    exact hgiven hgiven'
  · exact hostname_not_mem (hkey ▸ List.mem_map_of_mem hs)

private theorem hostname_given_or_eq (henvs : EnvsDifferBelow input envData envData') :
    input.participantId.isSome ∨ envData.lookup "HOSTNAME".toList = envData'.lookup "HOSTNAME".toList := by
  by_contra h
  obtain ⟨hgiven, hne⟩ := not_or.mp h
  rcases henvs _ hne with ⟨s, hs, hkey, -⟩ | ⟨-, hgiven'⟩
  · exact hostname_not_mem (hkey ▸ List.mem_map_of_mem hs)
  · exact hgiven hgiven'

/-- A field that the command line gives hides the environment, and the environments agree on the rest. -/
theorem resolveAll_of_envs (henvs : EnvsDifferBelow input envData envData') :
    resolveAll input envData fileData = resolveAll input envData' fileData := by
  have htext {fileKey : String} {arg : ConfigInput → Option Str} (hs : textSetting fileKey arg ∈ settings) :
      resolveText envData fileData fileKey (arg input) = resolveText envData' fileData fileKey (arg input) := by
    rcases given_or_eq henvs hs with hgiven | heq
    · rw [resolveText, resolveText, resolveFirst_of_isSome hgiven, resolveFirst_of_isSome hgiven]
    · exact congrArg (resolveFirst some (arg input) · _) heq
  have hflag {fileKey : String} {arg : ConfigInput → Bool} (hs : flagSetting fileKey arg ∈ settings) :
      resolveFlag envData fileData fileKey (arg input) = resolveFlag envData' fileData fileKey (arg input) := by
    rcases given_or_eq henvs hs with hgiven | heq
    · rw [resolveFlag, resolveFlag, show arg input = true from hgiven]
      rfl
    · exact congrArg (fun envValue => (resolveFirst parseBool _ envValue _).getD false) heq
  have hinterval := given_or_eq henvs (s := syncIntervalSetting) (by simp [settings])
  have hparticipant : (resolveText envData fileData "PARTICIPANT_ID" input.participantId).or
      (envData.lookup "HOSTNAME".toList) = (resolveText envData' fileData "PARTICIPANT_ID" input.participantId).or
        (envData'.lookup "HOSTNAME".toList) := by
    rw [htext (by simp [settings, textSettings])]
    rcases hostname_given_or_eq henvs with hgiven | heq
    · rw [resolveText, resolveFirst_of_isSome hgiven, Option.or_of_isSome hgiven, Option.or_of_isSome hgiven]
    · rw [heq]
  rw [resolveAll, resolveAll, Resolved.mk.injEq]
  refine ⟨htext ?_, htext ?_, ?_, hparticipant, htext ?_, htext ?_, htext ?_, htext ?_, htext ?_, htext ?_,
    htext ?_, htext ?_, htext ?_, hflag ?_, hflag ?_⟩
  case refine_3 =>
    rcases hinterval with hgiven | heq
    · rw [resolveFirst_of_isSome hgiven, resolveFirst_of_isSome hgiven]
    · exact congrArg (resolveFirst parseU64 input.syncIntervalSecs · _) heq
  all_goals simp [settings, textSettings, flagSettings]

end

def Blank (value : Option Str) : Prop := ∃ s, value = some s ∧ trim s = []

private theorem normalizeNonEmpty_of_blank {s : Str} (h : trim s = []) : normalizeNonEmpty s = none := if_pos h

namespace Resolved
variable {r r' : Resolved} {mode : ConfigMode}

/-- Fields after the first failed check do not show. -/
theorem load_congr (hsid : r.sid = r'.sid) (htoken : r.sidToken = r'.sidToken)
    (h : Blank r.sid ∨ Blank r.sidToken ∨ r.syncIntervalSecs = r'.syncIntervalSecs ∧
      (r.syncIntervalSecs.getD defaultSyncIntervalSecs = 0 ∨ r = r')) : r.load mode = r'.load mode := by
  rw [load, load, ← hsid, ← htoken]
  split
  · rfl
  · rcases h with ⟨s, hs, hblank⟩ | ⟨s, hs, hblank⟩ | ⟨hinterval, hzero | rfl⟩
    · rw [hs, okOr_some, ok_bind, ok_bind, normalizeNonEmpty_of_blank hblank]
      rfl
    · simp only [hs, okOr_some, ok_bind, normalizeNonEmpty_of_blank hblank, okOr_none, error_bind]
    · simp only [← hinterval, hzero, if_true]
    · rfl

/-- What is loaded when every check passes. -/
theorem load_eq {s t sid token : Str} (hs : r.sid = some s) (hsid : normalizeNonEmpty s = some sid)
    (ht : r.sidToken = some t) (htoken : normalizeNonEmpty t = some token)
    (hinterval : r.syncIntervalSecs.getD defaultSyncIntervalSecs ≠ 0) :
    r.load mode = .ok (some (r.config sid token)) := by
  rw [load, if_neg fun h => by simp [hs] at h, hs, ht]
  simp only [okOr_some, ok_bind, hsid, htoken, if_neg hinterval]

end Resolved

def pinnedInterval (input : ConfigInput) (envData : HashMap Str Str) : Option UInt64 :=
  input.syncIntervalSecs.or ((envData.lookup (envName "SYNC_INTERVAL_SECS")).bind parseU64)

def BlankGroup (input : ConfigInput) (envData : HashMap Str Str) : Prop :=
  Blank (input.sid.or (envData.lookup (envName "SID"))) ∨
    Blank (input.sidToken.or (envData.lookup (envName "SID_TOKEN")))

/-- The file shows through no field that a source above it mentions: loading fails before such a
field is looked at, or the texts above the file parse. -/
def AboveDecides (input : ConfigInput) (envData : HashMap Str Str) : Prop :=
  BlankGroup input envData ∨ ¬ syncIntervalSetting.FallsThrough input envData ∧
    (pinnedInterval input envData = some 0 ∨ ∀ s ∈ flagSettings, ¬ s.FallsThrough input envData)

section
variable {input : ConfigInput} {envData fileData fileData' : HashMap Str Str}

private theorem resolveText_eq {fileKey : String} {arg : Option Str} : resolveText envData fileData fileKey arg =
    (arg.or (envData.lookup (envName fileKey))).or (fileData.lookup fileKey.toList) := by
  rw [resolveText, resolveFirst, Option.bind_fun_some, Option.bind_fun_some]

private theorem blank_resolveText {fileKey : String} {arg : Option Str}
    (h : Blank (arg.or (envData.lookup (envName fileKey)))) : Blank (resolveText envData fileData fileKey arg) := by
  obtain ⟨s, hs, hblank⟩ := h
  exact ⟨s, by rw [resolveText_eq, hs]; rfl, hblank⟩

private theorem load_of_files (hfiles : FilesDifferBelow input envData fileData fileData')
    (h : AboveDecides input envData) (mode : ConfigMode) :
    (resolveAll input envData fileData).load mode = (resolveAll input envData fileData').load mode := by
  have hall := resolveAll_of_files hfiles
  refine Resolved.load_congr (congrArg Resolved.sid hall).symm (congrArg Resolved.sidToken hall).symm ?_
  rcases h with (hblank | hblank) | ⟨hinterval, hflags⟩
  · exact Or.inl (blank_resolveText hblank)
  · exact Or.inr (Or.inl (blank_resolveText hblank))
  · have hsame : (resolveAll input envData fileData).syncIntervalSecs =
        (resolveAll input envData fileData').syncIntervalSecs :=
      resolveFirst_congr (decided hfiles (by simp [settings]) hinterval)
    refine Or.inr (Or.inr ⟨hsame, hflags.imp (fun hzero => ?_) fun hparse => ?_⟩)
    · rw [resolveAll, resolveFirst, show input.syncIntervalSecs.or _ = some 0 from hzero]
      rfl
    · have hflag {fileKey : String} {arg : ConfigInput → Bool} (hs : flagSetting fileKey arg ∈ flagSettings) :
          resolveFlag envData fileData fileKey (arg input) = resolveFlag envData fileData' fileKey (arg input) :=
        resolveFlag_congr hfiles (by simp [settings, hs]) (hparse _ hs)
      have hinsecure : (resolveAll input envData fileData).insecureNoTls =
          (resolveAll input envData fileData').insecureNoTls := hflag (by simp [flagSettings])
      have hdry : (resolveAll input envData fileData).dryRun = (resolveAll input envData fileData').dryRun :=
        hflag (by simp [flagSettings])
      rw [hall, ← hsame, ← hinsecure, ← hdry]

end

/-- Precedence is absolute: what a lower source gives for a field that a higher one mentions does
not show, between the file and those above it and between the environment and the command line. -/
def Absolute (input : ConfigInput) (mode : ConfigMode) (envData : HashMap Str Str) : Prop :=
  (∀ content content', FilesDifferBelow input envData (parseConfigKeyValues content) (parseConfigKeyValues content') →
    loadConfigWithSources (fun _ => some content) input mode envData =
      loadConfigWithSources (fun _ => some content') input mode envData) ∧
  ∀ (readFile : Str → Option Str) envData', EnvsDifferBelow input envData envData' →
    loadConfigWithSources readFile input mode envData = loadConfigWithSources readFile input mode envData'

section
variable {input : ConfigInput} {mode : ConfigMode} {envData : HashMap Str Str}

private theorem absolute_of_aboveDecides (h : input.configPath = none ∨ AboveDecides input envData) :
    Absolute input mode envData := by
  refine ⟨fun content content' hfiles => ?_, fun readFile envData' henvs => ?_⟩
  · rw [loadConfigWithSources_eq, loadConfigWithSources_eq]
    rcases h with hnone | h
    · rw [hnone]
      rfl
    · cases hpath : input.configPath with
      | none => rfl
      | some path => exact load_of_files hfiles h mode
  · rw [loadConfigWithSources_eq, loadConfigWithSources_eq]
    exact congrArg _ (funext fun fileData => congrArg (Resolved.load · mode) (resolveAll_of_envs henvs))

end

def sample (key value : Str) : Str :=
  Records.render [("SID".toList, "a".toList), ("SID_TOKEN".toList, "b".toList),
    ("SYNC_INTERVAL_SECS".toList, "1".toList), (key, value)]

private def sampleGroup : HashMap Str Str :=
  HashMap.collect [("SID".toList, "a".toList), ("SID_TOKEN".toList, "b".toList),
    ("SYNC_INTERVAL_SECS".toList, "1".toList)]

section
variable {input : ConfigInput} {mode : ConfigMode} {envData : HashMap Str Str} {key value value' : Str}

private theorem parse_sample (h : Records.SafeRow (key, value)) (hcomment : key.head? ≠ some '#') :
    parseConfigKeyValues (sample key value) = sampleGroup.insert key value := by
  rw [sample, parseConfigKeyValues_render]
  · rfl
  · rw [List.forall_mem_cons, List.forall_mem_cons, List.forall_mem_cons, List.forall_mem_singleton]
    exact ⟨by decide, by decide, by decide, h⟩
  · rw [List.forall_mem_cons, List.forall_mem_cons, List.forall_mem_cons, List.forall_mem_singleton]
    exact ⟨by decide, by decide, by decide, hcomment⟩

private theorem filesDifferBelow_insert {s : Setting} (hs : s ∈ settings) (hmentioned : s.Mentioned input envData)
    (fileData : HashMap Str Str) :
    FilesDifferBelow input envData (fileData.insert s.fileKey value) (fileData.insert s.fileKey value') := by
  intro key hne
  refine ⟨s, hs, ?_, hmentioned⟩
  by_contra hkey
  rw [HashMap.lookup_insert, HashMap.lookup_insert, if_neg (Ne.symm hkey), if_neg (Ne.symm hkey)] at hne
  exact hne rfl

private theorem resolveText_of_file {fileData : HashMap Str Str} {fileKey : String} {arg : Option Str} {default : Str}
    (hfile : fileData.lookup fileKey.toList = some default) (hdefault : trim default ≠ [])
    (h : ¬ Blank (arg.or (envData.lookup (envName fileKey)))) :
    ∃ s t, resolveText envData fileData fileKey arg = some s ∧ normalizeNonEmpty s = some t := by
  rw [resolveText_eq, hfile]
  cases habove : arg.or (envData.lookup (envName fileKey)) with
  | none => exact ⟨default, _, rfl, if_neg hdefault⟩
  | some s => exact ⟨s, _, rfl, if_neg fun hblank => h ⟨s, habove, hblank⟩⟩

private theorem load_sample (value : Str) (hgroup : ¬ BlankGroup input envData) (hsid : "SID".toList ≠ key)
    (htoken : "SID_TOKEN".toList ≠ key)
    (hinterval : (resolveAll input envData (sampleGroup.insert key value)).syncIntervalSecs.getD
      defaultSyncIntervalSecs ≠ 0) :
    ∃ sid token, (resolveAll input envData (sampleGroup.insert key value)).load mode =
      .ok (some ((resolveAll input envData (sampleGroup.insert key value)).config sid token)) := by
  obtain ⟨hs, ht⟩ := not_or.mp hgroup
  have hfileSid : (sampleGroup.insert key value).lookup "SID".toList = some "a".toList := by
    rw [HashMap.lookup_insert, if_neg hsid]
    decide
  have hfileToken : (sampleGroup.insert key value).lookup "SID_TOKEN".toList = some "b".toList := by
    rw [HashMap.lookup_insert, if_neg htoken]
    decide
  obtain ⟨s, sid, hs, hsid⟩ := resolveText_of_file hfileSid (by decide) hs
  obtain ⟨t, token, ht, htoken⟩ := resolveText_of_file hfileToken (by decide) ht
  exact ⟨sid, token, Resolved.load_eq hs hsid ht htoken hinterval⟩

private theorem plain_fileKey : ∀ s ∈ settings,
    (Records.WireSafe s.fileKey ∧ '=' ∉ s.fileKey) ∧ s.fileKey.head? ≠ some '#' := by
  decide

private theorem load_samples {s : Setting} (habsolute : Absolute input mode envData) (hpath : input.configPath ≠ none)
    (hs : s ∈ settings) (h : s.FallsThrough input envData) (value value' : Str) (hvalue : Records.WireSafe value)
    (hvalue' : Records.WireSafe value') :
    (resolveAll input envData (sampleGroup.insert s.fileKey value)).load mode =
      (resolveAll input envData (sampleGroup.insert s.fileKey value')).load mode := by
  obtain ⟨path, hpath⟩ := Option.ne_none_iff_exists'.mp hpath
  obtain ⟨hkey, hcomment⟩ := plain_fileKey s hs
  have hmentioned : s.Mentioned input envData := by
    obtain ⟨-, text, htext, -⟩ := h
    exact Or.inr (htext ▸ rfl)
  have hload := habsolute.1 (sample s.fileKey value) (sample s.fileKey value')
  rw [parse_sample (Records.safeRow hkey hvalue) hcomment, parse_sample (Records.safeRow hkey hvalue') hcomment,
    loadConfigWithSources_eq, loadConfigWithSources_eq, hpath] at hload
  simp only [readConfigFile, okOr_some, ok_bind, parse_sample (Records.safeRow hkey hvalue) hcomment,
    parse_sample (Records.safeRow hkey hvalue') hcomment] at hload
  exact hload (filesDifferBelow_insert hs hmentioned sampleGroup)

private theorem samples_agree {s : Setting} (habsolute : Absolute input mode envData)
    (hpath : input.configPath ≠ none) (hgroup : ¬ BlankGroup input envData) (hs : s ∈ settings)
    (h : s.FallsThrough input envData)
    (hsid : "SID".toList ≠ s.fileKey) (htoken : "SID_TOKEN".toList ≠ s.fileKey) {value value' : Str}
    (hvalue : Records.WireSafe value) (hvalue' : Records.WireSafe value')
    (hinterval : ∀ text ∈ [value, value'], (resolveAll input envData
      (sampleGroup.insert s.fileKey text)).syncIntervalSecs.getD defaultSyncIntervalSecs ≠ 0) :
    ∃ sid token sid' token', (resolveAll input envData (sampleGroup.insert s.fileKey value)).config sid token =
      (resolveAll input envData (sampleGroup.insert s.fileKey value')).config sid' token' := by
  have hload := load_samples habsolute hpath hs h value value' hvalue hvalue'
  obtain ⟨sid, token, hfirst⟩ := load_sample value hgroup hsid htoken (hinterval value (by simp))
  obtain ⟨sid', token', hsecond⟩ := load_sample value' hgroup hsid htoken (hinterval value' (by simp))
  rw [hfirst, hsecond] at hload
  exact ⟨sid, token, sid', token', Option.some.inj (Except.ok.inj hload)⟩

private theorem interval_shows {fileData : HashMap Str Str} (h : syncIntervalSetting.FallsThrough input envData) :
    (resolveAll input envData fileData).syncIntervalSecs =
      (fileData.lookup "SYNC_INTERVAL_SECS".toList).bind parseU64 := by
  obtain ⟨hgiven, text, htext, hparse⟩ := h
  refine resolveFirst_of_file (by simpa [syncIntervalSetting] using hgiven) ?_
  rw [show envData.lookup (envName "SYNC_INTERVAL_SECS") = some text from htext]
  simpa [syncIntervalSetting] using hparse

private theorem flag_shows {fileData : HashMap Str Str} {fileKey : String} {arg : ConfigInput → Bool}
    (h : (flagSetting fileKey arg).FallsThrough input envData) :
    resolveFlag envData fileData fileKey (arg input) =
      ((fileData.lookup fileKey.toList).bind parseBool).getD false := by
  obtain ⟨hgiven, text, htext, hparse⟩ := h
  rw [resolveFlag, show arg input = false from hgiven, if_neg Bool.false_ne_true, resolveFirst_of_file rfl]
  rw [show envData.lookup (envName fileKey) = some text from htext]
  simpa [flagSetting] using hparse

private theorem interval_sampled (h : pinnedInterval input envData ≠ some 0) {fileData : HashMap Str Str}
    (hfile : fileData.lookup "SYNC_INTERVAL_SECS".toList = some "1".toList) :
    (resolveAll input envData fileData).syncIntervalSecs.getD defaultSyncIntervalSecs ≠ 0 := by
  have heq : (resolveAll input envData fileData).syncIntervalSecs =
      (pinnedInterval input envData).or ((fileData.lookup "SYNC_INTERVAL_SECS".toList).bind parseU64) := rfl
  rw [heq, hfile]
  cases hpinned : pinnedInterval input envData with
  | none => decide
  | some interval => exact fun hzero => h (hpinned.trans (congrArg some hzero))

private theorem interval_differs (habsolute : Absolute input mode envData) (hpath : input.configPath ≠ none)
    (hgroup : ¬ BlankGroup input envData) : ¬ syncIntervalSetting.FallsThrough input envData := by
  intro h
  have hshows (value : Str) : (resolveAll input envData
      (sampleGroup.insert syncIntervalSetting.fileKey value)).syncIntervalSecs = parseU64 value := by
    rw [interval_shows h, show "SYNC_INTERVAL_SECS".toList = syncIntervalSetting.fileKey from rfl,
      AList.lookup_insert]
    rfl
  have hpositive : ∀ text ∈ ["1".toList, "2".toList], (resolveAll input envData
      (sampleGroup.insert syncIntervalSetting.fileKey text)).syncIntervalSecs.getD defaultSyncIntervalSecs ≠ 0 := by
    simp only [hshows]
    decide
  obtain ⟨sid, token, sid', token', hconfig⟩ := samples_agree habsolute hpath hgroup (by simp [settings]) h
    (by decide) (by decide) (by decide) (by decide) hpositive
  have hsame := congrArg AppConfig.syncIntervalSecs hconfig
  have hdefault (value : Str) := congrArg (Option.getD · defaultSyncIntervalSecs) (hshows value)
  exact absurd ((hdefault _).symm.trans (hsame.trans (hdefault _))) (by decide)

private theorem flag_differs (habsolute : Absolute input mode envData) (hpath : input.configPath ≠ none)
    (hgroup : ¬ BlankGroup input envData) (hinterval : pinnedInterval input envData ≠ some 0) :
    ∀ s ∈ flagSettings, ¬ s.FallsThrough input envData := by
  intro s hs h
  have hmem : s ∈ settings := List.mem_append_right _ (List.mem_cons_of_mem _ hs)
  have hkeys : ∀ s ∈ flagSettings, "SID".toList ≠ s.fileKey ∧ "SID_TOKEN".toList ≠ s.fileKey ∧
      "SYNC_INTERVAL_SECS".toList ≠ s.fileKey := by decide
  obtain ⟨hsid, htoken, hkey⟩ := hkeys s hs
  have hone (value : Str) : (sampleGroup.insert s.fileKey value).lookup "SYNC_INTERVAL_SECS".toList =
      some "1".toList := by
    rw [HashMap.lookup_insert, if_neg hkey]
    decide
  have htrue : Records.WireSafe "true".toList := by decide
  have hfalse : Records.WireSafe "false".toList := by decide
  obtain ⟨sid, token, sid', token', hconfig⟩ := samples_agree habsolute hpath hgroup hmem h hsid htoken htrue hfalse
    fun text _ => interval_sampled hinterval (hone text)
  have hshows {fileKey : String} {arg : ConfigInput → Bool} (value : Str)
      (h : (flagSetting fileKey arg).FallsThrough input envData) :
      resolveFlag envData (sampleGroup.insert fileKey.toList value) fileKey (arg input) =
        (parseBool value).getD false := by
    rw [flag_shows h, AList.lookup_insert]
    rfl
  rcases List.mem_pair.mp hs with rfl | rfl
  · have hsame := congrArg AppConfig.insecureNoTls hconfig
    exact absurd ((hshows _ h).symm.trans (hsame.trans (hshows _ h))) (by decide)
  · have hsame := congrArg AppConfig.dryRun hconfig
    exact absurd ((hshows _ h).symm.trans (hsame.trans (hshows _ h))) (by decide)

end

/-- Precedence is absolute exactly when the sources above the file decide what they mention. -/
theorem precedence_iff (input : ConfigInput) (mode : ConfigMode) (envData : HashMap Str Str) :
    Absolute input mode envData ↔ input.configPath = none ∨ AboveDecides input envData := by
  refine ⟨fun habsolute => ?_, absolute_of_aboveDecides⟩
  by_contra h
  obtain ⟨hpath, habove⟩ := not_or.mp h
  obtain ⟨hgroup, hbelow⟩ := not_or.mp habove
  refine hbelow ⟨interval_differs habsolute hpath hgroup, ?_⟩
  by_cases hinterval : pinnedInterval input envData = some 0
  · exact Or.inl hinterval
  · exact Or.inr (flag_differs habsolute hpath hgroup hinterval)

/-- A variable with an unknown word lets the file turn TLS off. -/
theorem unknown_word_falls_through : ¬ Absolute { configPath := some "cfg".toList } .requireSyncConfig
    (HashMap.collect [("SSH_KEY_SYNC_INSECURE_NO_TLS".toList, "enabled".toList)]) := by
  intro habsolute
  refine flag_differs habsolute nofun ?_ (by decide) (flagSetting "INSECURE_NO_TLS" (·.insecureNoTls))
    List.mem_cons_self ⟨rfl, "enabled".toList, by decide, by decide⟩
  rintro (⟨s, hs, -⟩ | ⟨s, hs, -⟩)
  · cases hs
  · cases hs

end SshKeySync.Config
