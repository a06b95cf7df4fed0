import SshKeySync.Config.Precedence
import SshKeySync.Theory.Items

/-! A configuration that was loaded: it is valid, and giving every field of it on the command line
loads it again. -/
namespace SshKeySync.Config
open RustStd Items

structure AppConfig.Valid (config : AppConfig) : Prop where
  sid : Unpadded config.sid ∧ config.sid ≠ []
  sidToken : Unpadded config.sidToken ∧ config.sidToken ≠ []
  syncIntervalSecs : 1 ≤ config.syncIntervalSecs
  bootstrapPeers : ∀ peer ∈ config.bootstrapPeers, Item ',' peer
  distinct : config.bootstrapPeers.Nodup

/-- The command line that gives every field, the peers joined by commas and absent options left out. -/
def AppConfig.commandLine (config : AppConfig) (configPath : Option Str) : ConfigInput where
  sid := some config.sid
  sidToken := some config.sidToken
  participantId := some config.participantId
  httpListenAddr := some config.httpListenAddr
  udpAnnounceAddr := some config.udpAnnounceAddr
  bootstrapPeers := some (join ',' config.bootstrapPeers)
  syncIntervalSecs := some config.syncIntervalSecs
  publicKeyPath := some config.publicKeyPath
  authorizedKeysPath := some config.authorizedKeysPath
  tlsCertPath := config.tlsCertPath
  tlsKeyPath := config.tlsKeyPath
  tlsCaPath := config.tlsCaPath
  tlsServerName := config.tlsServerName
  insecureNoTls := config.insecureNoTls
  dryRun := config.dryRun
  configPath := configPath

private theorem parseCsv_eq (value : Str) : parseCsv value = (items ',' value).eraseDups := rfl

/-- What a source lists comes out of its joined form again. -/
theorem parseCsv_join {peers : List Str} (h : ∀ peer ∈ peers, Item ',' peer) (hdistinct : peers.Nodup) :
    parseCsv (join ',' peers) = peers := by
  rw [parseCsv_eq, items_join h, eraseDups_eq_self hdistinct]

private theorem normalizeNonEmpty_eq_self {s : Str} (h : Unpadded s ∧ s ≠ []) : normalizeNonEmpty s = some s :=
  normalizeNonEmpty_eq_some_iff.mpr ⟨trim_eq_self h.1, h.2⟩

/-- Giving what was resolved on the command line resolves to it again. -/
theorem resolveFirst_idempotent {α : Type} (parse : Str → Option α) (arg : Option α)
    (envValue fileValue : Option Str) :
    resolveFirst parse (resolveFirst parse arg envValue fileValue) envValue fileValue =
      resolveFirst parse arg envValue fileValue := by
  cases h : resolveFirst parse arg envValue fileValue with
  | some a => rfl
  | none =>
    have harg : arg = none := (Option.or_eq_none_iff.mp (Option.or_eq_none_iff.mp h).1).1
    rwa [harg] at h

private theorem resolveFlag_idempotent (envData fileData : HashMap Str Str) (fileKey : String) (arg : Bool) :
    resolveFlag envData fileData fileKey (resolveFlag envData fileData fileKey arg) =
      resolveFlag envData fileData fileKey arg := by
  cases h : resolveFlag envData fileData fileKey arg with
  | true => rfl
  | false =>
    cases arg with
    | true => cases h
    | false => exact h

namespace Resolved
variable {r : Resolved} {mode : ConfigMode} {config : AppConfig}

/-- What was loaded passed every check. -/
theorem of_load (h : r.load mode = .ok (some config)) : ∃ s t, r.sid = some s ∧ r.sidToken = some t ∧
    ∃ sid token, normalizeNonEmpty s = some sid ∧ normalizeNonEmpty t = some token ∧
      r.syncIntervalSecs.getD defaultSyncIntervalSecs ≠ 0 ∧ config = r.config sid token := by
  rw [load] at h
  split at h
  · cases h
  · simp only [bind_eq_ok, okOr_eq_ok] at h
    obtain ⟨s, hs, sid, hsid, t, ht, token, htoken, h⟩ := h
    split at h
    · cases h
    · rename_i hinterval
      cases h
      exact ⟨s, t, hs, ht, sid, token, hsid, htoken, hinterval, rfl⟩

end Resolved

section
variable {readFile : Str → Option Str} {input : ConfigInput} {mode : ConfigMode} {envData fileData : HashMap Str Str}
  {config : AppConfig}

/-- What was loaded is the resolved fields, checked. -/
theorem resolved_of_load (h : loadConfigWithSources readFile input mode envData = .ok (some config)) :
    ∃ fileData, readConfigFile readFile input.configPath = .ok fileData ∧
      (resolveAll input envData fileData).load mode = .ok (some config) := by
  rw [loadConfigWithSources_eq] at h
  exact bind_eq_ok.mp h

/-- The peers are those of the source that supplies them, an absent source taken for an empty text. -/
theorem firstOccurrences_config (r : Resolved) (sid sidToken : Str) :
    FirstOccurrences (items ',' (r.bootstrapPeers.getD [])) (r.config sid sidToken).bootstrapPeers := by
  rw [Resolved.config]
  cases r.bootstrapPeers with
  | none => exact firstOccurrences_eraseDups []
  | some value => exact firstOccurrences_eraseDups (items ',' value)

private theorem valid_of_load {r : Resolved} (h : r.load mode = .ok (some config)) : config.Valid := by
  obtain ⟨s, t, -, -, sid, sidToken, hsid, htoken, hinterval, rfl⟩ := Resolved.of_load h
  obtain ⟨rfl, hsid⟩ := normalizeNonEmpty_eq_some_iff.mp hsid
  obtain ⟨rfl, htoken⟩ := normalizeNonEmpty_eq_some_iff.mp htoken
  have hpeers := firstOccurrences_config r (trim s) (trim t)
  refine ⟨⟨trim_unpadded s, hsid⟩, ⟨trim_unpadded t, htoken⟩, ?_, fun peer hpeer => ?_, hpeers.nodup⟩
  · have hpos : (r.config (trim s) (trim t)).syncIntervalSecs.toNat ≠ 0 := fun hzero =>
      hinterval (UInt64.toNat_inj.mp hzero)
    exact UInt64.le_iff_toNat_le.mpr (Nat.one_le_iff_ne_zero.mpr hpos)
  · exact item_of_mem_items ((hpeers.mem peer).mp hpeer)

/-- A loaded SID is a non-empty string without surrounding whitespace. -/
theorem sid_of_loadConfig {var : Str → Option Str} (h : loadConfig var readFile input mode = .ok (some config)) :
    Unpadded config.sid ∧ config.sid ≠ [] := by
  obtain ⟨_, -, hload⟩ := resolved_of_load h
  exact (valid_of_load hload).sid

/-- Every field comes out of the command line as it went in. -/
theorem config_commandLine {sid sidToken : Str} (configPath : Option Str)
    (hconfig : config = (resolveAll input envData fileData).config sid sidToken) (hvalid : config.Valid) :
    (resolveAll (config.commandLine configPath) envData fileData).config config.sid config.sidToken = config := by
  have hpeers := parseCsv_join hvalid.bootstrapPeers hvalid.distinct
  subst hconfig
  rw [Resolved.config, Resolved.config, AppConfig.mk.injEq]
  refine ⟨rfl, rfl, rfl, rfl, rfl, hpeers, rfl, rfl, rfl, ?_, ?_, ?_, ?_, ?_, ?_⟩
  · exact resolveFirst_idempotent ..
  · exact resolveFirst_idempotent ..
  · exact resolveFirst_idempotent ..
  · exact resolveFirst_idempotent ..
  · exact resolveFlag_idempotent ..
  · exact resolveFlag_idempotent ..

/-- A loaded configuration is valid, its peers are the first occurrences in the source that supplies
them, and loading it from its own command line gives it again. -/
theorem loaded_fixed (h : loadConfigWithSources readFile input mode envData = .ok (some config)) :
    config.Valid ∧
    (∃ fileData, readConfigFile readFile input.configPath = .ok fileData ∧
      FirstOccurrences (items ',' ((resolveString "SSH_KEY_SYNC_BOOTSTRAP_PEERS".toList envData fileData
        "BOOTSTRAP_PEERS".toList input.bootstrapPeers).getD [])) config.bootstrapPeers) ∧
    loadConfigWithSources readFile (config.commandLine input.configPath) mode envData = .ok (some config) := by
  obtain ⟨fileData, hfile, hload⟩ := resolved_of_load h
  have hvalid := valid_of_load hload
  obtain ⟨s, t, -, -, sid, sidToken, -, -, hinterval, hconfig⟩ := Resolved.of_load hload
  refine ⟨hvalid, ⟨fileData, hfile, ?_⟩, ?_⟩
  · rw [hconfig, resolveString_eq]
    exact firstOccurrences_config (resolveAll input envData fileData) sid sidToken
  · have hagain : (resolveAll (config.commandLine input.configPath) envData fileData).load mode =
        .ok (some ((resolveAll (config.commandLine input.configPath) envData fileData).config
          config.sid config.sidToken)) := by
      refine Resolved.load_eq rfl (normalizeNonEmpty_eq_self hvalid.sid) rfl
        (normalizeNonEmpty_eq_self hvalid.sidToken) fun hzero => hinterval ?_
      have hinterval' : config.syncIntervalSecs = 0 := hzero
      rwa [hconfig] at hinterval'
    rw [config_commandLine input.configPath hconfig hvalid] at hagain
    rw [loadConfigWithSources_eq, show (config.commandLine input.configPath).configPath = input.configPath from rfl,
      hfile]
    exact hagain

end

/-- Padded and repeated peers, from the environment, under a file that turns TLS off. -/
theorem loaded_fixed_padded :
    let envData := HashMap.collect [("SSH_KEY_SYNC_BOOTSTRAP_PEERS".toList, " node-a:1, node-b:2,, node-a:1 ".toList)]
    let input : ConfigInput :=
      { sid := some " group-a ".toList, sidToken := some "secret".toList, configPath := some "cfg".toList }
    ∃ config, loadConfigWithSources (fun _ => some "INSECURE_NO_TLS=yes".toList) input .requireSyncConfig envData =
        .ok (some config) ∧ config.bootstrapPeers = ["node-a:1".toList, "node-b:2".toList] ∧
      loadConfigWithSources (fun _ => some "INSECURE_NO_TLS=yes".toList) (config.commandLine input.configPath)
        .requireSyncConfig envData = .ok (some config) := by
  intro envData input
  have hload : loadConfigWithSources (fun _ => some "INSECURE_NO_TLS=yes".toList) input .requireSyncConfig envData =
      .ok (some _) := rfl
  exact ⟨_, hload, by decide, (loaded_fixed hload).2.2⟩

end SshKeySync.Config
