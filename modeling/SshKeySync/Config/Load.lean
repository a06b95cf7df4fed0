import SshKeySync.Config.AppConfig
import SshKeySync.Std.CaseMapping
import SshKeySync.Std.Number
import SshKeySync.Theory.Records

/-! Loading a configuration. Each field is taken from the command line, else from the
environment, else from the file; only the group's SID and token are trimmed whatever their
source. -/
namespace SshKeySync.Config
open RustStd

def defaultHttpListenAddr : Str := "0.0.0.0:9922".toList
def defaultUdpAnnounceAddr : Str := "0.0.0.0:9923".toList
def defaultSyncIntervalSecs : UInt64 := 30
def defaultPublicKeyPath : Str := "~/.ssh/id_ed25519.pub".toList
def defaultAuthorizedKeysPath : Str := "~/.ssh/authorized_keys".toList

inductive ConfigMode where
  | requireSyncConfig
  | allowMissing
  deriving DecidableEq

structure ConfigInput where
  sid : Option Str := none
  sidToken : Option Str := none
  participantId : Option Str := none
  httpListenAddr : Option Str := none
  udpAnnounceAddr : Option Str := none
  bootstrapPeers : Option Str := none
  syncIntervalSecs : Option UInt64 := none
  publicKeyPath : Option Str := none
  authorizedKeysPath : Option Str := none
  tlsCertPath : Option Str := none
  tlsKeyPath : Option Str := none
  tlsCaPath : Option Str := none
  tlsServerName : Option Str := none
  insecureNoTls : Bool := false
  dryRun : Bool := false
  configPath : Option Str := none

inductive ConfigError where
  | missingSid
  | missingSidToken
  | invalidSid
  | invalidSidToken
  | invalidSyncInterval
  | configFileReadFailed (path : Str)
  deriving DecidableEq

/-- Blank lines, comments and lines without an equals sign are skipped. -/
def parseConfigKeyValues (content : Str) : HashMap Str Str :=
  (lines content).foldl (fun map line =>
    if trim line = [] ∨ (trim line).head? = some '#' then map
    else match Records.keyValue (trim line) with
      | some kv => map.insert kv.1 kv.2
      | none => map) ∅

/-- Rows that read back as they were written, none of them a comment. -/
theorem parseConfigKeyValues_render {rows : List (Str × Str)} (h : ∀ kv ∈ rows, Records.SafeRow kv)
    (hcomment : ∀ kv ∈ rows, kv.1.head? ≠ some '#') :
    parseConfigKeyValues (Records.render rows) = HashMap.collect rows := by
  rw [parseConfigKeyValues, Records.lines_render h, HashMap.collect, List.foldl_map]
  refine List.foldl_ext _ _ _ fun m kv hkv => ?_
  rw [trim_eq_self (Records.unpadded_row (h kv hkv)), if_neg, Records.keyValue_row (h kv hkv)]
  rintro (hnil | hhash)
  · simp [Records.row] at hnil
  · have hkey := hcomment kv hkv
    rw [Records.row] at hhash
    cases hk : kv.1 with
    | nil => simp [hk] at hhash
    | cons c key => exact hkey (by simpa [hk] using hhash)

def readConfigFile (readFile : Str → Option Str) : Option Str → Except ConfigError (HashMap Str Str)
  | none => .ok ∅
  | some path => do
    let content ← okOr (readFile path) (.configFileReadFailed path)
    .ok (parseConfigKeyValues content)

section
variable (envKey : Str) (envData fileData : HashMap Str Str) (fileKey : Str)

def resolveString (arg : Option Str) : Option Str :=
  (arg.or (envData.lookup envKey)).or (fileData.lookup fileKey)

/-- A value that is no number is passed over. -/
def resolveU64 (arg : Option UInt64) : Option UInt64 :=
  (arg.or ((envData.lookup envKey).bind parseU64)).or ((fileData.lookup fileKey).bind parseU64)

def parseBool (value : Str) : Option Bool :=
  let word := toAsciiLowercase (trim value)
  if ["1".toList, "true".toList, "yes".toList, "on".toList].contains word then some true
  else if ["0".toList, "false".toList, "no".toList, "off".toList].contains word then some false
  else none

def resolveBool (arg : Bool) : Bool :=
  if arg then true
  else (((envData.lookup envKey).bind parseBool).or ((fileData.lookup fileKey).bind parseBool)).getD false

end

/-- Trimmed, non-empty and in the order of their first occurrences. -/
def parseCsv (value : Str) : List Str := (((value.splitOn ',').map trim).filter (· ≠ [])).eraseDups

def normalizeNonEmpty (value : Str) : Option Str := if trim value = [] then none else some (trim value)

def loadConfigWithSources (readFile : Str → Option Str) (input : ConfigInput) (mode : ConfigMode)
    (envData : HashMap Str Str) : Except ConfigError (Option AppConfig) := do
  let fileData ← readConfigFile readFile input.configPath
  let resolve (envKey fileKey : String) (arg : Option Str) :=
    resolveString envKey.toList envData fileData fileKey.toList arg
  let sid := resolve "SSH_KEY_SYNC_SID" "SID" input.sid
  let sidToken := resolve "SSH_KEY_SYNC_SID_TOKEN" "SID_TOKEN" input.sidToken
  if mode = .allowMissing ∧ sid = none ∧ sidToken = none then .ok none
  else
    let sid ← okOr sid .missingSid
    let sid ← okOr (normalizeNonEmpty sid) .invalidSid
    let sidToken ← okOr sidToken .missingSidToken
    let sidToken ← okOr (normalizeNonEmpty sidToken) .invalidSidToken
    let syncIntervalSecs := (resolveU64 "SSH_KEY_SYNC_SYNC_INTERVAL_SECS".toList envData fileData
      "SYNC_INTERVAL_SECS".toList input.syncIntervalSecs).getD defaultSyncIntervalSecs
    if syncIntervalSecs = 0 then .error .invalidSyncInterval
    else .ok (some {
      sid
      sidToken
      participantId := ((resolve "SSH_KEY_SYNC_PARTICIPANT_ID" "PARTICIPANT_ID" input.participantId).or
        (envData.lookup "HOSTNAME".toList)).getD "unknown-participant".toList
      httpListenAddr := (resolve "SSH_KEY_SYNC_HTTP_LISTEN_ADDR" "HTTP_LISTEN_ADDR"
        input.httpListenAddr).getD defaultHttpListenAddr
      udpAnnounceAddr := (resolve "SSH_KEY_SYNC_UDP_ANNOUNCE_ADDR" "UDP_ANNOUNCE_ADDR"
        input.udpAnnounceAddr).getD defaultUdpAnnounceAddr
      bootstrapPeers := ((resolve "SSH_KEY_SYNC_BOOTSTRAP_PEERS" "BOOTSTRAP_PEERS"
        input.bootstrapPeers).map parseCsv).getD []
      syncIntervalSecs
      publicKeyPath := (resolve "SSH_KEY_SYNC_PUBLIC_KEY_PATH" "PUBLIC_KEY_PATH"
        input.publicKeyPath).getD defaultPublicKeyPath
      authorizedKeysPath := (resolve "SSH_KEY_SYNC_AUTHORIZED_KEYS_PATH" "AUTHORIZED_KEYS_PATH"
        input.authorizedKeysPath).getD defaultAuthorizedKeysPath
      tlsCertPath := resolve "SSH_KEY_SYNC_TLS_CERT_PATH" "TLS_CERT_PATH" input.tlsCertPath
      tlsKeyPath := resolve "SSH_KEY_SYNC_TLS_KEY_PATH" "TLS_KEY_PATH" input.tlsKeyPath
      tlsCaPath := resolve "SSH_KEY_SYNC_TLS_CA_PATH" "TLS_CA_PATH" input.tlsCaPath
      tlsServerName := resolve "SSH_KEY_SYNC_TLS_SERVER_NAME" "TLS_SERVER_NAME" input.tlsServerName
      insecureNoTls := resolveBool "SSH_KEY_SYNC_INSECURE_NO_TLS".toList envData fileData
        "INSECURE_NO_TLS".toList input.insecureNoTls
      dryRun := resolveBool "SSH_KEY_SYNC_DRY_RUN".toList envData fileData "DRY_RUN".toList input.dryRun })

def envKeys : List Str :=
  ["SSH_KEY_SYNC_SID", "SSH_KEY_SYNC_SID_TOKEN", "SSH_KEY_SYNC_PARTICIPANT_ID",
    "SSH_KEY_SYNC_HTTP_LISTEN_ADDR", "SSH_KEY_SYNC_UDP_ANNOUNCE_ADDR", "SSH_KEY_SYNC_BOOTSTRAP_PEERS",
    "SSH_KEY_SYNC_SYNC_INTERVAL_SECS", "SSH_KEY_SYNC_PUBLIC_KEY_PATH", "SSH_KEY_SYNC_AUTHORIZED_KEYS_PATH",
    "SSH_KEY_SYNC_TLS_CERT_PATH", "SSH_KEY_SYNC_TLS_KEY_PATH", "SSH_KEY_SYNC_TLS_CA_PATH",
    "SSH_KEY_SYNC_TLS_SERVER_NAME", "SSH_KEY_SYNC_INSECURE_NO_TLS", "SSH_KEY_SYNC_DRY_RUN",
    "HOSTNAME"].map String.toList

/-- Variables that are unset or not Unicode are absent. -/
def collectEnv (var : Str → Option Str) : HashMap Str Str :=
  envKeys.foldl (fun values key => match var key with
    | some value => values.insert key value
    | none => values) ∅

def loadConfig (var readFile : Str → Option Str) (input : ConfigInput) (mode : ConfigMode) :
    Except ConfigError (Option AppConfig) :=
  loadConfigWithSources readFile input mode (collectEnv var)

/-- A value counts if something is left of it after trimming. -/
theorem normalizeNonEmpty_eq_some_iff {value s : Str} :
    normalizeNonEmpty value = some s ↔ trim value = s ∧ s ≠ [] := by
  rw [normalizeNonEmpty]
  split
  · rename_i h
    exact iff_of_false nofun fun ⟨hs, hne⟩ => hne (hs.symm.trans h)
  · rename_i h
    rw [Option.some.injEq]
    exact ⟨fun hs => ⟨hs, hs ▸ h⟩, fun hs => hs.1⟩

end SshKeySync.Config
