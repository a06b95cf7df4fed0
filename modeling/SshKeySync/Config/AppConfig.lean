import SshKeySync.Std.Text

/-! The configuration of a process, as it is after loading. -/
namespace SshKeySync.Config
open RustStd

structure AppConfig where
  sid : Str
  sidToken : Str
  participantId : Str
  httpListenAddr : Str
  udpAnnounceAddr : Str
  bootstrapPeers : List Str
  syncIntervalSecs : UInt64
  publicKeyPath : Str
  authorizedKeysPath : Str
  tlsCertPath : Option Str
  tlsKeyPath : Option Str
  tlsCaPath : Option Str
  tlsServerName : Option Str
  insecureNoTls : Bool
  dryRun : Bool
  deriving DecidableEq

end SshKeySync.Config
