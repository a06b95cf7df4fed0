import SshKeySync.Runtime.SyncCycle

/-! How a process secures its connections. Without the flag it needs a certificate, a key and an
authority that the TLS library takes, and there is no way from a failure to plain text. -/
namespace SshKeySync.Runtime
open RustStd Config

/-- What is used of `rustls` and `rustls_pemfile`; errors are displayed. -/
structure Rustls (Cert Key : Type) where
  certs : Bytes → Except Str (List Cert)
  privateKey : Bytes → Except Str (Option Key)
  withSingleCert : List Cert → Key → Except Str Unit
  /-- How many certificates a root store takes. -/
  addParsableCertificates : List Cert → Nat

inductive TransportSecurity (Cert Key : Type) where
  | tls (certs : List Cert) (key : Key) (roots : List Cert) (serverNameOverride : Option Str)
  | insecureNoTls
  deriving DecidableEq

section
variable {Cert Key : Type} (R : Rustls Cert Key) (home : Option Str) (openFile : Str → Option Bytes)

def loadCertChain (path : Str) : Except RuntimeError (List Cert) := do
  let file ← okOr (openFile path) (.invalidTlsConfig path)
  let certs ← (R.certs file).mapError .invalidTlsConfig
  if certs.isEmpty then .error (.invalidTlsConfig ("no certificates in ".toList ++ path)) else .ok certs

def loadPrivateKey (path : Str) : Except RuntimeError Key := do
  let file ← okOr (openFile path) (.invalidTlsConfig path)
  let key ← (R.privateKey file).mapError .invalidTlsConfig
  okOr key (.invalidTlsConfig ("no private key in ".toList ++ path))

/-- All three paths are asked for before a file is opened. -/
def buildTransportSecurity (config : AppConfig) : Except RuntimeError (TransportSecurity Cert Key) :=
  if config.insecureNoTls then .ok .insecureNoTls
  else do
    let certPath ← okOr config.tlsCertPath (.missingTlsConfig "--tls-cert-path".toList)
    let keyPath ← okOr config.tlsKeyPath (.missingTlsConfig "--tls-key-path".toList)
    let caPath ← okOr config.tlsCaPath (.missingTlsConfig "--tls-ca-path".toList)
    let certs ← loadCertChain R openFile (expandHomePath home certPath)
    let key ← loadPrivateKey R openFile (expandHomePath home keyPath)
    let _ ← (R.withSingleCert certs key).mapError .invalidTlsConfig
    let roots ← loadCertChain R openFile (expandHomePath home caPath)
    if R.addParsableCertificates roots = 0 then
      .error (.invalidTlsConfig ("no valid CA certificates in ".toList ++ expandHomePath home caPath))
    else .ok (.tls certs key roots config.tlsServerName)

variable {R home openFile}

/-- Connections are in plain text exactly where the flag asks for it. -/
theorem buildTransportSecurity_eq_insecure_iff {config : AppConfig} :
    buildTransportSecurity R home openFile config = .ok .insecureNoTls ↔ config.insecureNoTls := by
  rw [buildTransportSecurity]
  split
  · rename_i hflag
    exact iff_of_true rfl hflag
  · rename_i hflag
    refine iff_of_false ?_ hflag
    simp only [bind_eq_ok, not_exists, not_and]
    intro _ _ _ _ _ _ _ _ _ _ _ _ _ _ h
    split at h <;> cases h

end
end SshKeySync.Runtime
