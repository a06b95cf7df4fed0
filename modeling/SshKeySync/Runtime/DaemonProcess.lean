import SshKeySync.AuthorizedKeys.AtomicWrite
import SshKeySync.Runtime.Announce
import SshKeySync.Runtime.Replies
import SshKeySync.Runtime.SyncTimer
import SshKeySync.Runtime.TransportSecurity
import SshKeySync.Theory.Parties

/-! The daemon, one system call at a time: it serves connections, reads datagrams, asks its peers one
after the other, writes the block and announces itself, turn after turn. Whatever the network
and the machine answer comes in with the event. -/
namespace SshKeySync.Runtime.DaemonProcess
open RustStd Auth Transport Discovery Config AuthorizedKeys Keys

/-- What stays fixed after a start; the service has the group and the participant of the
configuration. -/
structure Daemon extends Process where
  httpPort : UInt16
  udpPort : UInt16
  sid_eq : service.sid = config.sid
  sidToken_eq : service.sidToken = config.sidToken
  participantId_eq : service.participantId = config.participantId

inductive Exit where
  | stopped
  | failed (error : RuntimeError)
  | panicked
  deriving DecidableEq

/-- Where the daemon stands in `run_daemon`. From the clock's reading on a sync has the time
at which it began. -/
inductive Stage where
  | starting
  | serving
  | receiving
  | asking (began : UInt64) (endpoint : PeerEndpoint) (endpoints : List PeerEndpoint)
  | awaiting (began : UInt64) (endpoint : PeerEndpoint) (endpoints : List PeerEndpoint)
  | saving (began : UInt64)
  | announcing (began : UInt64)
  | pausing
  | ended (exit : Exit)
  deriving DecidableEq

structure State where
  discovery : DiscoveryEngine
  managedKeys : HashMap Str Str
  nextSyncAt : UInt64
  stage : Stage

/-- What a system call gives the daemon: the clock in seconds or nanoseconds, the bytes of a
connection or a datagram, a response or none, the file as a save finds it and whether it was replaced,
and the orders in which maps are iterated. -/
inductive Event where
  | announce (nowSecs : UInt64) (nanos : Nat)
  | connection (reads : List Bytes) (nowSecs : UInt64) (nanos : Nat)
  | noConnection
  | datagram (bytes : Bytes) (nowSecs : UInt64)
  | noDatagram (nowSecs : UInt64) (recordOrder : HashMap.Iteration PeerRecord)
      (endpointOrder : HashMap.Iteration PeerEndpoint)
  | post (nowSecs : UInt64) (nanos : Nat)
  | answer (response : Option Bytes)
  | save (keyOrder : HashMap.Iteration Str) (found : Option Bytes) (saved : Bool)
  | pause (stopRequested : Bool)

inductive Output where
  | broadcast (envelope : SignedEnvelope)
  | reply (response : Reply)
  | post (endpoint : PeerEndpoint) (envelope : SignedEnvelope)
  | install (content : Str)
  deriving DecidableEq

def Output.signed : Output → Option SignedEnvelope
  | .broadcast envelope => some envelope
  | .reply (.signed envelope) => some envelope
  | .post _ envelope => some envelope
  | _ => none

def Output.bytes : Output → Bytes
  | .broadcast envelope => announcementDatagram envelope
  | .reply response => response.bytes
  | .post endpoint envelope =>
    utf8 (httpRequest endpoint.address endpoint.port pathGetPublicKey (serializeEnvelope envelope))
  | .install content => utf8 content

/-- The machine on which a daemon is started. -/
structure Host (Cert Key : Type) where
  rustls : Rustls Cert Key
  home : Option Str
  openFile : Str → Option Bytes
  bindsHttp : Str → Bool
  bindsUdp : Str → Bool
  /-- The control directory, the stale stop file, the pid file and the marker of the current SID. -/
  controlFiles : Except RuntimeError Unit

def Host.readFile {Cert Key : Type} (host : Host Cert Key) (path : Str) : Option Str :=
  (host.openFile path).bind fromUtf8

/-- The process has the configuration it was started with, its group and its key. -/
theorem startProcess_eq_ok {home : Option Str} {readFile : Str → Option Str} {config : AppConfig}
    {process : Process} {discovery : DiscoveryEngine}
    (h : startProcess home readFile config = .ok (process, discovery)) :
    process.config = config ∧ process.service.sid = config.sid ∧ process.service.sidToken = config.sidToken ∧
      process.service.participantId = config.participantId ∧
      readLocalPublicKey (expandHomePath home config.publicKeyPath)
        (readFile (expandHomePath home config.publicKeyPath)) = .ok process.service.publicKey ∧
      discovery = (DiscoveryEngine.new config.sid config.sidToken timestampSkewSecs
        nonceTtlSecs).addBootstrapPeers config.bootstrapPeers := by
  rw [startProcess] at h
  simp only [bind_eq_ok, mapErr_eq_ok] at h
  obtain ⟨key, hkey, service, hservice, h⟩ := h
  cases h
  obtain ⟨hsid, htoken, hparticipant, hpublic⟩ := HttpKeyExchangeService.new_eq_ok hservice
  rw [readLocalPublicKey] at hkey
  obtain ⟨content, hcontent, hnormal⟩ := bind_eq_ok.mp hkey
  have hsame : key = service.publicKey :=
    Except.ok.inj ((normalizePublicKey_idempotent hnormal).symm.trans hpublic)
  refine ⟨rfl, hsid, htoken, hparticipant, ?_, rfl⟩
  rw [readLocalPublicKey, hcontent, ok_bind, hnormal, hsame]

/-- `run_daemon` up to its first announcement, which is the first thing that others see of it. -/
def startDaemon {Cert Key : Type} (host : Host Cert Key) (config : AppConfig) : Except RuntimeError Daemon :=
  match h : startProcess host.home host.readFile config with
  | .error error => .error error
  | .ok (process, _) => do
    let _ ← buildTransportSecurity host.rustls host.home host.openFile config
    let _ ← okOr (if host.bindsHttp config.httpListenAddr then some () else none) (.bindHttp config.httpListenAddr)
    let _ ← okOr (if host.bindsUdp config.udpAnnounceAddr then some () else none) (.bindUdp config.udpAnnounceAddr)
    let httpPort ← parsePort config.httpListenAddr
    let udpPort ← parsePort config.udpAnnounceAddr
    host.controlFiles
    have hstart := startProcess_eq_ok h
    .ok { process with
      httpPort
      udpPort
      sid_eq := hstart.2.1.trans (congrArg AppConfig.sid hstart.1.symm)
      sidToken_eq := hstart.2.2.1.trans (congrArg AppConfig.sidToken hstart.1.symm)
      participantId_eq := hstart.2.2.2.1.trans (congrArg AppConfig.participantId hstart.1.symm) }

namespace Daemon
variable (P : Primitives) (d : Daemon)

def start (nowSecs : UInt64) : State where
  discovery := (DiscoveryEngine.new d.config.sid d.config.sidToken timestampSkewSecs
    nonceTtlSecs).addBootstrapPeers d.config.bootstrapPeers
  managedKeys := ∅
  nextSyncAt := nowSecs
  stage := .starting

def advertised : Str := advertisedAddress d.config.httpListenAddr d.config.participantId

/-- The key is the local one, which reading has put in normal form. -/
def sendAnnouncement (discovery : DiscoveryEngine) (nowSecs : UInt64) (nanos : Nat) :
    Except RuntimeError SignedEnvelope :=
  mapErr (discovery.buildStartupAnnouncement P d.config.participantId d.advertised d.httpPort
    d.service.publicKey nowSecs (nextNonce nanos)) .buildAnnouncement

def endpointsToAsk (discovery : DiscoveryEngine) (recordOrder : HashMap.Iteration PeerRecord)
    (endpointOrder : HashMap.Iteration PeerEndpoint) : List PeerEndpoint :=
  let discovered := (HashMap.iterate recordOrder discovery.peers).map fun peer =>
    PeerEndpoint.mk peer.participantId peer.address peer.port
  (HashMap.iterate endpointOrder (HashMap.collect ((bootstrapEndpoints d.config ++ discovered).map
    fun endpoint => (endpoint.participantId, endpoint)))).filter (·.participantId ≠ d.config.participantId)

def keyRequestTo (endpoint : PeerEndpoint) (nowSecs : UInt64) (nanos : Nat) : SignedEnvelope :=
  d.service.buildGetPublicKeyRequest P endpoint.participantId nowSecs (nextNonce nanos)

/-- `apply_managed_block_to_file`; whatever goes wrong becomes one error. -/
def applyManagedBlock (keys : List Str) (found : Option Bytes) (saved : Bool) : Except RuntimeError Str := do
  let updated ← mapErr (planUpdate ⟨[], d.authorizedKeysPath⟩ found keys)
    (RuntimeError.writeAuthorizedKeys d.authorizedKeysPath)
  if saved then .ok updated else .error (.writeAuthorizedKeys d.authorizedKeysPath)

end Daemon

def Stage.ask (began : UInt64) : List PeerEndpoint → Stage
  | [] => .saving began
  | endpoint :: endpoints => .asking began endpoint endpoints

namespace State
variable (s : State)

def fail (error : RuntimeError) : State := { s with stage := .ended (.failed error) }

def received (P : Primitives) (bytes : Bytes) (nowSecs : UInt64) : State :=
  { s with discovery := (handleUdpAnnouncement P s.discovery bytes nowSecs).2 }

/-- The clock is read and the trigger taken, and a sync begins if either asks for one. -/
def poll (d : Daemon) (nowSecs : UInt64) (recordOrder : HashMap.Iteration PeerRecord)
    (endpointOrder : HashMap.Iteration PeerEndpoint) : State :=
  let discoveryTrigger := s.discovery.takeSyncTrigger.1
  let discovery := s.discovery.takeSyncTrigger.2
  { s with
    discovery
    stage := if s.nextSyncAt ≤ nowSecs ∨ discoveryTrigger then
        .ask nowSecs (d.endpointsToAsk discovery recordOrder endpointOrder)
      else .pausing }

def answered (P : Primitives) (d : Daemon) (endpoint : PeerEndpoint) (response : Option Bytes) : State :=
  { s with
    managedKeys := match readAnswer P d.service response with
      | .ok payload => s.managedKeys.insert endpoint.participantId payload.publicKey
      | .error _ => s.managedKeys }

end State

def step (P : Primitives) (d : Daemon) (s : State) (e : Event) : Option (List Output × State) :=
  match s.stage, e with
  | .starting, .announce nowSecs nanos => some (match d.sendAnnouncement P s.discovery nowSecs nanos with
    | .ok envelope => ([.broadcast envelope], { s with stage := .serving })
    | .error error => ([], s.fail error))
  | .serving, .connection reads nowSecs nanos =>
    some (match connectionReply P d.service reads nowSecs (nextNonce nanos) with
    | .ok response => ([.reply response], s)
    | .error (.io _ _) => ([], s)
    | .error .panic => ([], { s with stage := .ended .panicked }))
  | .serving, .noConnection => some ([], { s with stage := .receiving })
  | .receiving, .datagram bytes nowSecs => some ([], s.received P bytes nowSecs)
  | .receiving, .noDatagram nowSecs recordOrder endpointOrder => some ([], s.poll d nowSecs recordOrder endpointOrder)
  | .asking began endpoint endpoints, .post nowSecs nanos =>
    some ([.post endpoint (d.keyRequestTo P endpoint nowSecs nanos)],
      { s with stage := .awaiting began endpoint endpoints })
  | .awaiting began endpoint endpoints, .answer response =>
    some ([], { s.answered P d endpoint response with stage := .ask began endpoints })
  | .saving began, .save keyOrder found saved =>
    if d.config.dryRun then some ([], { s with stage := .announcing began })
    else some (match d.applyManagedBlock (HashMap.iterate keyOrder s.managedKeys) found saved with
      | .ok content => ([.install content], { s with stage := .announcing began })
      | .error error => ([], s.fail error))
  | .announcing began, .announce nowSecs nanos => some (match d.sendAnnouncement P s.discovery nowSecs nanos with
    | .ok envelope => ([.broadcast envelope],
      { s with nextSyncAt := began + max d.config.syncIntervalSecs 1, stage := .pausing })
    | .error error => ([], s.fail error))
  | .pausing, .pause stopRequested =>
    some ([], { s with stage := if stopRequested then .ended .stopped else .serving })
  | _, _ => none

def daemonA (bootstrapPeers : List Str) : Daemon where
  toProcess := startedA bootstrapPeers
  httpPort := 8888
  udpPort := 8889
  sid_eq := rfl
  sidToken_eq := rfl
  participantId_eq := rfl

def askingTurn (response found : Option Bytes) : List Event :=
  [.noConnection, .noDatagram 1000 (.identity _) (.identity _), .post 1000 2, .answer response,
    .save (.identity _) found true]

end SshKeySync.Runtime.DaemonProcess
