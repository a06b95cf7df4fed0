import SshKeySync.Auth.Verifier
import SshKeySync.Keys.PublicKey

/-! Peer discovery: bootstrap entries, signed announcements, and the peer table with its
pending sync trigger. -/
namespace SshKeySync.Discovery
open RustStd Auth Keys

structure PeerRecord where
  participantId : Str
  address : Str
  port : UInt16
  publicKey : Str
  deriving DecidableEq

structure DiscoveryAnnouncement where
  sid : Str
  participantId : Str
  address : Str
  port : UInt16
  publicKey : Str
  deriving DecidableEq

inductive DiscoveryEvent where
  | ignored
  | peerAdded (participantId : Str)
  | peerUpdated (participantId : Str)
  deriving DecidableEq

inductive DiscoveryError where
  | invalidAnnouncementPayload
  | invalidPublicKey
  deriving DecidableEq

structure DiscoveryEngine where
  sid : Str
  sidToken : Str
  verifier : EnvelopeVerifier
  peers : HashMap Str PeerRecord
  syncTriggerPending : Bool

/-- Participant and endpoint of a bootstrap entry, cut at the first `@` if there is one. -/
def bootstrapParts (trimmed : Str) : Str × Str :=
  match splitOnce '@' trimmed with
  | some (participant, hostPort) => (trim participant, trim hostPort)
  | none => (trimmed, trimmed)

/-- The part that discovery and runtime parse alike. -/
def bootstrapFields (value : Str) : Option (Str × Str × UInt16) :=
  if trim value = [] then none
  else do
    let (participantId, hostPort) := bootstrapParts (trim value)
    let (address, portText) ← rsplitOnce ':' hostPort
    let port ← parseU16 (trim portText)
    some (participantId, trim address, port)

/-- Discovery rejects an empty address; the runtime's own copy does not. -/
def parseBootstrapPeer (value : Str) : Option (Str × Str × UInt16) := do
  let (participantId, address, port) ← bootstrapFields value
  if address = [] then none else some (participantId, address, port)

def serializePayload (entries : List (Str × Str)) : Bytes := utf8 (Records.render entries)

def parsePayload (body : Bytes) : Except DiscoveryError (HashMap Str Str) := do
  let text ← okOr (fromUtf8 body) .invalidAnnouncementPayload
  Records.parseStrict .invalidAnnouncementPayload text

def parseAnnouncementPayload (body : Bytes) : Except DiscoveryError DiscoveryAnnouncement := do
  let payload ← parsePayload body
  let sid ← okOr (payload.lookup "sid".toList) .invalidAnnouncementPayload
  let participantId ← okOr (payload.lookup "participant_id".toList) .invalidAnnouncementPayload
  let address ← okOr (payload.lookup "address".toList) .invalidAnnouncementPayload
  let portText ← okOr (payload.lookup "port".toList) .invalidAnnouncementPayload
  let port ← okOr (parseU16 portText) .invalidAnnouncementPayload
  let keyText ← okOr (payload.lookup "public_key".toList) .invalidAnnouncementPayload
  let publicKey ← mapErr (normalizePublicKey keyText) .invalidPublicKey
  if sid = [] ∨ address = [] then .error .invalidAnnouncementPayload
  else .ok ⟨sid, participantId, address, port, publicKey⟩

namespace DiscoveryEngine

def new (sid sidToken : Str) (timestampSkewSecs nonceTtlSecs : UInt64) : DiscoveryEngine where
  sid := sid
  sidToken := sidToken
  verifier := .new sidToken sid timestampSkewSecs nonceTtlSecs
  peers := ∅
  syncTriggerPending := false

variable (P : Primitives) (d : DiscoveryEngine)

def addBootstrapPeer (peer : Str) : DiscoveryEngine :=
  match parseBootstrapPeer peer with
  | none => d
  | some (participantId, address, port) =>
    { d with
      peers := d.peers.insert participantId ⟨participantId, address, port, []⟩
      syncTriggerPending := d.syncTriggerPending || (d.peers.lookup participantId).isNone }

def addBootstrapPeers (bootstrapPeers : List Str) : DiscoveryEngine :=
  bootstrapPeers.foldl addBootstrapPeer d

def buildStartupAnnouncement (participantId address : Str) (port : UInt16) (publicKey : Str)
    (timestampSecs : UInt64) (nonce : Str) : Except DiscoveryError SignedEnvelope := do
  let publicKey ← mapErr (normalizePublicKey publicKey) .invalidPublicKey
  let body := serializePayload [("sid".toList, d.sid), ("participant_id".toList, participantId),
    ("address".toList, address), ("port".toList, decimal port.toNat),
    ("public_key".toList, publicKey)]
  .ok (signEnvelope P d.sid d.sidToken participantId timestampSecs nonce .udpAnnouncement body)

/-- The peer table after a verified announcement of this group. -/
def recordPeer (announcement : DiscoveryAnnouncement) : DiscoveryEvent × DiscoveryEngine :=
  let participantId := announcement.participantId
  let newRecord : PeerRecord :=
    ⟨participantId, announcement.address, announcement.port, announcement.publicKey⟩
  let updated := { d with
    peers := d.peers.insert participantId newRecord, syncTriggerPending := true }
  match d.peers.lookup participantId with
  | none => (.peerAdded participantId, updated)
  | some existing =>
    if existing = newRecord then (.ignored, d) else (.peerUpdated participantId, updated)

/-- The event and the engine left behind: the verifier remembers a nonce even when the
payload is then refused. -/
def processAnnouncement (envelope : SignedEnvelope) (nowSecs : UInt64) :
    Except DiscoveryError DiscoveryEvent × DiscoveryEngine :=
  if envelope.context ≠ .udpAnnouncement then (.ok .ignored, d)
  else match d.verifier.verify P envelope nowSecs with
    | (.error _, verifier) => (.ok .ignored, { d with verifier })
    | (.ok (), verifier) =>
      let d := { d with verifier }
      match parseAnnouncementPayload envelope.body with
      | .error error => (.error error, d)
      | .ok announcement =>
        if announcement.sid ≠ d.sid then (.ok .ignored, d)
        else if trim announcement.participantId = [] then (.error .invalidAnnouncementPayload, d)
        else ((.ok (d.recordPeer announcement).1), (d.recordPeer announcement).2)

def takeSyncTrigger : Bool × DiscoveryEngine :=
  (d.syncTriggerPending, { d with syncTriggerPending := false })

/-- The announcement is past the context and verifier checks. -/
def Admits (envelope : SignedEnvelope) (nowSecs : UInt64) : Prop :=
  envelope.context = .udpAnnouncement ∧ (d.verifier.verify P envelope nowSecs).1 = .ok ()

end DiscoveryEngine

end SshKeySync.Discovery
