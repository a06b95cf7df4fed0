import SshKeySync.Config.FixedPoint
import SshKeySync.Discovery.Announcements
import SshKeySync.Runtime.Exchange

/-! Announcements of a daemon, from its configuration to the peer table of another. The sender
signs the configured texts as they are, while the wire trims them and cuts them at newlines. -/
namespace SshKeySync.Runtime
open RustStd Auth Keys Config Discovery Records

/-- The bytes that one `recv_from` takes of a datagram. -/
def udpBufferSize : Nat := 8192

def parsePort (address : Str) : Except RuntimeError UInt16 :=
  okOr ((rsplitOnce ':' address).bind fun cut => parseU16 cut.2) (.parseListenAddress address)

/-- Cut at the first colon, where `parsePort` cuts at the last one. -/
def advertisedAddress (httpListenAddr participantId : Str) : Str :=
  let host := ((splitOnce ':' httpListenAddr).map Prod.fst).getD httpListenAddr
  if host = "0.0.0.0".toList ∨ host = "::".toList then participantId else host

def nextNonce (nanos : Nat) : Str := 'n' :: '-' :: decimal nanos

/-- What `send_announcement` hands to the socket. -/
def announcementDatagram (envelope : SignedEnvelope) : Bytes := utf8 (serializeEnvelope envelope)

def receivedEnvelope (datagram : Bytes) : Option SignedEnvelope :=
  (fromUtf8 (datagram.take udpBufferSize)).bind fun text => (parseEnvelope text).toOption

/-- One datagram in `handle_udp_announcements`; one that is no envelope is dropped. -/
def handleUdpAnnouncement (P : Primitives) (discovery : DiscoveryEngine) (datagram : Bytes)
    (nowSecs : UInt64) : Option (Except DiscoveryError DiscoveryEvent) × DiscoveryEngine :=
  match receivedEnvelope datagram with
  | none => (none, discovery)
  | some envelope =>
    (some (discovery.processAnnouncement P envelope nowSecs).1,
      (discovery.processAnnouncement P envelope nowSecs).2)

def Delivered (P : Primitives) (receiver : DiscoveryEngine) (datagram : Bytes) (nowSecs : UInt64)
    (record : PeerRecord) : Prop :=
  (∃ event, (handleUdpAnnouncement P receiver datagram nowSecs).1 = some (.ok event)) ∧
    (handleUdpAnnouncement P receiver datagram nowSecs).2.peers.lookup record.participantId = some record

/-- No newline in the SID; participant and advertised address are non-empty unpadded lines. -/
structure Discoverable (config : AppConfig) : Prop where
  sid : '\n' ∉ config.sid
  participantId : WireSafe config.participantId ∧ config.participantId ≠ []
  address : WireSafe (advertisedAddress config.httpListenAddr config.participantId) ∧
    advertisedAddress config.httpListenAddr config.participantId ≠ []

instance (config : AppConfig) : Decidable (Discoverable config) :=
  decidable_of_iff ('\n' ∉ config.sid ∧ (WireSafe config.participantId ∧ config.participantId ≠ []) ∧
    WireSafe (advertisedAddress config.httpListenAddr config.participantId) ∧
    advertisedAddress config.httpListenAddr config.participantId ≠ [])
    ⟨fun h => ⟨h.1, h.2.1, h.2.2⟩, fun h => ⟨h.sid, h.participantId, h.address⟩⟩

section
variable {P : Primitives} {config : AppConfig}

/-- A nonce is a line without surrounding whitespace. -/
theorem wireSafe_nextNonce (nanos : Nat) : WireSafe (nextNonce nanos) := by
  refine wireSafe_of_whitespace_free fun c hc => ?_
  rcases List.mem_cons.mp hc with rfl | hc
  · rfl
  · rcases List.mem_cons.mp hc with rfl | hc
    · rfl
    · exact decimal_whitespace_free nanos c hc

/-- A datagram that fits the buffer is read as the envelope that was sent. -/
theorem receivedEnvelope_announcementDatagram {envelope : SignedEnvelope} (h : WireEnvelope envelope)
    (hfits : (announcementDatagram envelope).length ≤ udpBufferSize) :
    receivedEnvelope (announcementDatagram envelope) = some envelope := by
  rw [receivedEnvelope, List.take_of_length_le hfits, announcementDatagram, fromUtf8_utf8, Option.bind_some,
    parseEnvelope_serializeEnvelope h]
  rfl

/-- What the engine has heard stands in the table afterwards. -/
theorem lookup_of_heard {d : DiscoveryEngine} {envelope : SignedEnvelope} {nowSecs : UInt64}
    {r : PeerRecord} (h : d.heard P envelope nowSecs = some r) :
    (∃ event, (d.processAnnouncement P envelope nowSecs).1 = .ok event) ∧
      (d.processAnnouncement P envelope nowSecs).2.peers.lookup r.participantId = some r := by
  rcases DiscoveryEngine.processAnnouncement_of_heard h with
    ⟨hsame, hresult, hpeers, -⟩ | ⟨-, hresult, hpeers, -⟩
  · exact ⟨⟨_, hresult⟩, by rw [hpeers, hsame]⟩
  · exact ⟨⟨_, hresult⟩, by rw [hpeers, AList.lookup_insert]⟩

private theorem handleUdpAnnouncement_run (d : DiscoveryEngine) (datagram : Bytes) (nowSecs : UInt64) :
    ∃ ops, (handleUdpAnnouncement P d datagram nowSecs).2 = d.after P ops := by
  rw [handleUdpAnnouncement]
  cases receivedEnvelope datagram with
  | none => exact ⟨[], rfl⟩
  | some envelope => exact ⟨[.processAnnouncement envelope nowSecs], rfl⟩

private theorem ne_nil_of_normalized {localKey key : Str} (h : normalizePublicKey localKey = .ok key) :
    key ≠ [] := by
  obtain ⟨k, -, rfl⟩ := normalizePublicKey_eq_ok_iff.mp h
  rw [k.text_eq]
  exact List.append_ne_nil_of_right_ne_nil _ (List.cons_ne_nil _ _)

private theorem discoverable_of_delivered {skew ttl : UInt64} {ops : List Op} {datagram : Bytes}
    {nowSecs : UInt64} {localKey key : Str} {port : UInt16} (hkey : normalizePublicKey localKey = .ok key)
    (h : Delivered P ((DiscoveryEngine.new config.sid config.sidToken skew ttl).after P ops) datagram nowSecs
      ⟨config.participantId, advertisedAddress config.httpListenAddr config.participantId, port, key⟩) :
    Discoverable config := by
  obtain ⟨more, hmore⟩ := handleUdpAnnouncement_run (P := P)
    ((DiscoveryEngine.new config.sid config.sidToken skew ttl).after P ops) datagram nowSecs
  have hlookup := h.2
  rw [hmore, DiscoveryEngine.after, DiscoveryEngine.after, ← Transducer.after_append] at hlookup
  rcases DiscoveryEngine.heard_or_bootstrap config.sid config.sidToken skew ttl hlookup with hmem | hnil
  · have hsafe := DiscoveryEngine.announceable_of_mem_announced
      (DiscoveryEngine.member_new config.sid config.sidToken skew ttl) hmem
    exact ⟨hsafe.sid.1.1, hsafe.participantId, hsafe.address⟩
  · exact absurd hnil (ne_nil_of_normalized hkey)

private theorem delivered_of_discoverable {receiver : DiscoveryEngine} {skew : UInt64}
    (hreceiver : receiver.Member config.sid config.sidToken skew)
    (hannounceable : Announceable config.sid config.participantId
      (advertisedAddress config.httpListenAddr config.participantId)) {localKey key : Str}
    (hkey : normalizePublicKey localKey = .ok key) {port : UInt16} {sentSecs nowSecs : UInt64} {nanos : Nat}
    (hwindow : EnvelopeVerifier.inWindow skew sentSecs nowSecs) {envelope : SignedEnvelope}
    (henvelope : envelope = signEnvelope P config.sid config.sidToken config.participantId sentSecs
      (nextNonce nanos) .udpAnnouncement (announcementBody config.sid config.participantId
        (advertisedAddress config.httpListenAddr config.participantId) port key))
    (hfits : (announcementDatagram envelope).length ≤ udpBufferSize)
    (hfresh : ¬ receiver.verifier.Remembers envelope nowSecs) :
    Delivered P receiver (announcementDatagram envelope) nowSecs
      ⟨config.participantId, advertisedAddress config.httpListenAddr config.participantId, port, key⟩ := by
  subst henvelope
  have hwire := wireEnvelope_signEnvelope P config.sidToken sentSecs
    (announcementBody config.sid config.participantId
      (advertisedAddress config.httpListenAddr config.participantId) port key)
    hannounceable.sid.1 hannounceable.participantId.1 (wireSafe_nextNonce nanos)
    (show WireContext .udpAnnouncement from trivial)
  have hheard := DiscoveryEngine.heard_signEnvelope hreceiver hannounceable hkey hwindow hfresh
  obtain ⟨⟨event, hevent⟩, hlookup⟩ := lookup_of_heard hheard
  rw [Delivered, handleUdpAnnouncement, receivedEnvelope_announcementDatagram hwire hfits]
  exact ⟨⟨event, congrArg some hevent⟩, hlookup⟩

/-- A daemon's announcement reaches every member's table exactly when its loaded texts are
fixed points of the wire. -/
theorem discovered_iff {var readFile : Str → Option Str} {input : ConfigInput} {mode : ConfigMode}
    (hload : loadConfig var readFile input mode = .ok (some config)) {sender : DiscoveryEngine}
    (hsid : sender.sid = config.sid) (htoken : sender.sidToken = config.sidToken) {port : UInt16}
    {localKey key : Str} (hkey : normalizePublicKey localKey = .ok key) {sentSecs nowSecs : UInt64} {nanos : Nat}
    {envelope : SignedEnvelope} (hbuild : sender.buildStartupAnnouncement P config.participantId
      (advertisedAddress config.httpListenAddr config.participantId) port localKey sentSecs
      (nextNonce nanos) = .ok envelope)
    (hfits : (announcementDatagram envelope).length ≤ udpBufferSize) {skew ttl : UInt64} {ops : List Op}
    (hwindow : EnvelopeVerifier.inWindow skew sentSecs nowSecs)
    (hfresh : ¬ ((DiscoveryEngine.new config.sid config.sidToken skew ttl).after P ops).verifier.Remembers
      envelope nowSecs) :
    Delivered P ((DiscoveryEngine.new config.sid config.sidToken skew ttl).after P ops)
      (announcementDatagram envelope) nowSecs
      ⟨config.participantId, advertisedAddress config.httpListenAddr config.participantId, port, key⟩ ↔
        Discoverable config := by
  obtain ⟨hunpadded, hne⟩ := sid_of_loadConfig hload
  rw [DiscoveryEngine.buildStartupAnnouncement_eq_ok hkey, hsid, htoken] at hbuild
  refine ⟨discoverable_of_delivered hkey, fun h => ?_⟩
  exact delivered_of_discoverable ((DiscoveryEngine.member_new _ _ _ _).after ops)
    ⟨⟨⟨h.sid, hunpadded⟩, hne⟩, h.participantId, h.address⟩ hkey hwindow (Except.ok.inj hbuild).symm hfits
    hfresh

end

private def inputOf (participantId : Str) : ConfigInput :=
  { sid := some "group-a".toList, sidToken := some "secret-token".toList, participantId := some participantId }

private def configOf (participantId : Str) : AppConfig where
  sid := "group-a".toList
  sidToken := "secret-token".toList
  participantId := participantId
  httpListenAddr := defaultHttpListenAddr
  udpAnnounceAddr := defaultUdpAnnounceAddr
  bootstrapPeers := []
  syncIntervalSecs := defaultSyncIntervalSecs
  publicKeyPath := defaultPublicKeyPath
  authorizedKeysPath := defaultAuthorizedKeysPath
  tlsCertPath := none
  tlsKeyPath := none
  tlsCaPath := none
  tlsServerName := none
  insecureNoTls := false
  dryRun := false

private theorem loadConfig_inputOf (participantId : Str) :
    loadConfig (fun _ => none) (fun _ => none) (inputOf participantId) .requireSyncConfig =
      .ok (some (configOf participantId)) := by
  rfl

private def keyA : Str := "ssh-ed25519 AAAA node-a".toList

private def sentA (participantId : Str) : SignedEnvelope :=
  signEnvelope .standard "group-a".toList "secret-token".toList participantId 1000 (nextNonce 1)
    .udpAnnouncement (announcementBody "group-a".toList participantId
      (advertisedAddress defaultHttpListenAddr participantId) 9922 keyA)

private theorem sentA_fits {participantId : Str}
    (h : participantId = "node-a".toList ∨ participantId = " node-a".toList) :
    (announcementDatagram (sentA participantId)).length ≤ udpBufferSize := by
  have hsignature : (utf8 (sentA participantId).signatureHex).length = 64 := length_signatureHex ..
  rw [announcementDatagram, length_of_signature hsignature]
  rcases h with rfl | rfl <;> decide +kernel

private def memberA : DiscoveryEngine :=
  .new "group-a".toList "secret-token".toList timestampSkewSecs nonceTtlSecs

private theorem normalizePublicKey_keyA : normalizePublicKey keyA = .ok keyA := by decide +kernel

private theorem sentA_built (participantId : Str) : memberA.buildStartupAnnouncement .standard participantId
    (advertisedAddress defaultHttpListenAddr participantId) 9922 keyA 1000 (nextNonce 1) =
      .ok (sentA participantId) :=
  DiscoveryEngine.buildStartupAnnouncement_eq_ok normalizePublicKey_keyA

private def recordA (participantId : Str) : PeerRecord :=
  ⟨participantId, advertisedAddress defaultHttpListenAddr participantId, 9922, keyA⟩

/-- A plain participant name is discovered. -/
theorem discovered_iff_plain :
    Delivered .standard memberA (announcementDatagram (sentA "node-a".toList)) 1000
      (recordA "node-a".toList) := by
  have hiff : Delivered .standard (memberA.after .standard [])
      (announcementDatagram (sentA "node-a".toList)) 1000 (recordA "node-a".toList) ↔
        Discoverable (configOf "node-a".toList) :=
    discovered_iff (loadConfig_inputOf "node-a".toList) (show memberA.sid = _ from rfl)
      (show memberA.sidToken = _ from rfl) normalizePublicKey_keyA (sentA_built "node-a".toList)
      (sentA_fits (Or.inl rfl)) (show EnvelopeVerifier.inWindow timestampSkewSecs 1000 1000 by decide)
      (show ¬ (memberA.after .standard []).verifier.Remembers (sentA "node-a".toList) 1000 by decide)
  exact hiff.mpr (by decide)

/-- A participant given with a leading blank is loaded and announced, and not discovered. -/
theorem padded_participant_undiscovered :
    let participantId := " node-a".toList
    let config := configOf participantId
    loadConfig (fun _ => none) (fun _ => none) (inputOf participantId) .requireSyncConfig = .ok (some config) ∧
    parsePort config.httpListenAddr = .ok 9922 ∧ normalizePublicKey keyA = .ok keyA ∧
    memberA.buildStartupAnnouncement .standard config.participantId
      (advertisedAddress config.httpListenAddr config.participantId) 9922 keyA 1000 (nextNonce 1) =
        .ok (sentA participantId) ∧
    (announcementDatagram (sentA participantId)).length ≤ udpBufferSize ∧
    EnvelopeVerifier.inWindow timestampSkewSecs 1000 1000 ∧
    ¬ memberA.verifier.Remembers (sentA participantId) 1000 ∧
    ¬ Delivered .standard memberA (announcementDatagram (sentA participantId)) 1000 (recordA participantId) := by
  intro participantId config
  refine ⟨loadConfig_inputOf _, by decide, normalizePublicKey_keyA, sentA_built _, sentA_fits (Or.inr rfl),
    by decide, by decide, fun h => ?_⟩
  have hdelivered : Delivered .standard ((DiscoveryEngine.new config.sid config.sidToken timestampSkewSecs
      nonceTtlSecs).after .standard []) (announcementDatagram (sentA participantId)) 1000
        ⟨config.participantId, advertisedAddress config.httpListenAddr config.participantId, 9922, keyA⟩ := h
  exact absurd (discoverable_of_delivered normalizePublicKey_keyA hdelivered) (by decide)

end SshKeySync.Runtime
