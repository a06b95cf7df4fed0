import SshKeySync.Runtime.DaemonRuns
import SshKeySync.Runtime.SignatureScope

/-! Any number of daemons, of any groups, on a network that delivers what it likes but cannot sign
for them. Every key that a daemon learns is the key of a daemon of its own group. -/
namespace SshKeySync.Runtime.DaemonProcess
open RustStd Auth Transport Discovery Config AuthorizedKeys Keys Parties

inductive Signs (P : Primitives) (d : Daemon) : SignedEnvelope → Prop
  | announcement (nowSecs nanos) : Signs P d (signEnvelope P d.config.sid d.config.sidToken
      d.config.participantId nowSecs (nextNonce nanos) .udpAnnouncement (announcementBody d.config.sid
        d.config.participantId d.advertised d.httpPort d.service.publicKey))
  | request (senderId nowSecs nanos) :
    Signs P d (d.service.buildGetPublicKeyRequest P senderId nowSecs (nextNonce nanos))
  | keyResponse (nowSecs nanos) : Signs P d (d.service.publicKeyResponse P nowSecs (nextNonce nanos))
  | publishResponse (participantId nowSecs nanos) :
    Signs P d (d.service.publishResponse P participantId nowSecs (nextNonce nanos))

def Daemon.record (d : Daemon) : PeerRecord :=
  ⟨d.config.participantId, d.advertised, d.httpPort, d.service.publicKey⟩

/-- The envelope that is read from what arrives. -/
def Event.envelope : Event → Option SignedEnvelope
  | .connection reads _ _ => (connectionRequest reads).map Prod.snd
  | .datagram bytes _ => receivedEnvelope bytes
  | .answer response => (answerEnvelope response).toOption
  | _ => none

section
variable {ι : Type} (P : Primitives) (d : ι → Daemon)

def SameGroup (i j : ι) : Prop :=
  (d j).config.sid = (d i).config.sid ∧ (d j).config.sidToken = (d i).config.sidToken

def GroupKey (i : ι) (key : Str) : Prop := ∃ j, SameGroup d i j ∧ key = (d j).service.publicKey

/-- An envelope that the group accepts has the signed string of one that a daemon with the token
has signed before, and its body if the two have one digest. -/
def Unforged (sent : List (ι × Output)) (i : ι) (e : Event) : Prop :=
  ∀ envelope, e.envelope = some envelope → (d i).service.Authentic P envelope →
    ∃ m ∈ sent, ∃ signed, m.2.signed = some signed ∧ (d m.1).config.sidToken = (d i).config.sidToken ∧
      signed.canonical P = envelope.canonical P ∧
      (P.sha256 signed.body = P.sha256 envelope.body → signed.body = envelope.body)

/-- The daemon's engine has its group, and what it has learnt comes from the group. -/
structure Owned (i : ι) (s : State) : Prop where
  member : s.discovery.Member (d i).config.sid (d i).config.sidToken timestampSkewSecs
  token : s.discovery.sidToken = (d i).config.sidToken
  peers : ∀ p r, s.discovery.peers.lookup p = some r → r.publicKey = [] ∨ ∃ j, SameGroup d i j ∧
    r.publicKey = (d j).service.publicKey ∧ (Discoverable (d j).config → r = (d j).record)
  keys : ∀ p key, s.managedKeys.lookup p = some key → GroupKey d i key

/-- The text has a block, and its lines are keys of the group. -/
def BlockOwned (i : ι) (content : Str) : Prop :=
  (∃ before after, lines content = before ++ managedBegin :: (managedLines (lines content) ++ managedEnd :: after)) ∧
    ∀ key ∈ managedLines (lines content), GroupKey d i key

/-- What a daemon hands to the system. -/
structure Proper (i : ι) (output : Output) : Prop where
  signed : ∀ envelope, output.signed = some envelope → Signs P (d i) envelope
  announces : ∀ envelope, output = .broadcast envelope → envelope.context = .udpAnnouncement
  installed : ∀ content, output = .install content → BlockOwned d i content

end

/-- The fields that two envelopes of one signed string have in common. -/
structure SameMessage (signed envelope : SignedEnvelope) : Prop where
  senderId : signed.senderId = envelope.senderId
  nonce : signed.nonce = envelope.nonce
  context : SameContext signed.context envelope.context
  body : signed.body = envelope.body

namespace Signs
variable {P : Primitives} {d : Daemon} {signed : SignedEnvelope}

/-- A daemon signs for its own group. -/
theorem sid_eq (h : Signs P d signed) : signed.sid = d.config.sid := by
  cases h with
  | announcement nowSecs nanos => rfl
  | _ => exact d.sid_eq

private theorem contextLine (h : Signs P d signed) : ContextLine signed.context := by
  have hpost : '\n' ∉ "POST".toList ∧ '\n' ∉ pathGetPublicKey := by decide
  have hpaths : '\n' ∉ pathGetPublicKey ∧ '\n' ∉ pathPublishParticipant := by decide
  cases h with
  | announcement nowSecs nanos => trivial
  | request senderId nowSecs nanos => exact hpost
  | keyResponse nowSecs nanos => exact hpaths.1
  | publishResponse participantId nowSecs nanos => exact hpaths.2

/-- A signed string determines its message, although nothing is asked of the texts in the
configuration that has signed it. -/
theorem message_eq (h : Signs P d signed) {envelope : SignedEnvelope} (hlines : SignedLines envelope)
    (hcolon : ColonFree envelope.context) (hcanonical : signed.canonical P = envelope.canonical P)
    (hsha : P.sha256 signed.body = P.sha256 envelope.body → signed.body = envelope.body) :
    d.config.sid = envelope.sid ∧ SameMessage signed envelope := by
  obtain ⟨hsid, hsender, -, hnonce, hcontext, hbody⟩ :=
    canonical_fields hlines (signedLines_of_canonical hlines h.contextLine hcanonical) hcanonical
  exact ⟨h.sid_eq.symm.trans hsid, hsender, hnonce, sameContext_of_canonicalContext hcolon hcontext, hsha hbody⟩

/-- A daemon announces itself under its own name. -/
theorem announced (h : Signs P d signed) (hcontext : SameContext signed.context .udpAnnouncement) :
    ∃ nowSecs nanos, signed = signEnvelope P d.config.sid d.config.sidToken d.config.participantId nowSecs
      (nextNonce nanos) .udpAnnouncement (announcementBody d.config.sid d.config.participantId d.advertised
        d.httpPort d.service.publicKey) := by
  cases h with
  | announcement nowSecs nanos => exact ⟨nowSecs, nanos, rfl⟩
  | _ => exact hcontext.elim

private theorem body_of_keyResponse (h : Signs P d signed)
    (hcontext : SameContext signed.context (.httpResponse 200 pathGetPublicKey)) :
    signed.body = Transport.serializePayload d.service.publicKeyEntries := by
  cases h with
  | keyResponse nowSecs nanos => rfl
  | publishResponse participantId nowSecs nanos =>
    have hstatus : (202 : UInt16) = 200 := hcontext.1
    exact absurd hstatus (by decide)
  | _ => exact hcontext.elim

end Signs

/-- The last field of an announcement is its key, whatever the fields before it hold. -/
theorem publicKey_of_announcementBody {sid participantId address key : Str} {port : UInt16}
    (hkey : normalizePublicKey key = .ok key) {a : DiscoveryAnnouncement}
    (h : parseAnnouncementPayload (announcementBody sid participantId address port key) = .ok a) :
    a.publicKey = key := by
  have hrow : Records.SafeRow ("public_key".toList, key) := Records.safeRow (by decide) (wireSafe_of_normalized hkey)
  simp only [parseAnnouncementPayload, Discovery.parsePayload, announcementBody, Discovery.serializePayload,
    fromUtf8_utf8, okOr_some, ok_bind, bind_eq_ok, okOr_eq_ok, mapErr_eq_ok] at h
  obtain ⟨payload, hpayload, _, -, _, -, _, -, _, -, _, -, keyText, htext, publicKey, hpublic, h⟩ := h
  have hlast : payload.lookup "public_key".toList = some key := Records.lookup_of_parseStrict_render_concat
    [("sid".toList, sid), ("participant_id".toList, participantId), ("address".toList, address),
      ("port".toList, decimal port.toNat)] hrow hpayload
  split at h
  · cases h
  · cases h
    obtain rfl := Option.some.inj (hlast.symm.trans htext)
    exact Except.ok.inj (hpublic.symm.trans hkey)

/-- The key that is read from a member's response is the member's. -/
theorem publicKey_of_response {service member : HttpKeyExchangeService} {P : Primitives} {envelope : SignedEnvelope}
    {payload : PublicKeyPayload} (hbody : envelope.body = Transport.serializePayload member.publicKeyEntries)
    (h : service.verifyAndParsePublicKeyResponse P envelope = .ok payload) :
    payload.publicKey = member.publicKey := by
  obtain ⟨-, -, fields, keyText, hfields, -, -, htext, hkey⟩ :=
    HttpKeyExchangeService.verifyAndParsePublicKeyResponse_eq_ok_iff.mp h
  have hrow : Records.SafeRow ("public_key".toList, member.publicKey) :=
    Records.safeRow (by decide) (wireSafe_of_normalized member.normalized)
  rw [hbody, Transport.parsePayload, Transport.serializePayload, fromUtf8_utf8, okOr_some, ok_bind] at hfields
  have hlast : fields.lookup "public_key".toList = some member.publicKey :=
    Records.lookup_of_parseStrict_render_concat
      [("sid".toList, member.sid), ("participant_id".toList, member.participantId)] hrow hfields
  obtain rfl := Option.some.inj (hlast.symm.trans htext)
  exact Except.ok.inj (hkey.symm.trans member.normalized)

section
variable {ι : Type} {P : Primitives} {d : ι → Daemon} {sent : List (ι × Output)} {i : ι}

private theorem signedLines_of_event {e : Event} {envelope : SignedEnvelope} (h : e.envelope = some envelope) :
    SignedLines envelope := by
  have hparsed {text : Str} (h : (parseEnvelope text).toOption = some envelope) : SignedLines envelope := by
    cases hparse : parseEnvelope text with
    | error error =>
      rw [hparse] at h
      cases h
    | ok parsed =>
      rw [hparse] at h
      cases h
      exact signedLines_of_parseEnvelope hparse
  cases e with
  | connection reads nowSecs nanos =>
    obtain ⟨⟨path, request⟩, hread, rfl⟩ := Option.map_eq_some_iff.mp h
    obtain ⟨body, -, hparse⟩ := connectionRequest_eq_some_iff.mp hread
    exact signedLines_of_parseEnvelope hparse
  | datagram bytes nowSecs =>
    obtain ⟨text, -, htext⟩ := Option.bind_eq_some_iff.mp h
    exact hparsed htext
  | answer response =>
    rw [Event.envelope, answerEnvelope] at h
    cases response with
    | none => cases h
    | some response =>
      rw [okOr_some, ok_bind] at h
      cases hbody : responseBody response with
      | error failure =>
        rw [hbody] at h
        cases h
      | ok text =>
        rw [hbody, mapErr_ok, ok_bind] at h
        have htext : (mapErr (parseEnvelope text) RuntimeError.parseEnvelope).toOption =
            (parseEnvelope text).toOption := by
          cases parseEnvelope text <;> rfl
        exact hparsed (htext ▸ h)
  | _ => cases h

private theorem origin (hsent : ∀ m ∈ sent, Proper P d m.1 m.2) {e : Event} (hexplained : Unforged P d sent i e)
    {envelope : SignedEnvelope} (hread : e.envelope = some envelope)
    (hauth : (d i).service.Authentic P envelope) (hcolon : ColonFree envelope.context) :
    ∃ j signed, SameGroup d i j ∧ Signs P (d j) signed ∧ SameMessage signed envelope := by
  obtain ⟨⟨j, output⟩, hmem, signed, hsigned, htoken, hcanonical, hsha⟩ := hexplained envelope hread hauth
  have hsigns := (hsent _ hmem).signed signed hsigned
  obtain ⟨hsid, hsame⟩ := hsigns.message_eq (signedLines_of_event hread) hcolon hcanonical hsha
  have hexpected := ((verifyEnvelope_ok_iff P).mp hauth).1
  exact ⟨j, signed, ⟨hsid.trans (hexpected.trans (d i).sid_eq), htoken⟩, hsigns, hsame⟩

/-- An announcement that is admitted is that of a daemon of the group. -/
theorem admitted_origin (hsent : ∀ m ∈ sent, Proper P d m.1 m.2) {bytes : Bytes} {nowSecs : UInt64}
    (hexplained : Unforged P d sent i (.datagram bytes nowSecs)) {envelope : SignedEnvelope}
    (hread : receivedEnvelope bytes = some envelope) {engine : DiscoveryEngine}
    (hmember : engine.Member (d i).config.sid (d i).config.sidToken timestampSkewSecs)
    (hadmits : engine.Admits P envelope nowSecs) : ∃ j nanos, SameGroup d i j ∧
      envelope.senderId = (d j).config.participantId ∧ envelope.nonce = nextNonce nanos ∧
      envelope.body = announcementBody (d j).config.sid (d j).config.participantId (d j).advertised
        (d j).httpPort (d j).service.publicKey := by
  obtain ⟨hcontext, hverified⟩ := hadmits
  have hauth := EnvelopeVerifier.authentic_of_verify P hverified
  rw [hmember.token_eq, hmember.expectedSid_eq, ← (d i).sid_eq, ← (d i).sidToken_eq] at hauth
  obtain ⟨j, signed, hgroup, hsigns, hsame⟩ := origin hsent hexplained hread hauth (hcontext ▸ trivial)
  obtain ⟨sentSecs, nanos, rfl⟩ := hsigns.announced (hcontext ▸ hsame.context)
  exact ⟨j, nanos, hgroup, hsame.senderId.symm, hsame.nonce.symm, hsame.body.symm⟩

/-- A record that is heard is one that a daemon of the group has announced. -/
theorem heard_origin (hsent : ∀ m ∈ sent, Proper P d m.1 m.2) {bytes : Bytes} {nowSecs : UInt64}
    (hexplained : Unforged P d sent i (.datagram bytes nowSecs)) {envelope : SignedEnvelope}
    (hread : receivedEnvelope bytes = some envelope) {engine : DiscoveryEngine}
    (hmember : engine.Member (d i).config.sid (d i).config.sidToken timestampSkewSecs) {r : PeerRecord}
    (hheard : engine.heard P envelope nowSecs = some r) : ∃ j, SameGroup d i j ∧
      r.publicKey = (d j).service.publicKey ∧ (Discoverable (d j).config → r = (d j).record) := by
  obtain ⟨hadmits, a, hparse, hsid, rfl, -⟩ := DiscoveryEngine.heard_eq_some hheard
  obtain ⟨j, nanos, hgroup, -, -, hbody⟩ := admitted_origin hsent hexplained hread hmember hadmits
  rw [hbody] at hparse
  refine ⟨j, hgroup, publicKey_of_announcementBody (d j).service.normalized hparse, fun h => ?_⟩
  have hsafe := (wireSafe_of_parse hparse).1
  rw [hsid, hmember.sid_eq, ← hgroup.1] at hsafe
  have hsent := parseAnnouncementPayload_announcementBody ⟨hsafe, h.participantId, h.address⟩ (d j).httpPort
    (d j).service.normalized
  rw [show advertisedAddress (d j).config.httpListenAddr (d j).config.participantId = (d j).advertised from rfl,
    hparse] at hsent
  cases hsent
  rfl

private theorem sidToken_processAnnouncement (engine : DiscoveryEngine) (envelope : SignedEnvelope)
    (nowSecs : UInt64) : (engine.processAnnouncement P envelope nowSecs).2.sidToken = engine.sidToken := by
  by_cases ha : engine.Admits P envelope nowSecs
  · rw [DiscoveryEngine.processAnnouncement_of_admits ha]
    cases readAnnouncement engine.sid envelope.body with
    | error result => rfl
    | ok a =>
      dsimp only
      rw [DiscoveryEngine.recordPeer_with_verifier]
      rcases DiscoveryEngine.recordPeer_cases engine a with ⟨-, h⟩ | ⟨-, h⟩ <;> rw [h]
  · obtain ⟨v, -, heq⟩ := DiscoveryEngine.processAnnouncement_of_not_admits ha
    rw [heq]

private theorem owned_received (hsent : ∀ m ∈ sent, Proper P d m.1 m.2) {bytes : Bytes} {nowSecs : UInt64}
    (hexplained : Unforged P d sent i (.datagram bytes nowSecs)) {s : State} (h : Owned d i s) :
    Owned d i (s.received P bytes nowSecs) := by
  cases hread : receivedEnvelope bytes with
  | none =>
    rw [State.received, handleUdpAnnouncement, hread]
    exact ⟨h.member, h.token, h.peers, h.keys⟩
  | some envelope =>
    rw [State.received, handleUdpAnnouncement, hread]
    refine ⟨h.member.perform (.processAnnouncement envelope nowSecs),
      (sidToken_processAnnouncement ..).trans h.token, fun p r hr => ?_, h.keys⟩
    dsimp only at hr
    cases hheard : s.discovery.heard P envelope nowSecs with
    | none =>
      rw [(DiscoveryEngine.processAnnouncement_of_not_heard hheard).2.1] at hr
      exact h.peers p r hr
    | some announced =>
      have horigin := heard_origin hsent hexplained hread h.member hheard
      rcases DiscoveryEngine.processAnnouncement_of_heard hheard with ⟨-, -, hpeers, -⟩ | ⟨-, -, hpeers, -⟩
      · rw [hpeers] at hr
        exact h.peers p r hr
      · rw [hpeers, HashMap.lookup_insert] at hr
        split at hr
        · cases hr
          exact Or.inr horigin
        · exact h.peers p r hr

private theorem blockOwned_of_keys {s : State} (h : Owned d i s) {order : HashMap.Iteration Str} {text content : Str}
    (hupsert : upsertManagedBlock text (HashMap.iterate order s.managedKeys) = .ok content) :
    BlockOwned d i content := by
  obtain ⟨-, -, hlines⟩ := lines_upsert hupsert
  rw [BlockOwned, managedLines_upsert hupsert]
  refine ⟨⟨_, _, hlines⟩, fun key hkey => ?_⟩
  obtain ⟨source, hsource, hnormal⟩ := mem_normalizedKeys.mp hkey
  obtain ⟨p, hp⟩ := HashMap.mem_iterate.mp hsource
  obtain ⟨j, hgroup, rfl⟩ := h.keys p source hp
  exact ⟨j, hgroup, Except.ok.inj (hnormal.symm.trans (d j).service.normalized)⟩

private theorem answer_origin (hsent : ∀ m ∈ sent, Proper P d m.1 m.2) {response : Option Bytes}
    (hexplained : Unforged P d sent i (.answer response)) {payload : PublicKeyPayload}
    (h : readAnswer P (d i).service response = .ok payload) : GroupKey d i payload.publicKey := by
  obtain ⟨envelope, hread, hverified⟩ := readAnswer_eq_ok_iff.mp h
  obtain ⟨hauth, hcontext, -⟩ := HttpKeyExchangeService.verifyAndParsePublicKeyResponse_eq_ok_iff.mp hverified
  have hevent : (Event.answer response).envelope = some envelope := by
    rw [Event.envelope, hread]
    rfl
  obtain ⟨j, signed, hgroup, hsigns, hsame⟩ := origin hsent hexplained hevent hauth (hcontext ▸ trivial)
  have hbody := hsigns.body_of_keyResponse (hcontext ▸ hsame.context)
  exact ⟨j, hgroup, publicKey_of_response (hsame.body.symm.trans hbody) hverified⟩

private theorem owned_step (hsent : ∀ m ∈ sent, Proper P d m.1 m.2) {e : Event} (hexplained : Unforged P d sent i e)
    {s s' : State} {out : List Output} (h : Owned d i s) (hsteps : Steps P (d i) s e out s') :
    Owned d i s' ∧ ∀ output ∈ out, Proper P d i output := by
  have hunsigned {output : Output} (houtput : output.signed = none)
      (hinstall : ∀ content, output = .install content → BlockOwned d i content) :
      ∀ m ∈ [output], Proper P d i m := by
    refine List.forall_mem_singleton.mpr ⟨fun envelope h' => ?_, fun envelope h' => ?_, hinstall⟩
    · cases houtput.symm.trans h'
    · rw [h'] at houtput
      cases houtput
  have hsigned {output : Output} {envelope : SignedEnvelope} (houtput : output.signed = some envelope)
      (hsigns : Signs P (d i) envelope)
      (hannounces : ∀ envelope, output = .broadcast envelope → envelope.context = .udpAnnouncement) :
      ∀ m ∈ [output], Proper P d i m := by
    refine List.forall_mem_singleton.mpr ⟨fun envelope' h' => ?_, hannounces, fun content hc => ?_⟩
    · obtain rfl := Option.some.inj (houtput.symm.trans h')
      exact hsigns
    · rw [hc] at houtput
      cases houtput
  have hbroadcast {envelope : SignedEnvelope} (h' : envelope.context = .udpAnnouncement) (announced : SignedEnvelope)
      (houtput : Output.broadcast envelope = .broadcast announced) : announced.context = .udpAnnouncement :=
    Output.broadcast.inj houtput ▸ h'
  have hannounced (nowSecs : UInt64) (nanos : Nat) :
      Signs P (d i) ((d i).announcement P s.discovery nowSecs nanos) := by
    rw [Daemon.announcement, h.member.sid_eq, h.token]
    exact .announcement nowSecs nanos
  have hsame {stage : Stage} {nextSyncAt : UInt64} : Owned d i { s with stage, nextSyncAt } :=
    ⟨h.member, h.token, h.peers, h.keys⟩
  cases hsteps with
  | start hstage => exact ⟨hsame, hsigned rfl (hannounced _ _) (hbroadcast rfl)⟩
  | @replied reads nowSecs nanos response hstage hreply =>
    refine ⟨h, ?_⟩
    cases response with
    | signed envelope =>
      refine hsigned rfl ?_ nofun
      cases connectionReply_eq_signed_iff.mp hreply with
      | key _ _ _ => exact .keyResponse nowSecs nanos
      | publish _ _ _ _ => exact .publishResponse _ nowSecs nanos
    | _ => exact hunsigned rfl nofun
  | dropped hstage hreply => exact ⟨h, List.forall_mem_nil _⟩
  | panicked hstage hreply => exact ⟨hsame, List.forall_mem_nil _⟩
  | served hstage => exact ⟨hsame, List.forall_mem_nil _⟩
  | received hstage => exact ⟨owned_received hsent hexplained h, List.forall_mem_nil _⟩
  | polled hstage =>
    exact ⟨⟨h.member.perform (P := P) .takeSyncTrigger, h.token, h.peers, h.keys⟩, List.forall_mem_nil _⟩
  | posted hstage => exact ⟨hsame, hsigned rfl (.request _ _ _) nofun⟩
  | @answered began endpoint endpoints response hstage =>
    refine ⟨⟨h.member, h.token, h.peers, fun p key hkey => ?_⟩, List.forall_mem_nil _⟩
    cases hread : readAnswer P (d i).service response with
    | error error =>
      rw [State.answered, hread] at hkey
      exact h.keys p key hkey
    | ok payload =>
      rw [State.answered, hread, HashMap.lookup_insert] at hkey
      split at hkey
      · cases hkey
        exact answer_origin hsent hexplained hread
      · exact h.keys p key hkey
  | unwritten hstage hdryRun => exact ⟨hsame, List.forall_mem_nil _⟩
  | written hstage hdryRun hfile =>
    obtain ⟨-, text, -, hupsert⟩ := Daemon.applyManagedBlock_eq_ok_iff.mp hfile
    refine ⟨hsame, hunsigned rfl fun content hc => ?_⟩
    cases hc
    exact blockOwned_of_keys h hupsert
  | refused hstage hdryRun hfile => exact ⟨hsame, List.forall_mem_nil _⟩
  | announced hstage => exact ⟨hsame, hsigned rfl (hannounced _ _) (hbroadcast rfl)⟩
  | paused hstage => exact ⟨hsame, List.forall_mem_nil _⟩

/-- A step of one daemon is a step of the group. -/
theorem act_of_steps [DecidableEq ι] {w : World ι State Output} {e : Event} {out : List Output} {s' : State}
    (h : Steps P (d i) (w.state i) e out s') :
    act (fun i => step P (d i)) w (i, e) = some (w.set i (out, s')) :=
  congrArg (Option.map (w.set i)) (step_of_steps h)

def groupStart (d : ι → Daemon) (startedAt : ι → UInt64) : World ι State Output :=
  ⟨fun i => (d i).start (startedAt i), []⟩

private theorem sidToken_addBootstrapPeers (engine : DiscoveryEngine) (bootstrapPeers : List Str) :
    (engine.addBootstrapPeers bootstrapPeers).sidToken = engine.sidToken := by
  induction bootstrapPeers generalizing engine with
  | nil => rfl
  | cons peer bootstrapPeers ih =>
    rw [DiscoveryEngine.addBootstrapPeers_cons, ih]
    cases hr : bootstrapRecord peer with
    | none => rw [DiscoveryEngine.addBootstrapPeer_of_none hr]
    | some r => rw [DiscoveryEngine.addBootstrapPeer_of_record hr]

private theorem owned_start (startedAt : UInt64) : Owned d i ((d i).start startedAt) where
  member := (DiscoveryEngine.member_new _ _ _ _).perform (P := .standard) (.addBootstrapPeers _)
  token := sidToken_addBootstrapPeers ..
  peers p r hr := by
    have hbootstrap : r ∈ (DiscoveryEngine.new (d i).config.sid (d i).config.sidToken timestampSkewSecs
        nonceTtlSecs).announced .standard [.addBootstrapPeers (d i).config.bootstrapPeers] ∨ r.publicKey = [] :=
      DiscoveryEngine.heard_or_bootstrap _ _ _ _ hr
    exact Or.inl (hbootstrap.resolve_left List.not_mem_nil)
  keys p key hkey := by cases hkey

/-- Nothing has been sent or stored at the start. -/
theorem sound_groupStart (startedAt : ι → UInt64) : (groupStart d startedAt).Sound (Owned d) (Proper P d) :=
  ⟨fun i => owned_start (startedAt i), List.forall_mem_nil _⟩

/-- A step that is not handed a forged envelope keeps the group sound. -/
theorem sound_act [DecidableEq ι] {w w' : World ι State Output} {e : ι × Event} (h : w.Sound (Owned d) (Proper P d))
    (hexplained : Unforged P d w.sent e.1 e.2) (hact : act (fun i => step P (d i)) w e = some w') :
    w'.Sound (Owned d) (Proper P d) :=
  h.act (fun _ _ hs hstep => owned_step h.sent hexplained hs (steps_of_step hstep)) hact

/-- In any run of any daemons, as long as nobody forges a tag, every key in a peer table, in a map
or in a block that is written is the key of a daemon with the same SID and token. -/
theorem group_keys_owned [DecidableEq ι] {startedAt : ι → UInt64} {events : List (ι × Event)}
    {w : World ι State Output}
    (hguard : Runs.Guarded (act fun i => step P (d i)) (fun w e => Unforged P d w.sent e.1 e.2)
      (groupStart d startedAt) events)
    (hrun : Runs.run (act fun i => step P (d i)) (groupStart d startedAt) events = some w) :
    (∀ i, Owned d i (w.state i)) ∧ ∀ i content, (i, Output.install content) ∈ w.sent → BlockOwned d i content := by
  have hsound : w.Sound (Owned d) (Proper P d) :=
    Runs.invariant_run (fun _ _ _ => sound_act) (sound_groupStart startedAt) hguard hrun
  exact ⟨hsound.state, fun i content hm => (hsound.sent _ hm).installed content rfl⟩

end

section
variable {ι : Type} {P : Primitives} {d : ι → Daemon} {sent : List (ι × Output)} {i : ι}

/-- An event without an envelope has nothing forged. -/
theorem unforged_of_unread {e : Event} (h : e.envelope = none) : Unforged P d sent i e := by
  intro envelope henvelope
  cases h.symm.trans henvelope

/-- What a daemon with the token has sent is not forged. -/
theorem unforged_of_sent {e : Event} {envelope : SignedEnvelope} (hread : e.envelope = some envelope)
    {m : ι × Output} (hm : m ∈ sent) (hsigned : m.2.signed = some envelope)
    (htoken : (d m.1).config.sidToken = (d i).config.sidToken) : Unforged P d sent i e := by
  intro received hreceived _
  obtain rfl := Option.some.inj (hread.symm.trans hreceived)
  exact ⟨m, hm, envelope, hsigned, htoken, rfl, fun _ => rfl⟩

private theorem sent_of_start [DecidableEq ι] {w w' : World ι State Output} {nowSecs : UInt64} {nanos : Nat}
    (hstage : (w.state i).stage = .starting)
    (h : act (fun i => step P (d i)) w (i, .announce nowSecs nanos) = some w') :
    (i, .broadcast ((d i).announcement P (w.state i).discovery nowSecs nanos)) ∈ w'.sent := by
  obtain ⟨⟨out, s'⟩, hstep, rfl⟩ := Option.map_eq_some_iff.mp h
  cases steps_of_step hstep with
  | start _ => exact List.mem_append_right _ (List.mem_singleton_self _)
  | announced hlater => cases hstage.symm.trans hlater

end

def daemonB : Daemon where
  config := { (startedA []).config with
    participantId := nodeB.participantId
    httpListenAddr := "10.0.0.2:2222".toList }
  service := nodeB
  authorizedKeysPath := "/root/.ssh/authorized_keys".toList
  httpPort := 2222
  udpPort := 8889
  sid_eq := rfl
  sidToken_eq := rfl
  participantId_eq := rfl

/-- Two members, of which the one has this bootstrap list. -/
def pair (bootstrapPeers : List Str) : Bool → Daemon
  | false => daemonA bootstrapPeers
  | true => daemonB

/-- The two daemons have one group and token. -/
theorem sameGroup_pair (bootstrapPeers : List Str) (a b : Bool) : SameGroup (pair bootstrapPeers) a b := by
  have hsid (b : Bool) : (pair bootstrapPeers b).config.sid = "group-a".toList := by cases b <;> rfl
  have htoken (b : Bool) : (pair bootstrapPeers b).config.sidToken = "secret-token".toList := by cases b <;> rfl
  exact ⟨(hsid b).trans (hsid a).symm, (htoken b).trans (htoken a).symm⟩

def announcedB : SignedEnvelope := daemonB.announcement .standard (daemonB.start 1000).discovery 1000 1

private def pairEvents : List (Bool × Event) :=
  [(true, .announce 1000 1), (false, .announce 1000 2), (false, .noConnection),
    (false, .datagram (announcementDatagram announcedB) 1000)]

theorem announcedB_fits : (announcementDatagram announcedB).length ≤ udpBufferSize := by
  have hsignature : (utf8 announcedB.signatureHex).length = 64 := length_signatureHex ..
  rw [announcementDatagram, length_of_signature hsignature]
  decide +kernel

theorem receivedEnvelope_announcedB : receivedEnvelope (announcementDatagram announcedB) = some announcedB :=
  receivedEnvelope_announcementDatagram (wireEnvelope_signEnvelope _ _ _ _ (by decide) (by decide)
    (wireSafe_nextNonce 1) trivial) announcedB_fits

private theorem guarded_pairEvents : Runs.Guarded (act fun i => step .standard (pair [] i))
    (fun w e => Unforged .standard (pair []) w.sent e.1 e.2) (groupStart (pair []) fun _ => 1000) pairEvents := by
  refine ⟨unforged_of_unread rfl, fun w₁ h₁ => ⟨unforged_of_unread rfl, fun w₂ h₂ =>
    ⟨unforged_of_unread rfl, fun w₃ h₃ => ⟨?_, fun _ _ => trivial⟩⟩⟩⟩
  have hsent : (true, Output.broadcast announcedB) ∈ w₁.sent := sent_of_start rfl h₁
  exact unforged_of_sent receivedEnvelope_announcedB (mem_sent_of_act h₃ (mem_sent_of_act h₂ hsent)) rfl
    (sameGroup_pair [] false true).2

/-- What a member knows after it has heard another comes from the group. -/
theorem group_keys_owned_pair : ∃ w, Runs.run (act fun i => step .standard (pair [] i))
    (groupStart (pair []) fun _ => 1000) pairEvents = some w ∧ Owned (pair []) false (w.state false) := by
  obtain ⟨w, hrun⟩ : ∃ w, Runs.run (act fun i => step .standard (pair [] i)) (groupStart (pair []) fun _ => 1000)
    pairEvents = some w := ⟨_, rfl⟩
  exact ⟨w, hrun, (group_keys_owned guarded_pairEvents hrun).1 false⟩

end SshKeySync.Runtime.DaemonProcess
