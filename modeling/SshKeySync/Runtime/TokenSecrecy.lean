import SshKeySync.Runtime.DaemonRuns

/-! Where the token of a group shows. A daemon uses it as the key of its tags and for nothing else: with
another token that gives the same tags it starts alike, and does the same in every run. -/
namespace SshKeySync.Auth
open RustStd

/-- Each payload has one tag, under the one token and under the other. -/
structure SameTags (P P' : Primitives) (token token' : Str) : Prop where
  sha256 : P'.sha256 = P.sha256
  hmacSha256 : P'.hmacSha256 (utf8 token') = P.hmacSha256 (utf8 token)

def EnvelopeVerifier.withToken (v : EnvelopeVerifier) (token : Str) : EnvelopeVerifier := { v with sidToken := token }

section
variable {P P' : Primitives} {token token' : Str}

/-- With the same tags a payload has the same signature. -/
theorem SameTags.signEnvelope (h : SameTags P P' token token') (sid senderId : Str) (timestampSecs : UInt64)
    (nonce : Str) (context : MessageContext) (body : Bytes) :
    signEnvelope P' sid token' senderId timestampSecs nonce context body =
      signEnvelope P sid token senderId timestampSecs nonce context body := by
  simp only [Auth.signEnvelope, hmacSignatureHex, canonicalPayload, hashBodyHex, h.sha256, h.hmacSha256]

/-- With the same tags the same envelopes are accepted. -/
theorem SameTags.verifyEnvelope (h : SameTags P P' token token') (envelope : SignedEnvelope) (expectedSid : Str) :
    verifyEnvelope P' envelope token' expectedSid = verifyEnvelope P envelope token expectedSid := by
  rw [Auth.verifyEnvelope, Auth.verifyEnvelope, canonicalPayload, canonicalPayload, hashBodyHex, hashBodyHex,
    h.sha256, h.hmacSha256]

private theorem verify_withToken {v : EnvelopeVerifier} (h : SameTags P P' v.sidToken token')
    (envelope : SignedEnvelope) (nowSecs : UInt64) : (v.withToken token').verify P' envelope nowSecs =
      ((v.verify P envelope nowSecs).1, (v.verify P envelope nowSecs).2.withToken token') := by
  have hsame : Auth.verifyEnvelope P' envelope (v.withToken token').sidToken (v.withToken token').expectedSid =
      Auth.verifyEnvelope P envelope v.sidToken v.expectedSid := h.verifyEnvelope envelope v.expectedSid
  rw [EnvelopeVerifier.verify, EnvelopeVerifier.verify, hsame]
  cases Auth.verifyEnvelope P envelope v.sidToken v.expectedSid with
  | error error => rfl
  | ok u =>
    have hwindow : (v.withToken token').timestampSkewSecs = v.timestampSkewSecs := rfl
    have hseen : ((v.withToken token').pruneNonces nowSecs).seenNonces = (v.pruneNonces nowSecs).seenNonces := rfl
    dsimp only
    rw [hwindow, hseen]
    split
    · rfl
    · split <;> rfl

end
end SshKeySync.Auth

namespace SshKeySync.Discovery
open RustStd Auth

def DiscoveryEngine.withToken (d : DiscoveryEngine) (token : Str) : DiscoveryEngine :=
  { d with sidToken := token, verifier := d.verifier.withToken token }

namespace DiscoveryEngine
variable {P P' : Primitives} {token' : Str} {d : DiscoveryEngine}

private theorem recordPeer_withToken (token : Str) (announcement : DiscoveryAnnouncement) :
    (d.withToken token).recordPeer announcement =
      ((d.recordPeer announcement).1, (d.recordPeer announcement).2.withToken token) := by
  have hpeers : (d.withToken token).peers = d.peers := rfl
  rw [recordPeer, recordPeer, hpeers]
  cases d.peers.lookup announcement.participantId with
  | none => rfl
  | some existing =>
    dsimp only
    split <;> rfl

private theorem processAnnouncement_withToken (h : SameTags P P' d.verifier.sidToken token')
    (envelope : SignedEnvelope) (nowSecs : UInt64) : (d.withToken token').processAnnouncement P' envelope nowSecs =
      ((d.processAnnouncement P envelope nowSecs).1,
        (d.processAnnouncement P envelope nowSecs).2.withToken token') := by
  have hverify : (d.withToken token').verifier.verify P' envelope nowSecs = _ := verify_withToken h envelope nowSecs
  rw [processAnnouncement, processAnnouncement, hverify]
  split
  · rfl
  · obtain ⟨outcome, verifier⟩ := d.verifier.verify P envelope nowSecs
    cases outcome with
    | error error => rfl
    | ok u =>
      cases hpayload : parseAnnouncementPayload envelope.body with
      | error error => rfl
      | ok announcement =>
        have hrecord := recordPeer_withToken (d := { d with verifier }) token' announcement
        have hsid : (d.withToken token').sid = d.sid := rfl
        dsimp only
        rw [hsid]
        split
        · rfl
        · split
          · rfl
          · exact congrArg (fun next => (Except.ok next.1, next.2)) hrecord

private theorem addBootstrapPeers_withToken (token : Str) (bootstrapPeers : List Str) :
    (d.withToken token).addBootstrapPeers bootstrapPeers = (d.addBootstrapPeers bootstrapPeers).withToken token := by
  induction bootstrapPeers generalizing d with
  | nil => rfl
  | cons peer bootstrapPeers ih =>
    have hpeer : (d.withToken token).addBootstrapPeer peer = (d.addBootstrapPeer peer).withToken token := by
      rw [addBootstrapPeer, addBootstrapPeer]
      split <;> rfl
    rw [addBootstrapPeers_cons, addBootstrapPeers_cons, hpeer, ih]

end DiscoveryEngine
end SshKeySync.Discovery

namespace SshKeySync.Transport.HttpKeyExchangeService
open RustStd Auth Keys

def withToken (s : HttpKeyExchangeService) (token : Str) : HttpKeyExchangeService := { s with sidToken := token }

private theorem new_withToken (sid sidToken token participantId publicKey : Str) :
    new sid token participantId publicKey = (new sid sidToken participantId publicKey).map (withToken · token) := by
  rw [new, new]
  split <;> rfl

section
variable {P P' : Primitives} {token' : Str} {s : HttpKeyExchangeService} (h : SameTags P P' s.sidToken token')
include h

private theorem handleGetPublicKeyRequest_withToken (request : SignedEnvelope) (now : UInt64) (nonce : Str) :
    (s.withToken token').handleGetPublicKeyRequest P' request now nonce =
      s.handleGetPublicKeyRequest P request now nonce := by
  have hverify : verifyHttpRequest P' request (s.withToken token').sidToken (s.withToken token').sid =
      verifyHttpRequest P request s.sidToken s.sid := h.verifyEnvelope request s.sid
  have hanswer : (s.withToken token').publicKeyResponse P' now nonce = s.publicKeyResponse P now nonce :=
    h.signEnvelope ..
  rw [handleGetPublicKeyRequest, handleGetPublicKeyRequest, hverify, hanswer]

private theorem handlePublishRequest_withToken (request : SignedEnvelope) (now : UInt64) (nonce : Str) :
    (s.withToken token').handlePublishRequest P' request now nonce = s.handlePublishRequest P request now nonce := by
  have hverify : verifyHttpRequest P' request (s.withToken token').sidToken (s.withToken token').sid =
      verifyHttpRequest P request s.sidToken s.sid := h.verifyEnvelope request s.sid
  have hanswer (participantId : Str) : (s.withToken token').publishResponse P' participantId now nonce =
      s.publishResponse P participantId now nonce := h.signEnvelope ..
  simp only [handlePublishRequest, hverify, hanswer]

private theorem verifyAndParsePublicKeyResponse_withToken (response : SignedEnvelope) :
    (s.withToken token').verifyAndParsePublicKeyResponse P' response =
      s.verifyAndParsePublicKeyResponse P response := by
  have hverify : verifyHttpResponse P' response (s.withToken token').sidToken (s.withToken token').sid =
      verifyHttpResponse P response s.sidToken s.sid := h.verifyEnvelope response s.sid
  rw [verifyAndParsePublicKeyResponse, verifyAndParsePublicKeyResponse, hverify]

private theorem connectionReply_withToken (reads : List Bytes) (now : UInt64) (nonce : Str) :
    Runtime.connectionReply P' (s.withToken token') reads now nonce =
      Runtime.connectionReply P s reads now nonce := by
  simp only [Runtime.connectionReply, handleGetPublicKeyRequest_withToken h, handlePublishRequest_withToken h]

private theorem readAnswer_withToken (response : Option Bytes) :
    Runtime.readAnswer P' (s.withToken token') response = Runtime.readAnswer P s response := by
  simp only [Runtime.readAnswer, verifyAndParsePublicKeyResponse_withToken h]

end
end SshKeySync.Transport.HttpKeyExchangeService

namespace SshKeySync.Config

def AppConfig.withToken (config : AppConfig) (token : RustStd.Str) : AppConfig := { config with sidToken := token }

end SshKeySync.Config

namespace SshKeySync.Runtime.DaemonProcess
open RustStd Auth Transport Discovery Config AuthorizedKeys Keys Parties

def Daemon.withToken (d : Daemon) (token : Str) : Daemon where
  config := d.config.withToken token
  service := d.service.withToken token
  authorizedKeysPath := d.authorizedKeysPath
  httpPort := d.httpPort
  udpPort := d.udpPort
  sid_eq := d.sid_eq
  sidToken_eq := rfl
  participantId_eq := d.participantId_eq

def State.withToken (s : State) (token : Str) : State := { s with discovery := s.discovery.withToken token }

/-- What is seen of a daemon from outside: that it does not start, and why, or what it has handed to the
system after these events, if they are possible. -/
def observed {Cert Key : Type} (P : Primitives) (host : Host Cert Key) (config : AppConfig) (startedAt : UInt64)
    (events : List Event) : Except RuntimeError (Option (List Output)) := do
  let d ← startDaemon host config
  .ok ((runFrom P d startedAt events).map Prod.fst)

section
variable {P P' : Primitives} {token' : Str} {d : Daemon} {s s' : State} {e : Event} {out log : List Output}

private theorem Daemon.eq_of_parts {d d' : Daemon} (hprocess : d.toProcess = d'.toProcess)
    (hhttp : d.httpPort = d'.httpPort) (hudp : d.udpPort = d'.udpPort) : d = d' := by
  cases d
  cases d'
  obtain rfl := hprocess
  obtain rfl := hhttp
  obtain rfl := hudp
  rfl

private theorem Daemon.withToken_self (d : Daemon) : d.withToken d.config.sidToken = d := by
  have hservice : d.service.withToken d.config.sidToken = d.service := by
    rw [← d.sidToken_eq]
    rfl
  obtain ⟨⟨config, service, authorizedKeysPath⟩, httpPort, udpPort, hsid, htoken, hparticipant⟩ := d
  simp only [Daemon.withToken, AppConfig.withToken, hservice]

private theorem start_withToken (startedAt : UInt64) :
    (d.withToken token').start startedAt = (d.start startedAt).withToken token' := by
  have hboot := DiscoveryEngine.addBootstrapPeers_withToken (d := .new d.config.sid d.config.sidToken
    timestampSkewSecs nonceTtlSecs) token' d.config.bootstrapPeers
  rw [Daemon.start, Daemon.start, State.withToken]
  exact congrArg (State.mk · ∅ startedAt .starting) hboot

private theorem Steps.withToken (h : Steps P d s e out s') (hsame : SameTags P P' d.config.sidToken token')
    (hengine : s.discovery.withToken d.config.sidToken = s.discovery) :
    Steps P' (d.withToken token') (s.withToken token') e out (s'.withToken token') := by
  have hservice : SameTags P P' d.service.sidToken token' := d.sidToken_eq ▸ hsame
  have hverifier : s.discovery.verifier.sidToken = d.config.sidToken :=
    (congrArg (fun engine => engine.verifier.sidToken) hengine).symm
  have hannounce (nowSecs : UInt64) (nanos : Nat) : (d.withToken token').announcement P'
      (s.withToken token').discovery nowSecs nanos = d.announcement P s.discovery nowSecs nanos := by
    have htoken : s.discovery.sidToken = d.config.sidToken :=
      (congrArg (fun engine => engine.sidToken) hengine).symm
    rw [Daemon.announcement, Daemon.announcement, htoken]
    exact hsame.signEnvelope ..
  cases h with
  | @start nowSecs nanos hstage => exact hannounce nowSecs nanos ▸ .start hstage
  | replied hstage hreply =>
    exact .replied hstage ((HttpKeyExchangeService.connectionReply_withToken hservice ..).trans hreply)
  | dropped hstage hreply =>
    exact .dropped hstage ((HttpKeyExchangeService.connectionReply_withToken hservice ..).trans hreply)
  | panicked hstage hreply =>
    exact .panicked hstage ((HttpKeyExchangeService.connectionReply_withToken hservice ..).trans hreply)
  | served hstage => exact .served hstage
  | @received bytes nowSecs hstage =>
    have hnext : (s.received P bytes nowSecs).withToken token' = (s.withToken token').received P' bytes nowSecs := by
      rw [State.received, State.received, handleUdpAnnouncement, handleUdpAnnouncement]
      cases receivedEnvelope bytes with
      | none => rfl
      | some envelope =>
        have hprocess := DiscoveryEngine.processAnnouncement_withToken (hverifier ▸ hsame) envelope nowSecs
        exact congrArg (fun next => { s with discovery := next.2 }) hprocess.symm
    exact hnext ▸ .received hstage
  | polled hstage => exact .polled hstage
  | @posted began endpoint endpoints nowSecs nanos hstage =>
    have hrequest : (d.withToken token').keyRequestTo P' endpoint nowSecs nanos =
        d.keyRequestTo P endpoint nowSecs nanos := hservice.signEnvelope ..
    exact hrequest ▸ .posted hstage
  | @answered began endpoint endpoints response hstage =>
    have hnext : ({ s.answered P d endpoint response with stage := .ask began endpoints } : State).withToken token' =
        { (s.withToken token').answered P' (d.withToken token') endpoint response with
          stage := .ask began endpoints } := by
      have hread : readAnswer P' (d.withToken token').service response = readAnswer P d.service response :=
        HttpKeyExchangeService.readAnswer_withToken hservice response
      rw [State.answered, State.answered, hread]
      rfl
    exact hnext ▸ .answered hstage
  | unwritten hstage hdryRun => exact .unwritten hstage hdryRun
  | written hstage hdryRun hfile => exact .written hstage hdryRun hfile
  | refused hstage hdryRun hfile => exact .refused hstage hdryRun hfile
  | @announced began nowSecs nanos hstage => exact hannounce nowSecs nanos ▸ .announced hstage
  | paused hstage => exact .paused hstage

private theorem runFrom_of_steps {startedAt : UInt64} {events : List Event}
    (hrun : runFrom P d startedAt events = some (log, s)) (h : Steps P d s e out s') :
    runFrom P d startedAt (events ++ [e]) = some (log ++ out, s') := by
  have hnext : logged (step P d) (log, s) e = some (log ++ out, s') :=
    logged_eq_some_iff.mpr ⟨out, step_of_steps h, rfl⟩
  rw [runFrom, Runs.run_append, ← runFrom, hrun, Option.bind_some, Runs.run_cons, hnext]
  rfl

/-- A run of the daemon is one with the other token. With the same token again, this says that the engine
has kept it, which is what the step needs. -/
theorem runFrom_withToken {startedAt : UInt64} {events : List Event}
    (hrun : runFrom P d startedAt events = some (log, s)) : ∀ {P' token'}, SameTags P P' d.config.sidToken token' →
      runFrom P' (d.withToken token') startedAt events = some (log, s.withToken token') := by
  induction events using List.reverseRecOn generalizing log s with
  | nil =>
    cases hrun
    intro P' token' _
    rw [← start_withToken]
    rfl
  | append_singleton events e ih =>
    obtain ⟨earlier, mid, out, hmid, hsteps, rfl⟩ := runFrom_concat hrun
    intro P' token' hsame
    have hown : mid.withToken d.config.sidToken = mid := by
      have hagain := ih hmid (⟨rfl, rfl⟩ : SameTags P P d.config.sidToken d.config.sidToken)
      rw [d.withToken_self, hmid] at hagain
      exact (congrArg Prod.snd (Option.some.inj hagain)).symm
    exact runFrom_of_steps (ih hmid hsame) (hsteps.withToken hsame (congrArg State.discovery hown))

end

section
variable {Cert Key : Type} {host : Host Cert Key} {config : AppConfig}

private theorem startProcess_withToken (home : Option Str) (readFile : Str → Option Str) (token : Str) :
    startProcess home readFile (config.withToken token) = (fun started : Process × DiscoveryEngine =>
      (⟨config.withToken token, started.1.service.withToken token, started.1.authorizedKeysPath⟩,
        started.2.withToken token)) <$> startProcess home readFile config := by
  have hengine := DiscoveryEngine.addBootstrapPeers_withToken (d := .new config.sid config.sidToken
    timestampSkewSecs nonceTtlSecs) token config.bootstrapPeers
  rw [startProcess, startProcess, map_bind]
  refine bind_congr fun key => ?_
  have hnew := HttpKeyExchangeService.new_withToken config.sid config.sidToken token config.participantId key
  dsimp only [AppConfig.withToken]
  rw [hnew]
  cases HttpKeyExchangeService.new config.sid config.sidToken config.participantId key with
  | error error => rfl
  | ok service => exact congrArg (fun engine => Except.ok (_, engine)) hengine

def openPorts (host : Host Cert Key) (config : AppConfig) : Except RuntimeError (UInt16 × UInt16) := do
  let _ ← buildTransportSecurity host.rustls host.home host.openFile config
  let _ ← okOr (if host.bindsHttp config.httpListenAddr then some () else none) (.bindHttp config.httpListenAddr)
  let _ ← okOr (if host.bindsUdp config.udpAnnounceAddr then some () else none) (.bindUdp config.udpAnnounceAddr)
  let httpPort ← parsePort config.httpListenAddr
  let udpPort ← parsePort config.udpAnnounceAddr
  host.controlFiles
  .ok (httpPort, udpPort)

private theorem startDaemon_of_error {error : RuntimeError}
    (h : startProcess host.home host.readFile config = .error error) : startDaemon host config = .error error := by
  unfold startDaemon
  split
  · rename_i error' hstart
    cases hstart.symm.trans h
    rfl
  · rename_i hstart
    cases hstart.symm.trans h

private theorem startDaemon_of_ok {process : Process} {engine : DiscoveryEngine}
    (h : startProcess host.home host.readFile config = .ok (process, engine)) :
    ∃ f : UInt16 × UInt16 → Daemon, startDaemon host config = f <$> openPorts host config ∧
      ∀ ports, (f ports).toProcess = process ∧ (f ports).httpPort = ports.1 ∧ (f ports).udpPort = ports.2 := by
  obtain ⟨hconfig, hsid, htoken, hparticipant, -⟩ := startProcess_eq_ok h
  refine ⟨fun ports => { process with
    httpPort := ports.1
    udpPort := ports.2
    sid_eq := hconfig ▸ hsid
    sidToken_eq := hconfig ▸ htoken
    participantId_eq := hconfig ▸ hparticipant }, ?_, fun ports => ⟨rfl, rfl, rfl⟩⟩
  rw [openPorts]
  simp only [map_bind]
  unfold startDaemon
  split
  · rename_i hstart
    cases hstart.symm.trans h
  · rename_i hstart
    cases hstart.symm.trans h
    rfl

private theorem startDaemon_withToken (token : Str) : startDaemon host (config.withToken token) =
    (Daemon.withToken · token) <$> startDaemon host config := by
  have hprocess := @startProcess_withToken config host.home host.readFile token
  cases hstart : startProcess host.home host.readFile config with
  | error error =>
    rw [hstart] at hprocess
    rw [startDaemon_of_error hstart, startDaemon_of_error hprocess]
    rfl
  | ok started =>
    rw [hstart] at hprocess
    obtain ⟨f, hf, hparts⟩ := startDaemon_of_ok hstart
    obtain ⟨f', hf', hparts'⟩ := startDaemon_of_ok hprocess
    have hports : openPorts host (config.withToken token) = openPorts host config := rfl
    have hsame (ports : UInt16 × UInt16) : f' ports = (f ports).withToken token := by
      obtain ⟨hown, hhttp, hudp⟩ := hparts ports
      obtain ⟨hown', hhttp', hudp'⟩ := hparts' ports
      have hconfig : started.1.config = config := (startProcess_eq_ok hstart).1
      refine Daemon.eq_of_parts ?_ (hhttp'.trans hhttp.symm) (hudp'.trans hudp.symm)
      rw [hown', ← hconfig, ← hown]
      rfl
    rw [hf, hf', hports, ← comp_map]
    exact congrArg (· <$> openPorts host config) (funext hsame)

private theorem config_of_startDaemon {d : Daemon} (h : startDaemon host config = .ok d) : d.config = config := by
  cases hstart : startProcess host.home host.readFile config with
  | error error => cases (startDaemon_of_error hstart).symm.trans h
  | ok started =>
    obtain ⟨f, hf, hparts⟩ := startDaemon_of_ok hstart
    rw [hf] at h
    cases hports : openPorts host config with
    | error error =>
      rw [hports] at h
      cases h
    | ok ports =>
      rw [hports] at h
      obtain rfl : f ports = d := Except.ok.inj h
      rw [(hparts ports).1, (startProcess_eq_ok hstart).1]

/-- A start ends alike with both tokens, and a daemon that has started does the same. -/
theorem token_only_in_tags {P P' : Primitives} {token' : Str} (h : SameTags P P' config.sidToken token')
    (startedAt : UInt64) (events : List Event) :
    observed P' host (config.withToken token') startedAt events = observed P host config startedAt events := by
  have hback : SameTags P' P (config.withToken token').sidToken config.sidToken :=
    ⟨h.sha256.symm, h.hmacSha256.symm⟩
  rw [observed, observed, startDaemon_withToken]
  cases hstart : startDaemon host config with
  | error error => rfl
  | ok d =>
    obtain rfl := config_of_startDaemon hstart
    refine congrArg Except.ok (Option.ext fun log => ?_)
    simp only [Option.map_eq_some_iff]
    constructor
    · rintro ⟨⟨_, s⟩, hrun, rfl⟩
      have hown := runFrom_withToken hrun hback
      rw [show (d.withToken token').withToken d.config.sidToken = d from d.withToken_self] at hown
      exact ⟨_, hown, rfl⟩
    · rintro ⟨⟨_, s⟩, hrun, rfl⟩
      exact ⟨_, runFrom_withToken hrun h, rfl⟩

end

def hostA : Host Unit Unit where
  rustls := ⟨fun _ => .error [], fun _ => .error [], fun _ _ => .error [], fun _ => 0⟩
  home := none
  openFile path :=
    if path = "/root/.ssh/id_ed25519.pub".toList then some (utf8 "ssh-ed25519 AAAA node-a".toList) else none
  bindsHttp _ := true
  bindsUdp _ := true
  controlFiles := .ok ()

private theorem sameTags_zero : SameTags .standard .standard "secret-token".toList "secret-token\x00".toList := by
  have hlength : ¬ 64 < (utf8 "secret-token".toList).length ∧ ¬ 64 < (utf8 "secret-token\x00".toList).length := by
    decide +kernel
  have hblock : utf8 "secret-token\x00".toList ++ List.replicate (64 - (utf8 "secret-token\x00".toList).length) 0 =
      utf8 "secret-token".toList ++ List.replicate (64 - (utf8 "secret-token".toList).length) 0 := by
    decide +kernel
  refine ⟨rfl, funext fun message => ?_⟩
  dsimp only [Primitives.standard]
  rw [Sha256.hmac, Sha256.hmac, if_neg hlength.1, if_neg hlength.2, hblock]

/-- Two tokens that HMAC pads to the same block cannot be told apart. -/
theorem token_only_in_tags_zero :
    observed .standard hostA ((daemonA []).config.withToken "secret-token\x00".toList) 1000 [.announce 1000 1] =
      observed .standard hostA (daemonA []).config 1000 [.announce 1000 1] ∧
    observed .standard hostA (daemonA []).config 1000 [.announce 1000 1] = .ok (some
      [.broadcast ((daemonA []).announcement .standard ((daemonA []).start 1000).discovery 1000 1)]) := by
  refine ⟨token_only_in_tags sameTags_zero 1000 [.announce 1000 1], ?_⟩
  have hstart : startDaemon hostA (daemonA []).config = .ok (daemonA []) := rfl
  have hstep : Steps .standard (daemonA []) ((daemonA []).start 1000) (.announce 1000 1) _ _ := .start rfl
  rw [observed, hstart, ok_bind, ← List.nil_append [Event.announce 1000 1], runFrom_of_steps rfl hstep]
  rfl

end SshKeySync.Runtime.DaemonProcess
