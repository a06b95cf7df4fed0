import SshKeySync.Runtime.Exchange

/-! What a connection is answered with. The bytes are one of three fixed texts or an envelope that
was signed for it, and without an authentic request nothing of the service shows in them. -/
namespace SshKeySync.Runtime
open RustStd Auth Transport

inductive Reply where
  | invalidEnvelope
  | notFound
  | refused
  | signed (envelope : SignedEnvelope)
  deriving DecidableEq

def Reply.bytes : Reply → Bytes
  | .invalidEnvelope => httpResponse 400 (utf8 "invalid envelope".toList)
  | .notFound => httpResponse 404 (utf8 "not found".toList)
  | .refused => httpResponse 401 (utf8 "verification failed".toList)
  | .signed envelope => httpResponse 200 (utf8 (serializeEnvelope envelope))

def replyOf : Except TransportError SignedEnvelope → Reply
  | .ok envelope => .signed envelope
  | .error _ => .refused

/-- The envelope on a connection, with the path it was sent to. -/
def connectionRequest (reads : List Bytes) : Option (Str × SignedEnvelope) :=
  (readHttpRequest reads).toOption.bind fun request => (parseEnvelope request.2).toOption.map (request.1, ·)

section
variable (P : Primitives) (service : HttpKeyExchangeService) (reads : List Bytes)

def connectionReply (now : UInt64) (nonce : Str) : Except HttpFailure Reply := do
  let (path, body) ← readHttpRequest reads
  match parseEnvelope body with
  | .error _ => .ok .invalidEnvelope
  | .ok envelope =>
    if path = pathGetPublicKey then .ok (replyOf (service.handleGetPublicKeyRequest P envelope now nonce))
    else if path = pathPublishParticipant then
      .ok (replyOf (service.handlePublishRequest P envelope now nonce))
    else .ok .notFound

/-- A request of the group that a handler answers, and the envelope it signs. -/
inductive Answered (now : UInt64) (nonce : Str) : SignedEnvelope → Prop
  | key {request} (hread : connectionRequest reads = some (pathGetPublicKey, request))
      (hauth : service.Authentic P request)
      (hcontext : RequestContext request.context "POST".toList pathGetPublicKey) :
      Answered now nonce (service.publicKeyResponse P now nonce)
  | publish {request payload} (hread : connectionRequest reads = some (pathPublishParticipant, request))
      (hauth : service.Authentic P request)
      (hcontext : RequestContext request.context "POST".toList pathPublishParticipant)
      (hbody : HttpKeyExchangeService.PublishBody request.body payload) :
      Answered now nonce (service.publishResponse P payload.participantId now nonce)

/-- The connection carries no envelope that the group of the service has signed. -/
def Unauthenticated : Prop :=
  ∀ path request, connectionRequest reads = some (path, request) → ¬ service.Authentic P request

/-- The reply of a server that knows no group. -/
def strangerReply : Except HttpFailure Reply := do
  let (path, body) ← readHttpRequest reads
  match parseEnvelope body with
  | .error _ => .ok .invalidEnvelope
  | .ok _ => .ok (if path = pathGetPublicKey ∨ path = pathPublishParticipant then .refused else .notFound)

end

/-- Someone who chooses each connection after seeing what the earlier ones were answered with. -/
structure Client where
  reads : List (Except HttpFailure Bytes) → List Bytes
  now : Nat → UInt64
  nonce : Nat → Str

def transcript (P : Primitives) (service : HttpKeyExchangeService) (client : Client) :
    Nat → List (Except HttpFailure Bytes)
  | 0 => []
  | n + 1 =>
    let seen := transcript P service client n
    seen ++ [handleHttpConnection P service (client.reads seen) (client.now n) (client.nonce n)]

section
variable {P : Primitives} {service : HttpKeyExchangeService} {reads : List Bytes} {now : UInt64} {nonce : Str}

/-- A connection asks for something when its body is an envelope. -/
theorem connectionRequest_eq_some_iff {path : Str} {request : SignedEnvelope} :
    connectionRequest reads = some (path, request) ↔
      ∃ body, readHttpRequest reads = .ok (path, body) ∧ parseEnvelope body = .ok request := by
  rw [connectionRequest]
  cases readHttpRequest reads with
  | error failure => simp [Except.toOption]
  | ok pair =>
    cases hparse : parseEnvelope pair.2 with
    | error error => simp [Except.toOption, hparse, Prod.ext_iff]
    | ok envelope => simp [Except.toOption, hparse, Prod.ext_iff]

private theorem answer_eq (result : Except TransportError SignedEnvelope) :
    answer result = (replyOf result).bytes := by
  cases result <;> rfl

/-- The bytes on a connection are those of the reply. -/
theorem handleHttpConnection_eq :
    handleHttpConnection P service reads now nonce = (connectionReply P service reads now nonce).map Reply.bytes := by
  rw [handleHttpConnection, connectionReply]
  cases readHttpRequest reads with
  | error failure => rfl
  | ok pair =>
    rw [ok_bind, ok_bind]
    dsimp only
    cases parseEnvelope pair.2 with
    | error error => rfl
    | ok envelope =>
      dsimp only
      rw [answer_eq, answer_eq]
      split
      · rfl
      · split <;> rfl

private theorem connectionReply_of_unauthenticated (h : Unauthenticated P service reads) :
    connectionReply P service reads now nonce = strangerReply reads := by
  rw [connectionReply, strangerReply]
  cases hread : readHttpRequest reads with
  | error failure => rfl
  | ok pair =>
    rw [ok_bind, ok_bind]
    dsimp only
    cases hparse : parseEnvelope pair.2 with
    | error error => rfl
    | ok envelope =>
      have hnot := h pair.1 envelope (connectionRequest_eq_some_iff.mpr ⟨pair.2, hread, hparse⟩)
      have hget : replyOf (service.handleGetPublicKeyRequest P envelope now nonce) = .refused := by
        cases hresult : service.handleGetPublicKeyRequest P envelope now nonce with
        | error error => rfl
        | ok response => exact absurd (HttpKeyExchangeService.handleGetPublicKeyRequest_eq_ok_iff.mp hresult).1 hnot
      have hpublish : replyOf (service.handlePublishRequest P envelope now nonce) = .refused := by
        cases hresult : service.handlePublishRequest P envelope now nonce with
        | error error => rfl
        | ok response => exact absurd (HttpKeyExchangeService.handlePublishRequest_eq_ok_iff.mp hresult).1 hnot
      dsimp only
      rw [hget, hpublish]
      by_cases hpath : pair.1 = pathGetPublicKey
      · rw [if_pos hpath, if_pos (Or.inl hpath)]
      · by_cases hpath' : pair.1 = pathPublishParticipant
        · rw [if_neg hpath, if_pos hpath', if_pos (Or.inr hpath')]
        · rw [if_neg hpath, if_neg hpath', if_neg (not_or.mpr ⟨hpath, hpath'⟩)]

/-- An envelope is signed only for a request of the group, in answer to it. -/
theorem connectionReply_eq_signed_iff {envelope : SignedEnvelope} :
    connectionReply P service reads now nonce = .ok (.signed envelope) ↔
      Answered P service reads now nonce envelope := by
  have hpaths : pathPublishParticipant ≠ pathGetPublicKey := by decide
  have hsigned (result : Except TransportError SignedEnvelope) :
      replyOf result = .signed envelope ↔ result = .ok envelope := by
    cases result with
    | error error => exact iff_of_false nofun nofun
    | ok response => rw [replyOf, Reply.signed.injEq, Except.ok.injEq]
  constructor
  · intro h
    rw [connectionReply] at h
    obtain ⟨⟨path, body⟩, hread, h⟩ := bind_eq_ok.mp h
    dsimp only at h
    cases hparse : parseEnvelope body with
    | error error =>
      rw [hparse] at h
      cases h
    | ok request =>
      rw [hparse] at h
      dsimp only at h
      split at h
      · rename_i hpath
        subst hpath
        rw [Except.ok.injEq, hsigned] at h
        obtain ⟨hauth, hcontext, rfl⟩ := HttpKeyExchangeService.handleGetPublicKeyRequest_eq_ok_iff.mp h
        exact .key (connectionRequest_eq_some_iff.mpr ⟨body, hread, hparse⟩) hauth hcontext
      · split at h
        · rename_i hpath
          subst hpath
          rw [Except.ok.injEq, hsigned] at h
          obtain ⟨hauth, hcontext, payload, hbody, rfl⟩ := HttpKeyExchangeService.handlePublishRequest_eq_ok_iff.mp h
          exact .publish (connectionRequest_eq_some_iff.mpr ⟨body, hread, hparse⟩) hauth hcontext hbody
        · cases h
  · intro h
    cases h with
    | key hread hauth hcontext =>
      obtain ⟨body, hread, hparse⟩ := connectionRequest_eq_some_iff.mp hread
      rw [connectionReply, hread, ok_bind]
      dsimp only
      rw [hparse]
      dsimp only
      rw [if_pos rfl, Except.ok.injEq, hsigned]
      exact HttpKeyExchangeService.handleGetPublicKeyRequest_eq_ok_iff.mpr ⟨hauth, hcontext, rfl⟩
    | publish hread hauth hcontext hbody =>
      obtain ⟨body, hread, hparse⟩ := connectionRequest_eq_some_iff.mp hread
      rw [connectionReply, hread, ok_bind]
      dsimp only
      rw [hparse]
      dsimp only
      rw [if_neg hpaths, if_pos rfl, Except.ok.injEq, hsigned]
      exact HttpKeyExchangeService.handlePublishRequest_eq_ok_iff.mpr ⟨hauth, hcontext, _, hbody, rfl⟩

/-- Without an authentic request two servers of any groups cannot be told apart, whatever the
earlier answers make the client send. -/
theorem transcripts_agree {service' : HttpKeyExchangeService} {client : Client} {n : Nat}
    (h : ∀ k < n, Unauthenticated P service (client.reads (transcript P service client k)) ∧
      Unauthenticated P service' (client.reads (transcript P service client k))) :
    transcript P service client n = transcript P service' client n := by
  induction n with
  | zero => rfl
  | succ n ih =>
    obtain ⟨hn, hn'⟩ := h n (Nat.lt_succ_self n)
    have hseen := ih fun k hk => h k (Nat.lt_succ_of_lt hk)
    rw [transcript, transcript, ← hseen, handleHttpConnection_eq, handleHttpConnection_eq,
      connectionReply_of_unauthenticated hn, connectionReply_of_unauthenticated hn']

end

private def forgedRequest : SignedEnvelope :=
  ⟨nodeB.sid, nodeA.participantId, 1000, "n-1".toList, .httpRequest "POST".toList pathGetPublicKey, [], "?".toList⟩

private def forgedReads : List Bytes :=
  [utf8 (httpRequest "10.0.0.2".toList 2222 pathGetPublicKey (serializeEnvelope forgedRequest))]

private theorem connectionRequest_forgedReads :
    connectionRequest forgedReads = some (pathGetPublicKey, forgedRequest) := by
  refine connectionRequest_eq_some_iff.mpr ⟨serializeEnvelope forgedRequest, ?_, ?_⟩
  · refine readHttpRequest_httpRequest (by decide) (by decide) (by decide +kernel) (by decide +kernel) ?_ []
      (List.flatten_singleton.trans (List.append_nil _).symm)
    rw [forgedReads, List.forall_mem_singleton]
    decide +kernel
  · exact parseEnvelope_serializeEnvelope ⟨by decide, by decide, by decide, by decide, by decide, by decide⟩

private theorem unauthenticated_forgedReads (P : Primitives) (service : HttpKeyExchangeService) :
    Unauthenticated P service forgedReads := by
  intro path request hread hauth
  cases connectionRequest_forgedReads.symm.trans hread
  cases ((verifyEnvelope_ok_iff P).mp hauth).2

private def prober : Client where
  reads seen := if seen.isEmpty then [] else forgedReads
  now _ := 1000
  nonce _ := "n-2".toList

/-- A member and the member of another group answer a forged request alike. -/
theorem transcripts_agree_forged :
    transcript .standard nodeB prober 2 =
      transcript .standard { nodeC with sid := "group-z".toList, sidToken := "other-token".toList } prober 2 := by
  refine transcripts_agree fun k _ => ?_
  have hreads (seen : List (Except HttpFailure Bytes)) (service : HttpKeyExchangeService) :
      Unauthenticated .standard service (prober.reads seen) := by
    rw [show prober.reads seen = if seen.isEmpty then [] else forgedReads from rfl]
    split
    · exact nofun
    · exact unauthenticated_forgedReads .standard service
  exact ⟨hreads _ _, hreads _ _⟩

end SshKeySync.Runtime
