import SshKeySync.Runtime.Http

/-! One key exchange over the wire, from the request's text at the client through the
server's connection handler back to the payload the client reads. -/
namespace SshKeySync.Runtime
open RustStd Auth Transport Keys Records

/-- What is written for the outcome of a handler; the envelope's own status is not used. -/
def answer : Except TransportError SignedEnvelope → Bytes
  | .ok envelope => httpResponse 200 (utf8 (serializeEnvelope envelope))
  | .error _ => httpResponse 401 (utf8 "verification failed".toList)

def handleHttpConnection (P : Primitives) (service : HttpKeyExchangeService) (reads : List Bytes)
    (now : UInt64) (nonce : Str) : Except HttpFailure Bytes := do
  let (path, body) ← readHttpRequest reads
  match parseEnvelope body with
  | .error _ => .ok (httpResponse 400 (utf8 "invalid envelope".toList))
  | .ok envelope =>
    if path = pathGetPublicKey then .ok (answer (service.handleGetPublicKeyRequest P envelope now nonce))
    else if path = pathPublishParticipant then
      .ok (answer (service.handlePublishRequest P envelope now nonce))
    else .ok (httpResponse 404 (utf8 "not found".toList))

/-- A signature adds nothing unsafe to an envelope. -/
theorem wireEnvelope_signEnvelope (P : Primitives) {sid senderId nonce : Str} {context : MessageContext}
    (sidToken : Str) (timestampSecs : UInt64) (body : Bytes) (hsid : WireSafe sid)
    (hsender : WireSafe senderId) (hnonce : WireSafe nonce) (hcontext : WireContext context) :
    WireEnvelope (signEnvelope P sid sidToken senderId timestampSecs nonce context body) :=
  ⟨hsid, hsender, hnonce, wireSafe_of_whitespace_free (Hex.encode_whitespace_free _), hcontext⟩

def keyRequest (P : Primitives) (service : HttpKeyExchangeService) (senderId : Str)
    (timestampSecs : UInt64) (nonce : Str) : Str :=
  serializeEnvelope (service.buildGetPublicKeyRequest P senderId timestampSecs nonce)

/-- Between two members an exchange is lossless, however the request arrives in pieces. The
request is a string, whose bytes a `usize` counts. -/
theorem key_exchange_end_to_end (P : Primitives) {a b : HttpKeyExchangeService}
    {sid sidToken participantA participantB localA localB key : Str}
    (ha : HttpKeyExchangeService.new sid sidToken participantA localA = .ok a)
    (hb : HttpKeyExchangeService.new sid sidToken participantB localB = .ok b)
    (hkey : normalizePublicKey localB = .ok key) {senderId requestNonce responseNonce : Str}
    (hsid : WireSafe sid) (hsender : WireSafe senderId) (hparticipant : WireSafe participantB)
    (hrequestNonce : WireSafe requestNonce) (hresponseNonce : WireSafe responseNonce)
    (requestTime responseTime : UInt64) {address : Str} (port : UInt16) (haddress : '\n' ∉ address)
    (hlimit : (utf8 (requestHeader address port pathGetPublicKey
      (utf8 (keyRequest P a senderId requestTime requestNonce)).length)).length ≤ headerLimit)
    (hsize : (utf8 (httpRequest address port pathGetPublicKey
      (keyRequest P a senderId requestTime requestNonce))).length < UInt64.size)
    {reads : List Bytes} (hreads : ∀ chunk ∈ reads, chunk ≠ [])
    (htotal : reads.flatten = utf8 (httpRequest address port pathGetPublicKey
      (keyRequest P a senderId requestTime requestNonce))) :
    ∃ response text envelope, handleHttpConnection P b reads responseTime responseNonce = .ok response ∧
      responseBody response = .ok text ∧ parseEnvelope text = .ok envelope ∧
      a.verifyAndParsePublicKeyResponse P envelope = .ok ⟨sid, participantB, key⟩ := by
  obtain ⟨hsidA, htokenA, -, -⟩ := HttpKeyExchangeService.new_eq_ok ha
  obtain ⟨hsidB, htokenB, hparticipantB, hkeyB⟩ := HttpKeyExchangeService.new_eq_ok hb
  have hkeys : b.publicKey = key := Except.ok.inj (hkeyB.symm.trans hkey)
  have hpath : Word pathGetPublicKey ∧ WireSafe pathGetPublicKey := by decide
  have hread := readHttpRequest_httpRequest hpath.1 haddress hlimit hsize hreads []
    (htotal.trans (List.append_nil _).symm)
  have hrequest : parseEnvelope (keyRequest P a senderId requestTime requestNonce) = .ok _ :=
    parseEnvelope_serializeEnvelope (wireEnvelope_signEnvelope P _ _ _ (hsidA ▸ hsid) hsender
      hrequestNonce ⟨by decide, hpath.2⟩)
  have hhandled := HttpKeyExchangeService.handleGetPublicKeyRequest_build (P := P)
    (hsidB.trans hsidA.symm) (htokenB.trans htokenA.symm) senderId requestTime responseTime
    requestNonce responseNonce
  have hresponse : parseEnvelope (serializeEnvelope (b.publicKeyResponse P responseTime responseNonce)) =
      .ok _ := parseEnvelope_serializeEnvelope (wireEnvelope_signEnvelope P _ _ _ (hsidB ▸ hsid)
        (hparticipantB ▸ hparticipant) hresponseNonce hpath.2)
  have hverified := HttpKeyExchangeService.verifyAndParsePublicKeyResponse_publicKeyResponse (P := P)
    (hsidA.trans hsidB.symm) (htokenA.trans htokenB.symm) (hsidB ▸ hsid)
    (hparticipantB ▸ hparticipant) responseTime responseNonce
  refine ⟨_, _, _, ?_, responseBody_httpResponse 200 _, hresponse, ?_⟩
  · rw [handleHttpConnection, hread, ok_bind]
    simp only [hrequest]
    rw [if_pos trivial, hhandled, answer]
  · rw [← hsidB, ← hparticipantB, ← hkeys]
    exact hverified

def nodeA : HttpKeyExchangeService :=
  ⟨"group-a".toList, "secret-token".toList, "node-a".toList, "ssh-ed25519 AAAA node-a".toList, by decide⟩

def nodeB : HttpKeyExchangeService :=
  ⟨"group-a".toList, "secret-token".toList, "node-b".toList, "ssh-ed25519 BBBB node-b".toList, by decide⟩

def nodeC : HttpKeyExchangeService :=
  ⟨"group-a".toList, "secret-token".toList, "node-c".toList, "ssh-ed25519 CCCC node-c".toList, by decide⟩

private def requestText : Str := httpRequest "10.0.0.2".toList 2222 pathGetPublicKey
  (keyRequest .standard nodeA "node-b".toList 1000 "n-1".toList)

private theorem length_body : (utf8 (keyRequest .standard nodeA "node-b".toList 1000 "n-1".toList)).length = 237 := by
  have hsignature : (utf8 (nodeA.buildGetPublicKeyRequest .standard "node-b".toList 1000
    "n-1".toList).signatureHex).length = 64 := length_signatureHex ..
  rw [keyRequest, length_of_signature hsignature]
  decide +kernel

/-- The request arrives cut after its tenth byte. -/
theorem key_exchange_end_to_end_two_reads : ∃ response text envelope,
    handleHttpConnection .standard nodeB [(utf8 requestText).take 10, (utf8 requestText).drop 10] 1001
      "n-2".toList = .ok response ∧
    responseBody response = .ok text ∧ parseEnvelope text = .ok envelope ∧
    nodeA.verifyAndParsePublicKeyResponse .standard envelope =
      .ok ⟨"group-a".toList, "node-b".toList, "ssh-ed25519 BBBB node-b".toList⟩ := by
  have hA : HttpKeyExchangeService.new "group-a".toList "secret-token".toList "node-a".toList
      "ssh-ed25519 AAAA node-a".toList = .ok nodeA := rfl
  have hB : HttpKeyExchangeService.new "group-a".toList "secret-token".toList "node-b".toList
      " ssh-ed25519  BBBB node-b\n".toList = .ok nodeB := rfl
  have hkey : normalizePublicKey " ssh-ed25519  BBBB node-b\n".toList =
      .ok "ssh-ed25519 BBBB node-b".toList := by decide
  have hlength : 10 < (utf8 requestText).length ∧ (utf8 requestText).length < 600 := by
    rw [requestText, httpRequest, utf8_append, List.length_append, length_body]
    decide +kernel
  have hheader : (utf8 (requestHeader "10.0.0.2".toList 2222 pathGetPublicKey
      (utf8 (keyRequest .standard nodeA "node-b".toList 1000 "n-1".toList)).length)).length ≤
      (utf8 requestText).length := by
    rw [requestText, httpRequest, utf8_append, List.length_append]
    exact Nat.le_add_right _ _
  have hlimit : (600 : Nat) ≤ headerLimit ∧ 600 < UInt64.size := by decide
  have hreads : ∀ chunk ∈ [(utf8 requestText).take 10, (utf8 requestText).drop 10], chunk ≠ [] := by
    simp only [List.forall_mem_cons]
    refine ⟨?_, ?_, List.forall_mem_nil _⟩ <;> apply List.ne_nil_of_length_pos
    · rw [List.length_take]
      omega
    · rw [List.length_drop]
      omega
  exact key_exchange_end_to_end .standard hA hB hkey (by decide) (by decide) (by decide) (by decide)
    (by decide) 1000 1001 2222 (by decide) (by omega) (Nat.lt_trans hlength.2 hlimit.2) hreads
    (by simp [requestText])

end SshKeySync.Runtime
