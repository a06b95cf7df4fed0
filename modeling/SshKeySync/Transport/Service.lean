import SshKeySync.Auth.Envelope
import SshKeySync.Keys.PublicKey

/-! The HTTP key exchange service: signed requests and responses with their contexts,
their `key=value` payloads, and exactly when each handler answers. -/
namespace SshKeySync.Transport
open RustStd Auth Keys

def pathGetPublicKey : Str := "/v1/keys/get".toList
def pathPublishParticipant : Str := "/v1/participants/publish".toList

structure KeyExchangeHttpRequest where
  path : Str
  senderId : Str
  timestampSecs : UInt64
  nonce : Str
  body : Bytes
  deriving DecidableEq

structure KeyExchangeHttpResponse where
  path : Str
  statusCode : UInt16
  senderId : Str
  timestampSecs : UInt64
  nonce : Str
  body : Bytes
  deriving DecidableEq

structure PublicKeyPayload where
  sid : Str
  participantId : Str
  publicKey : Str
  deriving DecidableEq

structure ParticipantPublishPayload where
  participantId : Str
  address : Str
  port : UInt16
  publicKey : Str
  deriving DecidableEq

inductive TransportError where
  | auth (error : AuthError)
  | unexpectedContext
  | invalidPayload
  | missingPayloadField (field : Str)
  deriving DecidableEq

/-- The fields are private and `new` normalizes the key, so no other service exists. -/
structure HttpKeyExchangeService where
  sid : Str
  sidToken : Str
  participantId : Str
  publicKey : Str
  normalized : normalizePublicKey publicKey = .ok publicKey

def serializePayload (entries : List (Str × Str)) : Bytes := utf8 (Records.render entries)

def parsePayload (body : Bytes) : Except TransportError (HashMap Str Str) := do
  let text ← okOr (fromUtf8 body) .invalidPayload
  Records.parseStrict .invalidPayload text

def getRequired (payload : HashMap Str Str) (field : Str) : Except TransportError Str :=
  okOr (payload.lookup field) (.missingPayloadField field)

def parsePublishRequest (body : Bytes) : Except TransportError ParticipantPublishPayload := do
  let payload ← parsePayload body
  let participantId ← getRequired payload "participant_id".toList
  let address ← getRequired payload "address".toList
  let portText ← getRequired payload "port".toList
  let port ← okOr (parseU16 portText) .invalidPayload
  let publicKey ← getRequired payload "public_key".toList
  .ok ⟨participantId, address, port, publicKey⟩

def expectHttpRequestContext (envelope : SignedEnvelope) (expectedMethod expectedPath : Str) :
    Except TransportError Unit :=
  match envelope.context with
  | .httpRequest method path =>
    if eqIgnoreAsciiCase method expectedMethod ∧ path = expectedPath then .ok ()
    else .error .unexpectedContext
  | _ => .error .unexpectedContext

def expectHttpResponseContext (envelope : SignedEnvelope) (expectedStatus : UInt16)
    (expectedPath : Str) : Except TransportError Unit :=
  match envelope.context with
  | .httpResponse statusCode path =>
    if statusCode = expectedStatus ∧ path = expectedPath then .ok ()
    else .error .unexpectedContext
  | _ => .error .unexpectedContext

/-- The contexts `expect_http_request_context` lets pass. -/
def RequestContext (context : MessageContext) (expectedMethod expectedPath : Str) : Prop :=
  ∃ method, context = .httpRequest method expectedPath ∧ eqIgnoreAsciiCase method expectedMethod

private theorem expectHttpRequestContext_eq_ok_iff {envelope : SignedEnvelope} {method path : Str} :
    expectHttpRequestContext envelope method path = .ok () ↔
      RequestContext envelope.context method path := by
  rw [expectHttpRequestContext]
  split
  · rename_i m p hc
    rw [hc, RequestContext]
    constructor
    · intro h
      split at h
      · rename_i hm
        exact ⟨m, by rw [hm.2], hm.1⟩
      · cases h
    · rintro ⟨m', he, hm⟩
      cases he
      exact if_pos ⟨hm, rfl⟩
  · rename_i hc
    exact iff_of_false nofun fun ⟨m, he, _⟩ => hc m path he

private theorem expectHttpResponseContext_eq_ok_iff {envelope : SignedEnvelope} {status : UInt16}
    {path : Str} : expectHttpResponseContext envelope status path = .ok () ↔
      envelope.context = .httpResponse status path := by
  rw [expectHttpResponseContext]
  split
  · rename_i s p hc
    rw [hc, MessageContext.httpResponse.injEq]
    constructor
    · intro h
      split at h
      · assumption
      · cases h
    · exact fun h => if_pos h
  · rename_i hc
    exact iff_of_false nofun fun he => hc status path he

/-- What was serialized is parsed as the map of its entries. -/
theorem parsePayload_serializePayload {entries : List (Str × Str)}
    (h : ∀ kv ∈ entries, Records.SafeRow kv) :
    parsePayload (serializePayload entries) = .ok (HashMap.collect entries) := by
  rw [parsePayload, serializePayload, fromUtf8_utf8, okOr_some, ok_bind,
    Records.parseStrict_render _ h]

section
variable (P : Primitives)

def signHttpRequest (sid sidToken : Str) (request : KeyExchangeHttpRequest) : SignedEnvelope :=
  signEnvelope P sid sidToken request.senderId request.timestampSecs request.nonce
    (.httpRequest "POST".toList request.path) request.body

def signHttpResponse (sid sidToken : Str) (response : KeyExchangeHttpResponse) : SignedEnvelope :=
  signEnvelope P sid sidToken response.senderId response.timestampSecs response.nonce
    (.httpResponse response.statusCode response.path) response.body

def verifyHttpRequest (envelope : SignedEnvelope) (sidToken expectedSid : Str) :
    Except AuthError Unit := verifyEnvelope P envelope sidToken expectedSid

def verifyHttpResponse (envelope : SignedEnvelope) (sidToken expectedSid : Str) :
    Except AuthError Unit := verifyEnvelope P envelope sidToken expectedSid
end

namespace HttpKeyExchangeService
variable (P : Primitives)

def new (sid sidToken participantId publicKey : Str) :
    Except TransportError HttpKeyExchangeService :=
  match h : normalizePublicKey publicKey with
  | .ok publicKey => .ok ⟨sid, sidToken, participantId, publicKey, normalizePublicKey_idempotent h⟩
  | .error _ => .error .invalidPayload

variable (s : HttpKeyExchangeService)

def buildGetPublicKeyRequest (senderId : Str) (timestampSecs : UInt64) (nonce : Str) :
    SignedEnvelope :=
  signHttpRequest P s.sid s.sidToken ⟨pathGetPublicKey, senderId, timestampSecs, nonce,
    serializePayload [("request".toList, "public_key".toList)]⟩

def publicKeyEntries : List (Str × Str) :=
  [("sid".toList, s.sid), ("participant_id".toList, s.participantId),
    ("public_key".toList, s.publicKey)]

/-- The answer `handle_get_public_key_request` signs. -/
def publicKeyResponse (timestampSecs : UInt64) (nonce : Str) : SignedEnvelope :=
  signHttpResponse P s.sid s.sidToken ⟨pathGetPublicKey, 200, s.participantId, timestampSecs, nonce,
    serializePayload s.publicKeyEntries⟩

def handleGetPublicKeyRequest (requestEnvelope : SignedEnvelope) (responseTimestampSecs : UInt64)
    (responseNonce : Str) : Except TransportError SignedEnvelope := do
  (verifyHttpRequest P requestEnvelope s.sidToken s.sid).mapError .auth
  expectHttpRequestContext requestEnvelope "POST".toList pathGetPublicKey
  .ok (s.publicKeyResponse P responseTimestampSecs responseNonce)

def verifyAndParsePublicKeyResponse (envelope : SignedEnvelope) :
    Except TransportError PublicKeyPayload := do
  (verifyHttpResponse P envelope s.sidToken s.sid).mapError .auth
  expectHttpResponseContext envelope 200 pathGetPublicKey
  let payload ← parsePayload envelope.body
  let sid ← getRequired payload "sid".toList
  let participantId ← getRequired payload "participant_id".toList
  let keyText ← getRequired payload "public_key".toList
  let publicKey ← mapErr (normalizePublicKey keyText) .invalidPayload
  .ok ⟨sid, participantId, publicKey⟩

def buildPublishRequest (senderId : Str) (timestampSecs : UInt64) (nonce : Str)
    (payload : ParticipantPublishPayload) : SignedEnvelope :=
  signHttpRequest P s.sid s.sidToken ⟨pathPublishParticipant, senderId, timestampSecs, nonce,
    serializePayload [("participant_id".toList, payload.participantId),
      ("address".toList, payload.address), ("port".toList, decimal payload.port.toNat),
      ("public_key".toList, payload.publicKey)]⟩

/-- The answer `handle_publish_request` signs. -/
def publishResponse (participantId : Str) (timestampSecs : UInt64) (nonce : Str) : SignedEnvelope :=
  signHttpResponse P s.sid s.sidToken ⟨pathPublishParticipant, 202, s.participantId, timestampSecs,
    nonce, serializePayload [("status".toList, "accepted".toList),
      ("participant_id".toList, participantId)]⟩

def handlePublishRequest (requestEnvelope : SignedEnvelope) (responseTimestampSecs : UInt64)
    (responseNonce : Str) : Except TransportError SignedEnvelope := do
  (verifyHttpRequest P requestEnvelope s.sidToken s.sid).mapError .auth
  expectHttpRequestContext requestEnvelope "POST".toList pathPublishParticipant
  let payload ← parsePublishRequest requestEnvelope.body
  let _ ← mapErr (normalizePublicKey payload.publicKey) TransportError.invalidPayload
  .ok (s.publishResponse P payload.participantId responseTimestampSecs responseNonce)

def Authentic (envelope : SignedEnvelope) : Prop :=
  verifyEnvelope P envelope s.sidToken s.sid = .ok ()

def PublishBody (body : Bytes) (payload : ParticipantPublishPayload) : Prop :=
  parsePublishRequest body = .ok payload ∧ ∃ key, normalizePublicKey payload.publicKey = .ok key

variable {P s}

/-- A key request is answered exactly when it is authentic and asks for that path. -/
theorem handleGetPublicKeyRequest_eq_ok_iff {request response : SignedEnvelope} {now : UInt64}
    {nonce : Str} : s.handleGetPublicKeyRequest P request now nonce = .ok response ↔
      s.Authentic P request ∧ RequestContext request.context "POST".toList pathGetPublicKey ∧
      response = s.publicKeyResponse P now nonce := by
  simp only [handleGetPublicKeyRequest, check_bind_eq_ok, mapError_eq_ok, verifyHttpRequest,
    Authentic, expectHttpRequestContext_eq_ok_iff, Except.ok.injEq, eq_comm (a := response)]

/-- A publish request is answered exactly when it is authentic, names that path, and has a payload
with a key. -/
theorem handlePublishRequest_eq_ok_iff {request response : SignedEnvelope} {now : UInt64}
    {nonce : Str} : s.handlePublishRequest P request now nonce = .ok response ↔
      s.Authentic P request ∧ RequestContext request.context "POST".toList pathPublishParticipant ∧
      ∃ payload, PublishBody request.body payload ∧
        response = s.publishResponse P payload.participantId now nonce := by
  simp only [handlePublishRequest, check_bind_eq_ok, mapError_eq_ok, verifyHttpRequest, Authentic,
    expectHttpRequestContext_eq_ok_iff]
  refine and_congr_right fun _ => and_congr_right fun _ => ?_
  simp only [bind_eq_ok, mapErr_eq_ok, PublishBody, Except.ok.injEq]
  constructor
  · rintro ⟨payload, hp, key, hk, rfl⟩
    exact ⟨payload, ⟨hp, key, hk⟩, rfl⟩
  · rintro ⟨payload, ⟨hp, key, hk⟩, rfl⟩
    exact ⟨payload, hp, key, hk, rfl⟩

/-- A response is taken exactly when it is authentic, answers that path, and names the group and a key. -/
theorem verifyAndParsePublicKeyResponse_eq_ok_iff {envelope : SignedEnvelope}
    {payload : PublicKeyPayload} : s.verifyAndParsePublicKeyResponse P envelope = .ok payload ↔
      s.Authentic P envelope ∧ envelope.context = .httpResponse 200 pathGetPublicKey ∧
      ∃ fields keyText, parsePayload envelope.body = .ok fields ∧
        fields.lookup "sid".toList = some payload.sid ∧
        fields.lookup "participant_id".toList = some payload.participantId ∧
        fields.lookup "public_key".toList = some keyText ∧
        normalizePublicKey keyText = .ok payload.publicKey := by
  simp only [verifyAndParsePublicKeyResponse, check_bind_eq_ok, mapError_eq_ok, verifyHttpResponse,
    Authentic, expectHttpResponseContext_eq_ok_iff]
  refine and_congr_right fun _ => and_congr_right fun _ => ?_
  simp only [bind_eq_ok, mapErr_eq_ok, getRequired, okOr_eq_ok, Except.ok.injEq]
  constructor
  · rintro ⟨fields, hf, sid, hs, id, hi, text, ht, key, hk, rfl⟩
    exact ⟨fields, text, hf, hs, hi, ht, hk⟩
  · rintro ⟨fields, text, hf, hs, hi, ht, hk⟩
    exact ⟨fields, hf, _, hs, _, hi, text, ht, _, hk, rfl⟩

/-- A service has what it was given, and its key in normal form. -/
theorem new_eq_ok {sid sidToken participantId publicKey : Str}
    (h : new sid sidToken participantId publicKey = .ok s) : s.sid = sid ∧ s.sidToken = sidToken ∧
      s.participantId = participantId ∧ normalizePublicKey publicKey = .ok s.publicKey := by
  unfold new at h
  split at h
  · rename_i key hkey
    cases h
    exact ⟨rfl, rfl, rfl, hkey⟩
  · cases h

section
variable {t : HttpKeyExchangeService} (hsid : s.sid = t.sid) (htoken : s.sidToken = t.sidToken)
include hsid htoken

/-- What a member of the group has signed is authentic. -/
theorem authentic_signEnvelope (senderId : Str) (timestampSecs : UInt64) (nonce : Str)
    (context : MessageContext) (body : Bytes) :
    s.Authentic P (signEnvelope P t.sid t.sidToken senderId timestampSecs nonce context body) := by
  rw [Authentic, hsid, htoken]
  exact verifyEnvelope_signEnvelope ..

/-- A member answers what another member asks. -/
theorem handleGetPublicKeyRequest_build (senderId : Str) (timestampSecs now : UInt64)
    (nonce responseNonce : Str) : s.handleGetPublicKeyRequest P
      (t.buildGetPublicKeyRequest P senderId timestampSecs nonce) now responseNonce =
        .ok (s.publicKeyResponse P now responseNonce) := by
  refine handleGetPublicKeyRequest_eq_ok_iff.mpr ⟨?_, ⟨_, rfl, by decide⟩, rfl⟩
  exact authentic_signEnvelope hsid htoken ..

/-- A member reads what another member answers. -/
theorem verifyAndParsePublicKeyResponse_publicKeyResponse (hwire : Records.WireSafe t.sid)
    (hparticipant : Records.WireSafe t.participantId) (now : UInt64) (nonce : Str) :
    s.verifyAndParsePublicKeyResponse P (t.publicKeyResponse P now nonce) =
      .ok ⟨t.sid, t.participantId, t.publicKey⟩ := by
  have hrows : ∀ kv ∈ t.publicKeyEntries, Records.SafeRow kv := by
    simp only [publicKeyEntries, List.forall_mem_cons]
    exact ⟨Records.safeRow (by decide) hwire, Records.safeRow (by decide) hparticipant,
      Records.safeRow (by decide) (wireSafe_of_normalized t.normalized), nofun⟩
  have hnodup : (t.publicKeyEntries.map Prod.fst).Nodup := by
    simp only [publicKeyEntries, List.map_cons, List.map_nil]
    decide
  have hlookup {key value : Str} (h : (key, value) ∈ t.publicKeyEntries) :=
    HashMap.lookup_collect_of_mem hnodup h
  refine verifyAndParsePublicKeyResponse_eq_ok_iff.mpr ⟨authentic_signEnvelope hsid htoken .., rfl,
    _, t.publicKey, parsePayload_serializePayload hrows, hlookup ?_, hlookup ?_, hlookup ?_, t.normalized⟩
  all_goals simp [publicKeyEntries]

end

end HttpKeyExchangeService

end SshKeySync.Transport
