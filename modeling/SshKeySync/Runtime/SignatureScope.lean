import SshKeySync.Auth.Canonical
import SshKeySync.Discovery.Engine
import SshKeySync.Runtime.EnvelopeCodec
import SshKeySync.Transport.Service

/-! The scope of a signature. An envelope read from the wire and accepted is determined
by its canonical string, because the receivers pin the context and the wire has lines. -/
namespace SshKeySync.Runtime
open RustStd Auth Transport Discovery

/-- The messages some receiver accepts, by their receiver. -/
inductive MessageKind where
  | getRequest
  | publishRequest
  | keyResponse
  | announcement
  deriving DecidableEq

/-- Accepted by a service or an engine of any group, at any time. -/
def AcceptedAs (P : Primitives) (e : SignedEnvelope) : MessageKind → Prop
  | .getRequest => ∃ (s : HttpKeyExchangeService) (now : UInt64) (nonce : Str)
      (response : SignedEnvelope), s.handleGetPublicKeyRequest P e now nonce = .ok response
  | .publishRequest => ∃ (s : HttpKeyExchangeService) (now : UInt64) (nonce : Str)
      (response : SignedEnvelope), s.handlePublishRequest P e now nonce = .ok response
  | .keyResponse => ∃ (s : HttpKeyExchangeService) (payload : PublicKeyPayload),
      s.verifyAndParsePublicKeyResponse P e = .ok payload
  | .announcement => ∃ (d : DiscoveryEngine) (now : UInt64), d.Admits P e now

def ExpectedContext (context : MessageContext) : MessageKind → Prop
  | .getRequest => RequestContext context "POST".toList pathGetPublicKey
  | .publishRequest => RequestContext context "POST".toList pathPublishParticipant
  | .keyResponse => context = .httpResponse 200 pathGetPublicKey
  | .announcement => context = .udpAnnouncement

private theorem AcceptedAs.expectedContext {P : Primitives} {e : SignedEnvelope} {kind : MessageKind}
    (h : AcceptedAs P e kind) : ExpectedContext e.context kind := by
  cases kind with
  | getRequest =>
    obtain ⟨s, now, nonce, response, h⟩ := h
    exact (HttpKeyExchangeService.handleGetPublicKeyRequest_eq_ok_iff.mp h).2.1
  | publishRequest =>
    obtain ⟨s, now, nonce, response, h⟩ := h
    exact (HttpKeyExchangeService.handlePublishRequest_eq_ok_iff.mp h).2.1
  | keyResponse =>
    obtain ⟨s, payload, h⟩ := h
    exact (HttpKeyExchangeService.verifyAndParsePublicKeyResponse_eq_ok_iff.mp h).2.1
  | announcement =>
    obtain ⟨d, now, h⟩ := h
    exact h.1

private theorem toUppercase_of_post {method : Str} (h : eqIgnoreAsciiCase method "POST".toList) :
    toUppercase method = "POST".toList := by
  rw [toUppercase_of_eqIgnoreAsciiCase h (by decide)]
  decide +kernel

private theorem colonFree_request {context : MessageContext} {path : Str}
    (h : RequestContext context "POST".toList path) (hpath : ':' ∉ path) : ColonFree context := by
  obtain ⟨method, rfl, hm⟩ := h
  exact ⟨by rw [toUppercase_of_post hm]; decide, hpath⟩

/-- No expected method, path or status has a colon, so the string is cut in one way. -/
theorem colonFree_of_expectedContext {context : MessageContext} {kind : MessageKind}
    (h : ExpectedContext context kind) : ColonFree context := by
  cases kind with
  | getRequest => exact colonFree_request h (by decide)
  | publishRequest => exact colonFree_request h (by decide)
  | keyResponse => rw [show context = _ from h]; trivial
  | announcement => rw [show context = _ from h]; trivial

/-- The only receiver a context can be meant for, by its kind and path. -/
def receiverOf : MessageContext → Option MessageKind
  | .httpRequest _ path =>
    if path = pathGetPublicKey then some .getRequest
    else if path = pathPublishParticipant then some .publishRequest
    else none
  | .httpResponse _ _ => some .keyResponse
  | .udpAnnouncement => some .announcement

private theorem receiverOf_of_expectedContext {context : MessageContext} {kind : MessageKind}
    (h : ExpectedContext context kind) : receiverOf context = some kind := by
  cases kind with
  | getRequest =>
    obtain ⟨method, rfl, -⟩ := h
    rw [receiverOf, if_pos rfl]
  | publishRequest =>
    obtain ⟨method, rfl, -⟩ := h
    rw [receiverOf, if_neg (by decide), if_pos rfl]
  | keyResponse => rw [show context = _ from h, receiverOf]
  | announcement => rw [show context = _ from h, receiverOf]

private theorem receiverOf_eq_of_sameContext {context context' : MessageContext}
    (h : SameContext context' context) : receiverOf context' = receiverOf context := by
  cases context <;> cases context' <;> simp_all [SameContext, receiverOf]

/-- An envelope read from the wire has the lines its canonical string needs. -/
theorem signedLines_of_parseEnvelope {text : Str} {e : SignedEnvelope}
    (h : parseEnvelope text = .ok e) : SignedLines e := by
  have hw := wireEnvelope_of_parseEnvelope h
  refine ⟨hw.sid.1, hw.senderId.1, hw.nonce.1, ?_⟩
  have hc := hw.context
  cases hctx : e.context with
  | httpRequest method path =>
    rw [hctx] at hc
    exact ⟨hc.1.1, hc.2.1⟩
  | httpResponse statusCode path =>
    rw [hctx] at hc
    exact hc.1
  | udpAnnouncement => trivial

/-- Whatever single-line envelope was signed, if its string is that of an accepted one, it
is that one up to the case of the method, and no other receiver accepts it. -/
theorem signature_scope {P : Primitives} {text : Str} {e e' : SignedEnvelope} {kind : MessageKind}
    (hread : parseEnvelope text = .ok e) (haccepted : AcceptedAs P e kind)
    (hlines : SignedLines e') (hcanonical : e'.canonical P = e.canonical P)
    (hsha : P.sha256 e'.body = P.sha256 e.body → e'.body = e.body) :
    e'.sid = e.sid ∧ e'.senderId = e.senderId ∧ e'.timestampSecs = e.timestampSecs ∧
      e'.nonce = e.nonce ∧ e'.body = e.body ∧ SameContext e'.context e.context ∧
      ∀ kind', AcceptedAs P e' kind' → kind' = kind := by
  obtain ⟨hsid, hsender, htime, hnonce, hcontext, hbody⟩ :=
    canonical_fields (signedLines_of_parseEnvelope hread) hlines hcanonical
  have hsame := sameContext_of_canonicalContext
    (colonFree_of_expectedContext haccepted.expectedContext) hcontext
  refine ⟨hsid, hsender, htime, hnonce, hsha hbody, hsame, fun kind' haccepted' => ?_⟩
  have hkind' := receiverOf_of_expectedContext haccepted'.expectedContext
  rw [receiverOf_eq_of_sameContext hsame,
    receiverOf_of_expectedContext haccepted.expectedContext] at hkind'
  exact (Option.some.inj hkind').symm

/-- A request signed with a lowercase method has the string of the one on the wire. -/
theorem signature_scope_lowercase_post :
    let s : HttpKeyExchangeService := ⟨"group-a".toList, "secret-token".toList, "node-b".toList,
      "ssh-ed25519 BBBB node-b".toList, by decide⟩
    let e := s.buildGetPublicKeyRequest .standard "node-a".toList 1000 "req-1".toList
    let e' := { e with context := .httpRequest "post".toList pathGetPublicKey }
    e'.context ≠ e.context ∧ SameContext e'.context e.context ∧
      ∀ kind, AcceptedAs .standard e' kind → kind = .getRequest := by
  intro s e e'
  have hwire : WireEnvelope e := ⟨by decide, by decide, by decide,
    Records.wireSafe_of_whitespace_free (Hex.encode_whitespace_free _), by decide, by decide⟩
  have haccepted : AcceptedAs .standard e .getRequest := ⟨s, 1000, "res-1".toList, _,
    HttpKeyExchangeService.handleGetPublicKeyRequest_eq_ok_iff.mpr
      ⟨verifyEnvelope_signEnvelope .standard .., ⟨_, rfl, by decide⟩, rfl⟩⟩
  have hupper : toUppercase "post".toList = toUppercase "POST".toList := by decide +kernel
  have hcontext : canonicalContext e'.context = canonicalContext e.context := by
    rw [show e.context = .httpRequest "POST".toList pathGetPublicKey from rfl,
      canonicalContext_httpRequest, canonicalContext_httpRequest, hupper]
  have hcanonical : e'.canonical .standard = e.canonical .standard := by
    rw [SignedEnvelope.canonical, SignedEnvelope.canonical, canonicalPayload, hcontext]
    rfl
  have hlines : SignedLines e' :=
    ⟨by decide, by decide, by decide, show ContextLine (.httpRequest _ _) from ⟨by decide, by decide⟩⟩
  obtain ⟨-, -, -, -, -, hsame, hkind⟩ := signature_scope (parseEnvelope_serializeEnvelope hwire)
    haccepted hlines hcanonical fun _ => rfl
  exact ⟨by decide, hsame, hkind⟩

end SshKeySync.Runtime
