import SshKeySync.Auth.Verifier
import SshKeySync.Transport.Service

/-! Histories of HTTP requests. The handlers check signature, context and body but keep
no nonces and read no clock, so protection is left to what is sent. -/
namespace SshKeySync.Transport
open RustStd Auth Keys

inductive Handler where
  | getPublicKey
  | publish
  deriving DecidableEq

/-- A request at its handler, with the receive time and the nonce for the answer. -/
structure ReceivedRequest where
  handler : Handler
  envelope : SignedEnvelope
  receivedAt : UInt64
  responseNonce : Str

namespace ReceivedRequest

def Stale (r : ReceivedRequest) : Prop :=
  ¬ EnvelopeVerifier.inWindow timestampSkewSecs r.envelope.timestampSecs r.receivedAt

/-- Sender and nonce of an earlier request, within the time-to-live of that. -/
def Replays (r earlier : ReceivedRequest) : Prop :=
  earlier.envelope.senderId = r.envelope.senderId ∧ earlier.envelope.nonce = r.envelope.nonce ∧
    r.receivedAt.toNat ≤ earlier.receivedAt.toNat + nonceTtlSecs.toNat

end ReceivedRequest

namespace HttpKeyExchangeService
variable (P : Primitives) (s : HttpKeyExchangeService)

def answer (r : ReceivedRequest) : Except TransportError SignedEnvelope :=
  match r.handler with
  | .getPublicKey => s.handleGetPublicKeyRequest P r.envelope r.receivedAt r.responseNonce
  | .publish => s.handlePublishRequest P r.envelope r.receivedAt r.responseNonce

def AnsweredOk (r : ReceivedRequest) : Prop := ∃ response, s.answer P r = .ok response

/-- An answered request is fresh, and no earlier answered one had its sender and nonce. -/
def ReplayProtected (history : List ReceivedRequest) : Prop :=
  ∀ earlier r later, history = earlier ++ r :: later → s.AnsweredOk P r →
    ¬ r.Stale ∧ ∀ q ∈ earlier, s.AnsweredOk P q → ¬ r.Replays q

/-- The group's signature, the handler's context, and for publishing a complete body. -/
def WellFormed (r : ReceivedRequest) : Prop :=
  s.Authentic P r.envelope ∧ match r.handler with
    | .getPublicKey => RequestContext r.envelope.context "POST".toList pathGetPublicKey
    | .publish => RequestContext r.envelope.context "POST".toList pathPublishParticipant ∧
        ∃ payload, PublishBody r.envelope.body payload

private theorem answeredOk_iff (r : ReceivedRequest) : s.AnsweredOk P r ↔ s.WellFormed P r := by
  rcases r with ⟨handler, envelope, now, nonce⟩
  cases handler with
  | getPublicKey =>
    simp only [AnsweredOk, answer, WellFormed, handleGetPublicKeyRequest_eq_ok_iff]
    exact ⟨fun ⟨_, ha, hc, _⟩ => ⟨ha, hc⟩, fun ⟨ha, hc⟩ => ⟨_, ha, hc, rfl⟩⟩
  | publish =>
    simp only [AnsweredOk, answer, WellFormed, handlePublishRequest_eq_ok_iff]
    exact ⟨fun ⟨_, ha, hc, payload, hp, _⟩ => ⟨ha, hc, payload, hp⟩,
      fun ⟨ha, hc, payload, hp⟩ => ⟨_, ha, hc, payload, hp, rfl⟩⟩

/-- A service protects exactly the histories without a well-formed request that is stale
or repeats one before it. -/
theorem replayProtected_iff (history : List ReceivedRequest) :
    s.ReplayProtected P history ↔ (∀ r ∈ history, s.WellFormed P r → ¬ r.Stale) ∧
      history.Pairwise fun q r => s.WellFormed P q → s.WellFormed P r → ¬ r.Replays q := by
  simp only [ReplayProtected, answeredOk_iff]
  constructor
  · intro h
    refine ⟨fun r hr hw => ?_, List.pairwise_iff_getElem.mpr fun i j hi hj hij hq hw => ?_⟩
    · obtain ⟨earlier, later, rfl⟩ := List.append_of_mem hr
      exact (h earlier r later rfl hw).1
    · have hsplit : history = history.take j ++ history[j] :: history.drop (j+1) := by simp
      refine (h _ _ _ hsplit hw).2 _ ?_ hq
      exact List.mem_take_iff_getElem.mpr ⟨i, by omega, rfl⟩
  · rintro ⟨hfresh, hpair⟩ earlier r later rfl hw
    refine ⟨hfresh r (by simp) hw, fun q hq hwq => ?_⟩
    exact (List.pairwise_append.mp hpair).2.2 q hq r List.mem_cons_self hwq hw

/-- A signed request of 1000 is answered twice at 1000 and again at 5000. -/
theorem replayed_request_answered :
    let s : HttpKeyExchangeService := ⟨"group-a".toList, "secret-token".toList, "node-b".toList,
      "ssh-ed25519 BBBB node-b".toList, by decide⟩
    let request := s.buildGetPublicKeyRequest .standard "node-a".toList 1000 "req-1".toList
    ¬ s.ReplayProtected .standard [⟨.getPublicKey, request, 1000, "res-1".toList⟩,
      ⟨.getPublicKey, request, 1000, "res-2".toList⟩,
      ⟨.getPublicKey, request, 5000, "res-3".toList⟩] := by
  intro s request h
  have hw (now : UInt64) (nonce : Str) : s.AnsweredOk .standard ⟨.getPublicKey, request, now, nonce⟩ :=
    (s.answeredOk_iff .standard _).mpr ⟨verifyEnvelope_signEnvelope .standard .., _, rfl, by decide⟩
  have hreplay := (h [_] _ [_] rfl (hw _ _)).2 _ List.mem_cons_self (hw _ _)
  exact hreplay ⟨rfl, rfl, by decide⟩

end HttpKeyExchangeService

end SshKeySync.Transport
