import SshKeySync.Discovery.Engine
import SshKeySync.Theory.Transducer

/-! Calls to a discovery engine and their runs. An admitted announcement is decided by its
body alone; what it changes is one entry of the peer table and the trigger. -/
namespace SshKeySync.Discovery
open RustStd Auth Keys

inductive Op where
  | addBootstrapPeers (bootstrapPeers : List Str)
  | processAnnouncement (envelope : SignedEnvelope) (nowSecs : UInt64)
  | takeSyncTrigger
  deriving DecidableEq

inductive Outcome where
  | done
  | announcement (result : Except DiscoveryError DiscoveryEvent)
  | trigger (taken : Bool)

def Op.time : Op → Option UInt64
  | .processAnnouncement _ nowSecs => some nowSecs
  | _ => none

def DiscoveryAnnouncement.record (a : DiscoveryAnnouncement) : PeerRecord :=
  ⟨a.participantId, a.address, a.port, a.publicKey⟩

/-- The checks after admission. An error carries what the call returns. -/
def readAnnouncement (sid : Str) (body : Bytes) :
    Except (Except DiscoveryError DiscoveryEvent) DiscoveryAnnouncement :=
  match parseAnnouncementPayload body with
  | .error error => .error (.error error)
  | .ok a =>
    if a.sid ≠ sid then .error (.ok .ignored)
    else if trim a.participantId = [] then .error (.error .invalidAnnouncementPayload)
    else .ok a

namespace DiscoveryEngine
variable (P : Primitives) (d : DiscoveryEngine)

def perform : Op → Outcome × DiscoveryEngine
  | .addBootstrapPeers bootstrapPeers => (.done, d.addBootstrapPeers bootstrapPeers)
  | .processAnnouncement envelope nowSecs =>
    (.announcement (d.processAnnouncement P envelope nowSecs).1,
      (d.processAnnouncement P envelope nowSecs).2)
  | .takeSyncTrigger => (.trigger d.takeSyncTrigger.1, d.takeSyncTrigger.2)

def after (ops : List Op) : DiscoveryEngine := Transducer.after (perform P) d ops

instance (envelope : SignedEnvelope) (nowSecs : UInt64) : Decidable (d.Admits P envelope nowSecs) :=
  match h : (d.verifier.verify P envelope nowSecs).1 with
  | .ok () => decidable_of_iff (envelope.context = .udpAnnouncement) (by simp [Admits, h])
  | .error _ => isFalse fun ha => by simp [Admits, h] at ha

/-- The record of an announcement that passes every check. -/
def heard (envelope : SignedEnvelope) (nowSecs : UInt64) : Option PeerRecord :=
  if d.Admits P envelope nowSecs then
    (readAnnouncement d.sid envelope.body).toOption.map DiscoveryAnnouncement.record
  else none

variable {P d} {envelope : SignedEnvelope} {nowSecs : UInt64}

/-- An admitted announcement is decided by its body. -/
theorem processAnnouncement_of_admits (h : d.Admits P envelope nowSecs) :
    d.processAnnouncement P envelope nowSecs =
      let d' := { d with verifier := (d.verifier.verify P envelope nowSecs).2 }
      match readAnnouncement d.sid envelope.body with
      | .error result => (result, d')
      | .ok a => (.ok (d'.recordPeer a).1, (d'.recordPeer a).2) := by
  obtain ⟨hcontext, hverify⟩ := h
  rw [processAnnouncement, if_neg (not_not.mpr hcontext)]
  cases hv : d.verifier.verify P envelope nowSecs with
  | mk result verifier =>
    rw [hv] at hverify
    obtain rfl : result = .ok () := hverify
    dsimp only
    rw [readAnnouncement]
    cases parseAnnouncementPayload envelope.body with
    | error error => rfl
    | ok a =>
      dsimp only
      split
      · rfl
      · split <;> rfl

/-- An announcement that is not admitted leaves everything but the verifier. -/
theorem processAnnouncement_of_not_admits (h : ¬ d.Admits P envelope nowSecs) :
    ∃ v, (v = d.verifier ∨ (d.verifier.verify P envelope nowSecs).1 ≠ .ok () ∧
        v = (d.verifier.verify P envelope nowSecs).2) ∧
      d.processAnnouncement P envelope nowSecs = (.ok .ignored, { d with verifier := v }) := by
  rw [processAnnouncement]
  by_cases hcontext : envelope.context = .udpAnnouncement
  · have hverify : (d.verifier.verify P envelope nowSecs).1 ≠ .ok () := fun hv => h ⟨hcontext, hv⟩
    rw [if_neg (not_not.mpr hcontext)]
    cases hv : d.verifier.verify P envelope nowSecs with
    | mk result verifier =>
      rw [hv] at hverify
      cases result with
      | error error => exact ⟨verifier, Or.inr ⟨nofun, rfl⟩, rfl⟩
      | ok u => exact absurd rfl hverify
  · rw [if_pos hcontext]
    exact ⟨d.verifier, Or.inl rfl, rfl⟩

/-- What storing a record does, by what is found under its participant. -/
theorem recordPeer_cases (d : DiscoveryEngine) (a : DiscoveryAnnouncement) :
    (d.peers.lookup a.participantId = some a.record ∧ d.recordPeer a = (.ignored, d)) ∨
    (d.peers.lookup a.participantId ≠ some a.record ∧ d.recordPeer a =
      (if d.peers.lookup a.participantId = none then .peerAdded a.participantId
        else .peerUpdated a.participantId,
        { d with peers := d.peers.insert a.participantId a.record, syncTriggerPending := true })) := by
  rw [recordPeer]
  cases hl : d.peers.lookup a.participantId with
  | none => exact Or.inr ⟨nofun, rfl⟩
  | some existing =>
    by_cases he : existing = a.record
    · subst he
      exact Or.inl ⟨rfl, if_pos rfl⟩
    · refine Or.inr ⟨fun h => he (Option.some.inj h), ?_⟩
      rw [if_neg nofun]
      exact if_neg he

/-- The verifier plays no part in storing a record. -/
theorem recordPeer_with_verifier (d : DiscoveryEngine) (v : EnvelopeVerifier) (a : DiscoveryAnnouncement) :
    ({ d with verifier := v }).recordPeer a =
      ((d.recordPeer a).1, { (d.recordPeer a).2 with verifier := v }) := by
  rw [recordPeer, recordPeer]
  dsimp only
  cases d.peers.lookup a.participantId with
  | none => rfl
  | some existing =>
    dsimp only
    split <;> rfl

/-- An authentic announcement inside the window whose nonce is not remembered is heard, and stored as its
body reads. -/
theorem processAnnouncement_of_authentic {a : DiscoveryAnnouncement} (hcontext : envelope.context = .udpAnnouncement)
    (hauth : verifyEnvelope P envelope d.verifier.sidToken d.verifier.expectedSid = .ok ())
    (hwindow : EnvelopeVerifier.inWindow d.verifier.timestampSkewSecs envelope.timestampSecs nowSecs)
    (hfresh : ¬ d.verifier.Remembers envelope nowSecs) (hread : readAnnouncement d.sid envelope.body = .ok a) :
    d.heard P envelope nowSecs = some a.record ∧ d.processAnnouncement P envelope nowSecs =
      (.ok (d.recordPeer a).1, { (d.recordPeer a).2 with
        verifier := { d.verifier.pruneNonces nowSecs with
          seenNonces := (d.verifier.pruneNonces nowSecs).seenNonces.insert (nonceKey envelope) nowSecs } }) := by
  have hverify := (EnvelopeVerifier.verify_of_authentic P hauth hwindow).trans (if_neg hfresh)
  have hadmits : d.Admits P envelope nowSecs := ⟨hcontext, congrArg Prod.fst hverify⟩
  refine ⟨?_, ?_⟩
  · rw [heard, if_pos hadmits, hread]
    rfl
  · rw [processAnnouncement_of_admits hadmits, hverify, hread]
    dsimp only
    rw [recordPeer_with_verifier]

/-- An announcement that is not heard leaves the table and the trigger. -/
theorem processAnnouncement_of_not_heard (h : d.heard P envelope nowSecs = none) :
    ((d.processAnnouncement P envelope nowSecs).1 = .ok .ignored ∨
      ∃ error, (d.processAnnouncement P envelope nowSecs).1 = .error error) ∧
    (d.processAnnouncement P envelope nowSecs).2.peers = d.peers ∧
    (d.processAnnouncement P envelope nowSecs).2.syncTriggerPending = d.syncTriggerPending := by
  by_cases ha : d.Admits P envelope nowSecs
  · rw [heard, if_pos ha] at h
    rw [processAnnouncement_of_admits ha]
    cases hread : readAnnouncement d.sid envelope.body with
    | ok a =>
      rw [hread] at h
      cases h
    | error result =>
      refine ⟨?_, rfl, rfl⟩
      rw [readAnnouncement] at hread
      split at hread
      · cases hread
        exact Or.inr ⟨_, rfl⟩
      · split at hread
        · cases hread
          exact Or.inl rfl
        · split at hread
          · cases hread
            exact Or.inr ⟨_, rfl⟩
          · cases hread
  · obtain ⟨v, -, heq⟩ := processAnnouncement_of_not_admits ha
    rw [heq]
    exact ⟨Or.inl rfl, rfl, rfl⟩

/-- One that is heard stores its record and sets the trigger, unless the record stands there already. -/
theorem processAnnouncement_of_heard {r : PeerRecord} (h : d.heard P envelope nowSecs = some r) :
    (d.peers.lookup r.participantId = some r ∧
      (d.processAnnouncement P envelope nowSecs).1 = .ok .ignored ∧
      (d.processAnnouncement P envelope nowSecs).2.peers = d.peers ∧
      (d.processAnnouncement P envelope nowSecs).2.syncTriggerPending = d.syncTriggerPending) ∨
    (d.peers.lookup r.participantId ≠ some r ∧
      (d.processAnnouncement P envelope nowSecs).1 = .ok (if d.peers.lookup r.participantId = none then
        .peerAdded r.participantId else .peerUpdated r.participantId) ∧
      (d.processAnnouncement P envelope nowSecs).2.peers = d.peers.insert r.participantId r ∧
      (d.processAnnouncement P envelope nowSecs).2.syncTriggerPending = true) := by
  have ha : d.Admits P envelope nowSecs := by
    by_contra hn
    rw [heard, if_neg hn] at h
    cases h
  rw [heard, if_pos ha] at h
  obtain ⟨a, hread, rfl⟩ := Option.map_eq_some_iff.mp h
  rw [processAnnouncement_of_admits ha]
  cases hresult : readAnnouncement d.sid envelope.body with
  | error result =>
    rw [hresult] at hread
    cases hread
  | ok a' =>
    rw [hresult] at hread
    cases hread
    dsimp only
    rcases recordPeer_cases { d with verifier := (d.verifier.verify P envelope nowSecs).2 } a with
      ⟨hl, heq⟩ | ⟨hl, heq⟩
    · rw [heq]
      exact Or.inl ⟨hl, rfl, rfl, rfl⟩
    · rw [heq]
      exact Or.inr ⟨hl, rfl, rfl, rfl⟩

end DiscoveryEngine
end SshKeySync.Discovery
