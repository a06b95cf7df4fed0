import SshKeySync.Discovery.PeerTable

/-! Announcements from a member to a member. A body is read back exactly if its texts are
single unpadded lines, and only such texts ever come from announcements into a peer table. -/
namespace SshKeySync.Discovery
open RustStd Auth Keys Records LastWriter

def announcementRows (sid participantId address : Str) (port : UInt16) (key : Str) : List (Str × Str) :=
  [("sid".toList, sid), ("participant_id".toList, participantId), ("address".toList, address),
    ("port".toList, decimal port.toNat), ("public_key".toList, key)]

def announcementBody (sid participantId address : Str) (port : UInt16) (key : Str) : Bytes :=
  serializePayload (announcementRows sid participantId address port key)

/-- The texts of an announcement that survive the wire and the checks of the payload. -/
structure Announceable (sid participantId address : Str) : Prop where
  sid : WireSafe sid ∧ sid ≠ []
  participantId : WireSafe participantId ∧ participantId ≠ []
  address : WireSafe address ∧ address ≠ []

/-- What a member announces is read back with its key in normal form. -/
theorem parseAnnouncementPayload_announcementBody {sid participantId address localKey key : Str}
    (h : Announceable sid participantId address) (port : UInt16)
    (hkey : normalizePublicKey localKey = .ok key) :
    parseAnnouncementPayload (announcementBody sid participantId address port key) =
      .ok ⟨sid, participantId, address, port, key⟩ := by
  have hsafe : ∀ kv ∈ announcementRows sid participantId address port key, SafeRow kv := by
    have hport := wireSafe_of_whitespace_free (decimal_whitespace_free port.toNat)
    simp only [announcementRows, List.forall_mem_cons]
    exact ⟨safeRow (by decide) h.sid.1, safeRow (by decide) h.participantId.1,
      safeRow (by decide) h.address.1, safeRow (by decide) hport,
      safeRow (by decide) (wireSafe_of_normalized hkey), List.forall_mem_nil _⟩
  have hnodup : ((announcementRows sid participantId address port key).map Prod.fst).Nodup := by
    have hkeys : ["sid".toList, "participant_id".toList, "address".toList, "port".toList,
      "public_key".toList].Nodup := by decide
    exact hkeys
  have hpayload : parsePayload (announcementBody sid participantId address port key) =
      .ok (HashMap.collect (announcementRows sid participantId address port key)) := by
    rw [parsePayload, announcementBody, serializePayload, fromUtf8_utf8, okOr_some, ok_bind,
      parseStrict_render _ hsafe]
  have hlookup : ∀ kv ∈ announcementRows sid participantId address port key,
      (HashMap.collect (announcementRows sid participantId address port key)).lookup kv.1 = some kv.2 :=
    fun kv hkv => HashMap.lookup_collect_of_mem hnodup hkv
  generalize HashMap.collect (announcementRows sid participantId address port key) = payload at hpayload hlookup
  simp only [announcementRows, List.forall_mem_cons] at hlookup
  obtain ⟨hsid, hparticipant, haddress, hport, hpublicKey, -⟩ := hlookup
  simp only [parseAnnouncementPayload, hpayload, hsid, hparticipant, haddress, hport, hpublicKey, okOr_some,
    ok_bind, parseU16_decimal, normalizePublicKey_idempotent hkey, mapErr_ok]
  exact if_neg (not_or.mpr ⟨h.sid.2, h.address.2⟩)

/-- Whatever the body, what is read from it could have been announced so. -/
theorem wireSafe_of_parse {body : Bytes} {a : DiscoveryAnnouncement}
    (h : parseAnnouncementPayload body = .ok a) : (WireSafe a.sid ∧ a.sid ≠ []) ∧
      WireSafe a.participantId ∧ WireSafe a.address ∧ a.address ≠ [] := by
  simp only [parseAnnouncementPayload, bind_eq_ok, okOr_eq_ok, mapErr_eq_ok] at h
  obtain ⟨payload, hpayload, sid, hsid, participantId, hparticipant, address, haddress, _, -, port, -,
    _, -, publicKey, -, h⟩ := h
  rw [parsePayload] at hpayload
  obtain ⟨text, -, htext⟩ := bind_eq_ok.mp hpayload
  have hsafe := safeValues_parseStrict htext
  split at h
  · cases h
  · rename_i hne
    obtain ⟨hsidne, haddressne⟩ := not_or.mp hne
    cases h
    exact ⟨⟨hsafe _ _ hsid, hsidne⟩, hsafe _ _ hparticipant, hsafe _ _ haddress, haddressne⟩

namespace DiscoveryEngine
variable {P : Primitives} {d : DiscoveryEngine} {op : Op} {ops : List Op} {p : Str}

/-- An announcement is built whenever the key has a normal form. -/
theorem buildStartupAnnouncement_eq_ok {participantId address localKey key : Str} {port : UInt16}
    {timestampSecs : UInt64} {nonce : Str} (hkey : normalizePublicKey localKey = .ok key) :
    d.buildStartupAnnouncement P participantId address port localKey timestampSecs nonce =
      .ok (signEnvelope P d.sid d.sidToken participantId timestampSecs nonce .udpAnnouncement
        (announcementBody d.sid participantId address port key)) := by
  rw [buildStartupAnnouncement, hkey]
  rfl

/-- The engine belongs to this group and checks messages with this window. -/
structure Member (d : DiscoveryEngine) (sid sidToken : Str) (skew : UInt64) : Prop where
  sid_eq : d.sid = sid
  token_eq : d.verifier.sidToken = sidToken
  expectedSid_eq : d.verifier.expectedSid = sid
  skew_eq : d.verifier.timestampSkewSecs = skew

/-- A new engine is a member of its group. -/
theorem member_new (sid sidToken : Str) (skew ttl : UInt64) :
    (new sid sidToken skew ttl).Member sid sidToken skew := ⟨rfl, rfl, rfl, rfl⟩

/-- Bootstrap entries leave the group and the verifier. -/
theorem addBootstrapPeers_group (d : DiscoveryEngine) (bootstrapPeers : List Str) :
    (d.addBootstrapPeers bootstrapPeers).sid = d.sid ∧
      (d.addBootstrapPeers bootstrapPeers).verifier = d.verifier := by
  induction bootstrapPeers generalizing d with
  | nil => exact ⟨rfl, rfl⟩
  | cons peer bootstrapPeers ih =>
    obtain ⟨hsid, hverifier⟩ := ih (d.addBootstrapPeer peer)
    cases hr : bootstrapRecord peer with
    | none =>
      rw [addBootstrapPeer_of_none hr] at hsid hverifier
      rw [addBootstrapPeers_cons, addBootstrapPeer_of_none hr]
      exact ⟨hsid, hverifier⟩
    | some r =>
      rw [addBootstrapPeer_of_record hr] at hsid hverifier
      rw [addBootstrapPeers_cons, addBootstrapPeer_of_record hr]
      exact ⟨hsid, hverifier⟩

/-- An announcement leaves the group and replaces at most the verifier's cache. -/
theorem processAnnouncement_group (d : DiscoveryEngine) (envelope : SignedEnvelope) (nowSecs : UInt64) :
    (d.processAnnouncement P envelope nowSecs).2.sid = d.sid ∧
      ((d.processAnnouncement P envelope nowSecs).2.verifier = d.verifier ∨
        (d.processAnnouncement P envelope nowSecs).2.verifier = (d.verifier.verify P envelope nowSecs).2) := by
  by_cases ha : d.Admits P envelope nowSecs
  · rw [processAnnouncement_of_admits ha]
    cases readAnnouncement d.sid envelope.body with
    | error result => exact ⟨rfl, Or.inr rfl⟩
    | ok a =>
      dsimp only
      rw [recordPeer_with_verifier]
      rcases recordPeer_cases d a with ⟨-, h⟩ | ⟨-, h⟩ <;> rw [h] <;> exact ⟨rfl, Or.inr rfl⟩
  · obtain ⟨v, hv, heq⟩ := processAnnouncement_of_not_admits ha
    rw [heq]
    rcases hv with rfl | ⟨-, rfl⟩
    · exact ⟨rfl, Or.inl rfl⟩
    · exact ⟨rfl, Or.inr rfl⟩

/-- A call leaves the group. -/
theorem Member.perform {sid sidToken : Str} {skew : UInt64} (h : d.Member sid sidToken skew) (op : Op) :
    (d.perform P op).2.Member sid sidToken skew := by
  cases op with
  | takeSyncTrigger => exact ⟨h.sid_eq, h.token_eq, h.expectedSid_eq, h.skew_eq⟩
  | addBootstrapPeers bootstrapPeers =>
    obtain ⟨hsid, hverifier⟩ := addBootstrapPeers_group d bootstrapPeers
    exact ⟨hsid.trans h.sid_eq, (congrArg _ hverifier).trans h.token_eq,
      (congrArg _ hverifier).trans h.expectedSid_eq, (congrArg _ hverifier).trans h.skew_eq⟩
  | processAnnouncement envelope nowSecs =>
    obtain ⟨hsid, hverifier⟩ := processAnnouncement_group (P := P) d envelope nowSecs
    rw [EnvelopeVerifier.verify_snd] at hverifier
    rcases hverifier with hv | hv
    · exact ⟨hsid.trans h.sid_eq, (congrArg _ hv).trans h.token_eq, (congrArg _ hv).trans h.expectedSid_eq,
        (congrArg _ hv).trans h.skew_eq⟩
    · exact ⟨hsid.trans h.sid_eq, (congrArg _ hv).trans h.token_eq, (congrArg _ hv).trans h.expectedSid_eq,
        (congrArg _ hv).trans h.skew_eq⟩

/-- A run of calls keeps what a member is set up with. -/
theorem Member.after {sid sidToken : Str} {skew : UInt64} (h : d.Member sid sidToken skew) (ops : List Op) :
    (d.after P ops).Member sid sidToken skew :=
  Transducer.invariant_after (Member · sid sidToken skew) (fun _ op hd => hd.perform op) h ops

/-- Every entry was heard from its participant or came, without a key, from a bootstrap list. -/
theorem heard_or_bootstrap (sid sidToken : Str) (skew ttl : UInt64) {r : PeerRecord}
    (h : ((new sid sidToken skew ttl).after P ops).peers.lookup p = some r) :
    r ∈ (new sid sidToken skew ttl).announced P ops ∨ r.publicKey = [] := by
  induction ops using List.reverseRecOn with
  | nil => cases h
  | append_singleton ops op ih =>
    rw [after_concat, lookup_perform, Option.or_eq_some_iff, Option.or_eq_some_iff] at h
    rw [announced_append, List.mem_append]
    rcases h with (h | ⟨-, h⟩) | ⟨-, h⟩
    · refine Or.inl (Or.inr ?_)
      rw [announced, announced, List.append_nil]
      exact (mem_of_latest h).1
    · refine Or.inr ?_
      cases op with
      | addBootstrapPeers bootstrapPeers =>
        obtain ⟨peer, -, hpeer⟩ := List.mem_filterMap.mp (mem_of_latest h).1
        obtain ⟨entry, -, rfl⟩ := Option.map_eq_some_iff.mp hpeer
        rfl
      | processAnnouncement envelope nowSecs => cases h
      | takeSyncTrigger => cases h
    · exact (ih h).imp_left Or.inl

/-- What is heard in a group could have been announced so in this group. -/
theorem announceable_of_mem_announced {sid sidToken : Str} {skew : UInt64} {r : PeerRecord}
    (hmember : d.Member sid sidToken skew) (h : r ∈ d.announced P ops) :
    Announceable sid r.participantId r.address := by
  obtain ⟨earlier, envelope, nowSecs, later, rfl, hheard⟩ := heard_of_mem_announced h
  obtain ⟨-, a, hparse, hsid, rfl, hparticipant⟩ := heard_eq_some hheard
  obtain ⟨hsidSafe, hparticipantSafe, haddressSafe⟩ := wireSafe_of_parse hparse
  rw [hsid, (hmember.after earlier).sid_eq] at hsidSafe
  refine ⟨hsidSafe, ⟨hparticipantSafe, fun hnil => hparticipant ?_⟩, haddressSafe⟩
  rw [hnil]
  rfl

/-- An announcement of the group, inside the window and with a nonce that is not remembered,
is heard. -/
theorem heard_signEnvelope {sid sidToken participantId address localKey key nonce : Str} {skew : UInt64}
    {port : UInt16} {timestampSecs nowSecs : UInt64} (hmember : d.Member sid sidToken skew)
    (h : Announceable sid participantId address) (hkey : normalizePublicKey localKey = .ok key)
    (hwindow : EnvelopeVerifier.inWindow skew timestampSecs nowSecs)
    (hfresh : ¬ d.verifier.Remembers (signEnvelope P sid sidToken participantId timestampSecs nonce
      .udpAnnouncement (announcementBody sid participantId address port key)) nowSecs) :
    d.heard P (signEnvelope P sid sidToken participantId timestampSecs nonce .udpAnnouncement
      (announcementBody sid participantId address port key)) nowSecs =
      some ⟨participantId, address, port, key⟩ := by
  have hauth : verifyEnvelope P (signEnvelope P sid sidToken participantId timestampSecs nonce .udpAnnouncement
      (announcementBody sid participantId address port key)) d.verifier.sidToken d.verifier.expectedSid = .ok () := by
    rw [hmember.token_eq, hmember.expectedSid_eq]
    exact verifyEnvelope_signEnvelope ..
  rw [← hmember.skew_eq] at hwindow
  have hparticipant : trim participantId ≠ [] := by
    rw [trim_eq_self h.participantId.1.2]
    exact h.participantId.2
  have hread : readAnnouncement d.sid (announcementBody sid participantId address port key) =
      .ok ⟨sid, participantId, address, port, key⟩ := by
    rw [readAnnouncement, parseAnnouncementPayload_announcementBody h port hkey]
    dsimp only
    rw [if_neg (not_not.mpr hmember.sid_eq.symm), if_neg hparticipant]
  exact (processAnnouncement_of_authentic rfl hauth hwindow hfresh hread).1

end DiscoveryEngine
end SshKeySync.Discovery
