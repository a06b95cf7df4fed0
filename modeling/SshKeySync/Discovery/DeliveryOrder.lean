import SshKeySync.Discovery.Announcements

/-! Announcements of one participant in any order of delivery. The table keeps what arrived
last; the signed timestamps decide only whether an announcement is inside the window. -/
namespace SshKeySync.Discovery
open RustStd Auth Keys LastWriter

def recordOf (sid : Str) (envelope : SignedEnvelope) : Option PeerRecord :=
  (readAnnouncement sid envelope.body).toOption.map DiscoveryAnnouncement.record

namespace DiscoveryEngine
variable (P : Primitives)

/-- An authentic announcement of the participant, delivered inside the window. -/
structure AuthenticFrom (sid sidToken p : Str) (skew : UInt64) (call : EnvelopeVerifier.Call) : Prop where
  context : call.1.context = .udpAnnouncement
  authentic : verifyEnvelope P call.1 sidToken sid = .ok ()
  sender : call.1.senderId = p
  announces : ∃ r, recordOf sid call.1 = some r ∧ r.participantId = p
  window : EnvelopeVerifier.inWindow skew call.1.timestampSecs call.2

def deliver (d : DiscoveryEngine) (deliveries : List EnvelopeVerifier.Call) : DiscoveryEngine :=
  d.after P (deliveries.map fun call => .processAnnouncement call.1 call.2)

/-- The deliveries that the receiver does not take for replays. -/
def unseen (d : DiscoveryEngine) (deliveries : List EnvelopeVerifier.Call) : List EnvelopeVerifier.Call :=
  deliveries.filter fun call => ¬ d.verifier.Remembers call.1 call.2

variable {P} {d : DiscoveryEngine} {sid sidToken p : Str} {skew : UInt64}

private theorem heard_of_authentic (hmember : d.Member sid sidToken skew) {call : EnvelopeVerifier.Call}
    (h : AuthenticFrom P sid sidToken p skew call) :
    d.heard P call.1 call.2 = if d.verifier.Remembers call.1 call.2 then none else recordOf sid call.1 := by
  have hauth := h.authentic
  have hwindow := h.window
  rw [← hmember.token_eq, ← hmember.expectedSid_eq] at hauth
  rw [← hmember.skew_eq] at hwindow
  have hverify := EnvelopeVerifier.verify_of_authentic P hauth hwindow
  rw [heard, recordOf, hmember.sid_eq]
  by_cases hseen : d.verifier.Remembers call.1 call.2
  · rw [if_pos hseen, if_neg]
    rintro ⟨-, hok⟩
    rw [hverify, if_pos hseen] at hok
    cases hok
  · rw [if_neg hseen, if_pos]
    refine ⟨h.context, ?_⟩
    rw [hverify, if_neg hseen]

private theorem remembers_processAnnouncement {call other : EnvelopeVerifier.Call} (hle : call.2 ≤ other.2)
    (hkey : nonceKey other.1 ≠ nonceKey call.1) :
    (d.processAnnouncement P call.1 call.2).2.verifier.Remembers other.1 other.2 ↔
      d.verifier.Remembers other.1 other.2 := by
  obtain ⟨-, hverifier | hverifier⟩ := processAnnouncement_group (P := P) d call.1 call.2
  · rw [hverifier]
  · rw [hverifier]
    exact EnvelopeVerifier.remembers_verify P hle hkey

private theorem nonceKey_ne {call other : EnvelopeVerifier.Call} (h : AuthenticFrom P sid sidToken p skew call)
    (h' : AuthenticFrom P sid sidToken p skew other) (hnonce : call.1.nonce ≠ other.1.nonce) :
    nonceKey other.1 ≠ nonceKey call.1 := by
  intro hkey
  rw [nonceKey, nonceKey, h.sender, h'.sender, List.append_cancel_left_eq, List.cons.injEq] at hkey
  exact hnonce hkey.2.symm

private theorem lookup_deliver (hmember : d.Member sid sidToken skew) {deliveries : List EnvelopeVerifier.Call}
    (hfrom : ∀ call ∈ deliveries, AuthenticFrom P sid sidToken p skew call)
    (hchron : EnvelopeVerifier.Chronological deliveries)
    (hnonces : deliveries.Pairwise fun a b => a.1.nonce ≠ b.1.nonce) :
    (d.deliver P deliveries).peers.lookup p =
      ((d.unseen deliveries).getLast?.bind fun call => recordOf sid call.1).or (d.peers.lookup p) := by
  induction deliveries generalizing d with
  | nil => rfl
  | cons call deliveries ih =>
    obtain ⟨hcall, hrest⟩ := List.forall_mem_cons.mp hfrom
    obtain ⟨hfirst, hchron⟩ := List.pairwise_cons.mp hchron
    obtain ⟨hnonce, hnonces⟩ := List.pairwise_cons.mp hnonces
    have hunseen : (d.perform P (.processAnnouncement call.1 call.2)).2.unseen deliveries = d.unseen deliveries := by
      refine List.filter_congr fun other hother => ?_
      have hiff := remembers_processAnnouncement (d := d) (P := P) (hfirst other hother)
        (nonceKey_ne hcall (hrest other hother) (hnonce other hother))
      exact decide_eq_decide.mpr (not_congr hiff)
    have hlookup : (d.perform P (.processAnnouncement call.1 call.2)).2.peers.lookup p =
        (if d.verifier.Remembers call.1 call.2 then none else recordOf sid call.1).or (d.peers.lookup p) := by
      obtain ⟨r, hr, hparticipant⟩ := hcall.announces
      have hlisted : (Op.processAnnouncement call.1 call.2).bootstrapRecords = [] := rfl
      rw [lookup_perform, heardFrom, heard_of_authentic hmember hcall, hlisted, latest_nil, Option.or_none, hr]
      split
      · rfl
      · rw [Option.toList_some, latest_singleton, if_pos hparticipant]
    have hdeliver : d.deliver P (call :: deliveries) =
        (d.perform P (.processAnnouncement call.1 call.2)).2.deliver P deliveries := rfl
    rw [hdeliver, ih (hmember.perform _) hrest hchron hnonces, hunseen, hlookup, ← Option.or_assoc]
    congr 1
    by_cases hseen : d.verifier.Remembers call.1 call.2
    · rw [if_pos hseen, Option.or_none, unseen, unseen, List.filter_cons_of_neg (by simpa using hseen)]
    · rw [if_neg hseen, unseen, unseen, List.filter_cons_of_pos (by simpa using hseen), List.getLast?_cons]
      cases hlast : (deliveries.filter fun call => ¬ d.verifier.Remembers call.1 call.2).getLast? with
      | none => rfl
      | some last =>
        obtain ⟨r, hr, -⟩ := (hrest last (List.mem_of_mem_filter (List.mem_of_getLast? hlast))).announces
        rw [Option.bind_some, hr, Option.some_or, Option.getD_some, Option.bind_some, hr]

/-- The record of the last delivery that is no replay is stored, and it is the record with the
greatest timestamp exactly if that delivery carries it. -/
theorem last_delivered_stored (hmember : d.Member sid sidToken skew) {deliveries : List EnvelopeVerifier.Call}
    (hfrom : ∀ call ∈ deliveries, AuthenticFrom P sid sidToken p skew call)
    (hchron : EnvelopeVerifier.Chronological deliveries)
    (hnonces : deliveries.Pairwise fun a b => a.1.nonce ≠ b.1.nonce) :
    (d.deliver P deliveries).peers.lookup p =
      ((d.unseen deliveries).getLast?.bind fun call => recordOf sid call.1).or (d.peers.lookup p) ∧
    ∀ newest last, newest ∈ deliveries →
      (∀ call ∈ deliveries, call.1.timestampSecs ≤ newest.1.timestampSecs) →
      (d.unseen deliveries).getLast? = some last →
      ((d.deliver P deliveries).peers.lookup p = recordOf sid newest.1 ↔
        recordOf sid last.1 = recordOf sid newest.1) := by
  have hlookup := lookup_deliver hmember hfrom hchron hnonces
  refine ⟨hlookup, fun newest last _ _ hlast => ?_⟩
  have hmem : last ∈ deliveries := List.mem_of_mem_filter (List.mem_of_getLast? hlast)
  obtain ⟨r, hr, -⟩ := (hfrom last hmem).announces
  rw [hlookup, hlast, Option.bind_some, hr, Option.some_or]

private def memberB : DiscoveryEngine := .new "group-a".toList "secret-token".toList timestampSkewSecs nonceTtlSecs

private theorem memberB_member : memberB.Member "group-a".toList "secret-token".toList timestampSkewSecs :=
  member_new ..

private def keyB : Str := "ssh-ed25519 AAAA node-b".toList

private def sentB (address nonce : Str) (timestampSecs : UInt64) : SignedEnvelope :=
  signEnvelope .standard "group-a".toList "secret-token".toList "node-b".toList timestampSecs nonce
    .udpAnnouncement (announcementBody "group-a".toList "node-b".toList address 9922 keyB)

private theorem recordOf_sentB {address : Str} (haddress : Records.WireSafe address ∧ address ≠ []) (nonce : Str)
    (timestampSecs : UInt64) : recordOf "group-a".toList (sentB address nonce timestampSecs) =
      some ⟨"node-b".toList, address, 9922, keyB⟩ := by
  have hannounceable : Announceable "group-a".toList "node-b".toList address :=
    ⟨⟨by decide, by decide⟩, ⟨by decide, by decide⟩, haddress⟩
  have hkey : normalizePublicKey keyB = .ok keyB := by decide +kernel
  have hparse := parseAnnouncementPayload_announcementBody hannounceable 9922 hkey
  have hread : readAnnouncement "group-a".toList (sentB address nonce timestampSecs).body =
      .ok ⟨"group-a".toList, "node-b".toList, address, 9922, keyB⟩ := by
    rw [readAnnouncement, sentB, signEnvelope, hparse]
    rfl
  rw [recordOf, hread]
  rfl

private theorem authenticFrom_sentB {address : Str} (haddress : Records.WireSafe address ∧ address ≠ [])
    (nonce : Str) {timestampSecs nowSecs : UInt64}
    (hwindow : EnvelopeVerifier.inWindow timestampSkewSecs timestampSecs nowSecs) :
    AuthenticFrom .standard "group-a".toList "secret-token".toList "node-b".toList timestampSkewSecs
      (sentB address nonce timestampSecs, nowSecs) where
  context := rfl
  authentic := verifyEnvelope_signEnvelope ..
  sender := rfl
  announces := ⟨_, recordOf_sentB haddress nonce timestampSecs, rfl⟩
  window := hwindow

private def delayedB : List EnvelopeVerifier.Call :=
  [(sentB "10.0.0.9".toList "n-2".toList 1000, 1000), (sentB "10.0.0.2".toList "n-1".toList 990, 1001)]

private theorem delayedB_authentic : ∀ call ∈ delayedB,
    AuthenticFrom .standard "group-a".toList "secret-token".toList "node-b".toList timestampSkewSecs call := by
  rw [delayedB, List.forall_mem_cons, List.forall_mem_singleton]
  exact ⟨authenticFrom_sentB ⟨by decide, by decide⟩ _ (by decide),
    authenticFrom_sentB ⟨by decide, by decide⟩ _ (by decide)⟩

private theorem delayedB_chronological : EnvelopeVerifier.Chronological delayedB :=
  List.pairwise_pair.mpr (by decide)

private theorem delayedB_nonces : delayedB.Pairwise fun a b => a.1.nonce ≠ b.1.nonce :=
  List.pairwise_pair.mpr (by decide)

private theorem delayedB_unseen : memberB.unseen delayedB = delayedB := by
  refine List.filter_eq_self.mpr ?_
  rw [delayedB, List.forall_mem_cons, List.forall_mem_singleton]
  exact ⟨by decide, by decide⟩

private theorem lookup_delayedB (start : Option PeerRecord) :
    ((memberB.unseen delayedB).getLast?.bind fun call => recordOf "group-a".toList call.1).or start =
      some ⟨"node-b".toList, "10.0.0.2".toList, 9922, keyB⟩ := by
  rw [delayedB_unseen, delayedB, List.getLast?_cons_cons, List.getLast?_singleton, Option.bind_some,
    recordOf_sentB ⟨by decide, by decide⟩, Option.some_or]

/-- A delayed announcement of an old address is what stays. -/
theorem last_delivered_stored_delayed :
    (memberB.deliver .standard delayedB).peers.lookup "node-b".toList =
      some ⟨"node-b".toList, "10.0.0.2".toList, 9922, keyB⟩ := by
  rw [(last_delivered_stored memberB_member delayedB_authentic delayedB_chronological delayedB_nonces).1,
    lookup_delayedB]

/-- Two authentic announcements with their own timestamps and nonces, in the window when they
are delivered: the older one comes late and rolls the address back. -/
theorem delayed_announcement_rolls_back : ∃ newer older : EnvelopeVerifier.Call,
    (∀ call ∈ [newer, older], AuthenticFrom .standard "group-a".toList "secret-token".toList "node-b".toList
      timestampSkewSecs call) ∧
    newer.2 ≤ older.2 ∧ newer.1.nonce ≠ older.1.nonce ∧ older.1.timestampSecs < newer.1.timestampSecs ∧
    (memberB.deliver .standard [newer, older]).peers.lookup "node-b".toList = recordOf "group-a".toList older.1 ∧
    recordOf "group-a".toList older.1 ≠ recordOf "group-a".toList newer.1 := by
  refine ⟨_, _, delayedB_authentic, by decide, by decide, by decide, ?_, ?_⟩
  · have h := lookup_deliver memberB_member delayedB_authentic delayedB_chronological delayedB_nonces
    rw [lookup_delayedB] at h
    exact h.trans (recordOf_sentB ⟨by decide, by decide⟩ _ _).symm
  · rw [recordOf_sentB ⟨by decide, by decide⟩, recordOf_sentB ⟨by decide, by decide⟩]
    decide

end DiscoveryEngine
end SshKeySync.Discovery
