import SshKeySync.Discovery.EngineRuns

/-! Traffic that the verifier refuses. Engines whose replay caches track one log answer alike,
so what a run returns does not depend on its refused announcements. -/
namespace SshKeySync.Discovery
open RustStd Auth

def Chronological (ops : List Op) : Prop := (ops.filterMap Op.time).Pairwise (· ≤ ·)

instance (ops : List Op) : Decidable (Chronological ops) :=
  inferInstanceAs (Decidable (List.Pairwise _ _))

def Op.clock (nowSecs : UInt64) (op : Op) : UInt64 := op.time.getD nowSecs

namespace DiscoveryEngine
variable (P : Primitives)

/-- An announcement in another context, or one that the verifier refuses. -/
def Rejects (d : DiscoveryEngine) : Op → Prop
  | .processAnnouncement envelope nowSecs => ¬ d.Admits P envelope nowSecs
  | _ => False

instance (d : DiscoveryEngine) : (op : Op) → Decidable (d.Rejects P op)
  | .processAnnouncement envelope nowSecs => inferInstanceAs (Decidable (¬ d.Admits P envelope nowSecs))
  | .addBootstrapPeers _ => isFalse id
  | .takeSyncTrigger => isFalse id

def remaining (d : DiscoveryEngine) (ops : List Op) : List (Op × Outcome) :=
  Transducer.purge (perform P) (Rejects P) d ops

/-- The second engine differs in its replay cache only, and both caches track one log. -/
def Indistinguishable (nowSecs : UInt64) (d d' : DiscoveryEngine) : Prop :=
  ∃ log v, d' = { d with verifier := v } ∧ v.sidToken = d.verifier.sidToken ∧
    v.expectedSid = d.verifier.expectedSid ∧ v.timestampSkewSecs = d.verifier.timestampSkewSecs ∧
    v.nonceTtlSecs = d.verifier.nonceTtlSecs ∧
    d.verifier.Tracks log nowSecs.toNat ∧ v.Tracks log nowSecs.toNat

private theorem addBootstrapPeers_with_verifier (d : DiscoveryEngine) (v : EnvelopeVerifier)
    (bootstrapPeers : List Str) : ({ d with verifier := v }).addBootstrapPeers bootstrapPeers =
      { d.addBootstrapPeers bootstrapPeers with verifier := v } := by
  induction bootstrapPeers generalizing d with
  | nil => rfl
  | cons peer bootstrapPeers ih =>
    have hone : ({ d with verifier := v }).addBootstrapPeer peer =
        { d.addBootstrapPeer peer with verifier := v } := by
      rw [addBootstrapPeer, addBootstrapPeer]
      cases parseBootstrapPeer peer <;> rfl
    exact (congrArg (addBootstrapPeers · bootstrapPeers) hone).trans (ih _)

private theorem verifier_addBootstrapPeers (d : DiscoveryEngine) (bootstrapPeers : List Str) :
    (d.addBootstrapPeers bootstrapPeers).verifier = d.verifier :=
  (congrArg verifier (addBootstrapPeers_with_verifier d d.verifier bootstrapPeers)).symm ▸ rfl

variable {P} {d d' : DiscoveryEngine} {nowSecs : UInt64}

private theorem indistinguishable_of_rejects {envelope : SignedEnvelope} {receivedSecs : UInt64}
    (h : Indistinguishable nowSecs d d') (hle : nowSecs ≤ receivedSecs)
    (hrejects : ¬ d.Admits P envelope receivedSecs) :
    Indistinguishable receivedSecs (d.processAnnouncement P envelope receivedSecs).2 d' := by
  obtain ⟨log, v, rfl, htoken, hsid, hskew, httl, htracks, htracks'⟩ := h
  have hle' := UInt64.le_iff_toNat_le.mp hle
  obtain ⟨w, hw, heq⟩ := processAnnouncement_of_not_admits hrejects
  rw [heq]
  rcases hw with rfl | ⟨hrefused, rfl⟩
  · exact ⟨log, v, rfl, htoken, hsid, hskew, httl, htracks.mono hle', htracks'.mono hle'⟩
  · obtain ⟨result, w, hverify, hwtoken, hwsid, hwskew, hwttl, hcase⟩ :=
      d.verifier.verify_cases P htracks envelope hle'
    rw [hverify] at hrefused ⊢
    rcases hcase with ⟨hok, -⟩ | ⟨-, -, hw⟩
    · exact absurd hok hrefused
    · exact ⟨log, v, rfl, htoken.trans hwtoken.symm, hsid.trans hwsid.symm, hskew.trans hwskew.symm,
        httl.trans hwttl.symm, hw, htracks'.mono hle'⟩

private theorem indistinguishable_of_admits {envelope : SignedEnvelope} {receivedSecs : UInt64}
    (h : Indistinguishable nowSecs d d') (hle : nowSecs ≤ receivedSecs)
    (hadmits : d.Admits P envelope receivedSecs) :
    (d'.processAnnouncement P envelope receivedSecs).1 = (d.processAnnouncement P envelope receivedSecs).1 ∧
      Indistinguishable receivedSecs (d.processAnnouncement P envelope receivedSecs).2
        (d'.processAnnouncement P envelope receivedSecs).2 := by
  obtain ⟨log, v, rfl, htoken, hsid, hskew, httl, htracks, htracks'⟩ := h
  have hle' := UInt64.le_iff_toNat_le.mp hle
  have hfresh := (d.verifier.verify_eq_ok_iff P htracks envelope hle').mp hadmits.2
  have hadmits' : ({ d with verifier := v }).Admits P envelope receivedSecs := by
    refine ⟨hadmits.1, (v.verify_eq_ok_iff P htracks' envelope hle').mpr ?_⟩
    rwa [htoken, hsid, hskew, httl]
  obtain ⟨result, w, hverify, hwtoken, hwsid, hwskew, hwttl, hcase⟩ :=
    d.verifier.verify_cases P htracks envelope hle'
  obtain ⟨result', w', hverify', hwtoken', hwsid', hwskew', hwttl', hcase'⟩ :=
    v.verify_cases P htracks' envelope hle'
  have hresult := hadmits.2
  have hresult' := hadmits'.2
  rw [processAnnouncement_of_admits hadmits, processAnnouncement_of_admits hadmits']
  dsimp only at hresult' ⊢
  rw [hverify] at hresult ⊢
  rw [hverify'] at hresult' ⊢
  have hw : w.Tracks ((nonceKey envelope, receivedSecs.toNat) :: log) receivedSecs.toNat := by
    rcases hcase with ⟨-, -, -, -, hw⟩ | ⟨⟨err, rfl⟩, -⟩
    · exact hw
    · cases hresult
  have hw' : w'.Tracks ((nonceKey envelope, receivedSecs.toNat) :: log) receivedSecs.toNat := by
    rcases hcase' with ⟨-, -, -, -, hw'⟩ | ⟨⟨err, rfl⟩, -⟩
    · exact hw'
    · cases hresult'
  have hsame : w'.sidToken = w.sidToken ∧ w'.expectedSid = w.expectedSid ∧
      w'.timestampSkewSecs = w.timestampSkewSecs ∧ w'.nonceTtlSecs = w.nonceTtlSecs := by
    rw [hwtoken, hwtoken', hwsid, hwsid', hwskew, hwskew', hwttl, hwttl']
    exact ⟨htoken, hsid, hskew, httl⟩
  cases readAnnouncement d.sid envelope.body with
  | error result => exact ⟨rfl, _, w', rfl, hsame.1, hsame.2.1, hsame.2.2.1, hsame.2.2.2, hw, hw'⟩
  | ok a =>
    dsimp only
    rw [recordPeer_with_verifier d w, recordPeer_with_verifier d w']
    exact ⟨rfl, _, w', rfl, hsame.1, hsame.2.1, hsame.2.2.1, hsame.2.2.2, hw, hw'⟩

private theorem guarded_of_chronological {ops : List Op} {nowSecs : UInt64} (hc : Chronological ops)
    (hfrom : ∀ t ∈ ops.filterMap Op.time, nowSecs ≤ t) :
    Runs.Guarded (fun now op => some (Op.clock now op)) (fun now op => ∀ t ∈ op.time, now ≤ t)
      nowSecs ops := by
  induction ops generalizing nowSecs with
  | nil => trivial
  | cons op ops ih =>
    rw [Chronological, List.filterMap_cons] at hc
    rw [List.filterMap_cons] at hfrom
    cases htime : op.time with
    | none =>
      rw [htime] at hc hfrom
      refine ⟨fun t ht => absurd (htime.symm.trans ht) nofun, fun now hnow => ?_⟩
      obtain rfl := Option.some.inj hnow
      rw [Op.clock, htime]
      exact ih hc hfrom
    | some t =>
      rw [htime] at hc hfrom
      obtain ⟨hlater, hc⟩ := List.pairwise_cons.mp hc
      refine ⟨fun t' ht' => ?_, fun now hnow => ?_⟩
      · obtain rfl : t = t' := Option.some.inj (htime.symm.trans ht')
        exact hfrom t List.mem_cons_self
      · obtain rfl := Option.some.inj hnow
        rw [Op.clock, htime]
        exact ih hc hlater

/-- Without its rejected announcements a run returns for every other call what it returned,
and it leaves the same peer table and pending trigger. -/
theorem rejected_invisible (sid sidToken : Str) (skew ttl : UInt64) (ops : List Op)
    (hc : Chronological ops) :
    let d := new sid sidToken skew ttl
    let kept := (d.remaining P ops).map Prod.fst
    Transducer.trace (perform P) d kept = d.remaining P ops ∧
      (d.after P kept).peers = (d.after P ops).peers ∧
      (d.after P kept).syncTriggerPending = (d.after P ops).syncTriggerPending := by
  intro d kept
  have htracks := EnvelopeVerifier.tracks_new sidToken sid skew ttl (0 : UInt64).toNat
  have hstart : Indistinguishable 0 d d := ⟨[], d.verifier, rfl, rfl, rfl, rfl, rfl, htracks, htracks⟩
  have hdrop (now : UInt64) (s t : DiscoveryEngine) (op : Op) (h : Indistinguishable now s t)
      (hnow : ∀ u ∈ op.time, now ≤ u) (hrejects : s.Rejects P op) :
      Indistinguishable (op.clock now) (s.perform P op).2 t := by
    cases op with
    | processAnnouncement envelope receivedSecs =>
      exact indistinguishable_of_rejects h (hnow receivedSecs rfl) hrejects
    | addBootstrapPeers bootstrapPeers => exact hrejects.elim
    | takeSyncTrigger => exact hrejects.elim
  have hkeep (now : UInt64) (s t : DiscoveryEngine) (op : Op) (h : Indistinguishable now s t)
      (hnow : ∀ u ∈ op.time, now ≤ u) (hremains : ¬ s.Rejects P op) :
      (t.perform P op).1 = (s.perform P op).1 ∧
        Indistinguishable (op.clock now) (s.perform P op).2 (t.perform P op).2 := by
    cases op with
    | processAnnouncement envelope receivedSecs =>
      obtain ⟨hresult, hrelated⟩ :=
        indistinguishable_of_admits h (hnow receivedSecs rfl) (not_not.mp hremains)
      exact ⟨congrArg Outcome.announcement hresult, hrelated⟩
    | addBootstrapPeers bootstrapPeers =>
      obtain ⟨log, v, rfl, hsame⟩ := h
      refine ⟨rfl, log, v, addBootstrapPeers_with_verifier s v bootstrapPeers, ?_⟩
      rw [perform, verifier_addBootstrapPeers]
      exact hsame
    | takeSyncTrigger =>
      obtain ⟨log, v, rfl, hsame⟩ := h
      exact ⟨rfl, log, v, rfl, hsame⟩
  obtain ⟨htrace, now, log, v, hafter, -⟩ := Transducer.trace_purge hdrop hkeep hstart
    (guarded_of_chronological hc fun t _ => UInt64.zero_le)
  have hpeers := congrArg peers hafter
  have hpending := congrArg syncTriggerPending hafter
  exact ⟨htrace, hpeers, hpending⟩

/-- An announcement of another group between two calls: its deletion changes nothing. -/
theorem rejected_invisible_foreign :
    let foreign := signEnvelope .standard "group-a".toList "other-token".toList "node-b".toList 1000
      "n-1".toList .udpAnnouncement []
    let ops := [.addBootstrapPeers ["node-b@10.0.0.2:2222".toList], .processAnnouncement foreign 1000,
      .takeSyncTrigger]
    let d := new "group-a".toList "secret-token".toList 60 120
    let kept := (d.remaining .standard ops).map Prod.fst
    Transducer.trace (perform .standard) d kept = d.remaining .standard ops ∧
      (d.after .standard kept).peers = (d.after .standard ops).peers ∧
      (d.after .standard kept).syncTriggerPending = (d.after .standard ops).syncTriggerPending :=
  rejected_invisible _ _ _ _ _ (List.pairwise_singleton _ (1000 : UInt64))

end DiscoveryEngine
end SshKeySync.Discovery
