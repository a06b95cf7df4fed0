import Mathlib.Data.Finset.Card
import SshKeySync.Discovery.PeerTable

/-! Announcements that repeat one record. Each participant changes the table at most once,
so a run takes at most one trigger more than there are participants heard from. -/
namespace SshKeySync.Discovery
open RustStd Auth LastWriter

def Outcome.changed : Outcome → Option Str
  | .announcement (.ok (.peerAdded participantId)) => some participantId
  | .announcement (.ok (.peerUpdated participantId)) => some participantId
  | _ => none

def Outcome.starts : Outcome → Bool
  | .trigger taken => taken
  | _ => false

namespace DiscoveryEngine
variable (P : Primitives) (d : DiscoveryEngine) (ops : List Op)

def reported : List Str := (Transducer.trace (perform P) d ops).filterMap fun call => call.2.changed

def triggersTaken : Nat := (Transducer.trace (perform P) d ops).countP fun call => call.2.starts

def heardFromIds : List Str := (d.announced P ops).map PeerRecord.participantId

variable {P d ops} {op : Op} {R : Str → PeerRecord} {p : Str}

private theorem announcement_cases (d : DiscoveryEngine) (envelope : SignedEnvelope) (nowSecs : UInt64) :
    let call := d.perform P (.processAnnouncement envelope nowSecs)
    (call.1.changed = none ∧ call.2.peers = d.peers ∧ call.2.syncTriggerPending = d.syncTriggerPending) ∨
    ∃ r, d.heard P envelope nowSecs = some r ∧ d.peers.lookup r.participantId ≠ some r ∧
      call.1.changed = some r.participantId ∧ call.2.peers = d.peers.insert r.participantId r := by
  dsimp only [perform]
  cases hheard : d.heard P envelope nowSecs with
  | none =>
    obtain ⟨hresult | ⟨error, hresult⟩, hpeers, hpending⟩ := processAnnouncement_of_not_heard hheard
    · exact Or.inl ⟨by rw [hresult]; rfl, hpeers, hpending⟩
    · exact Or.inl ⟨by rw [hresult]; rfl, hpeers, hpending⟩
  | some r =>
    rcases processAnnouncement_of_heard hheard with
      ⟨-, hresult, hpeers, hpending⟩ | ⟨hne, hresult, hpeers, -⟩
    · exact Or.inl ⟨by rw [hresult]; rfl, hpeers, hpending⟩
    · refine Or.inr ⟨r, rfl, hne, ?_, hpeers⟩
      rw [hresult]
      split <;> rfl

private theorem reported_cons (h : (d.perform P op).1.changed = none) :
    d.reported P (op :: ops) = (d.perform P op).2.reported P ops := List.filterMap_cons_none h

private theorem reported_cons_some (h : (d.perform P op).1.changed = some p) :
    d.reported P (op :: ops) = p :: (d.perform P op).2.reported P ops := List.filterMap_cons_some h

private theorem reported_cons_announcement (envelope : SignedEnvelope) (nowSecs : UInt64) :
    d.reported P (.processAnnouncement envelope nowSecs :: ops) =
      (Outcome.announcement (d.processAnnouncement P envelope nowSecs).1).changed.toList ++
        (d.processAnnouncement P envelope nowSecs).2.reported P ops := by
  cases hchanged : (Outcome.announcement (d.processAnnouncement P envelope nowSecs).1).changed with
  | none => exact reported_cons hchanged
  | some p => exact reported_cons_some hchanged

private theorem reported_cons_take :
    d.reported P (.takeSyncTrigger :: ops) = d.takeSyncTrigger.2.reported P ops := reported_cons rfl

private theorem reported_cases (d : DiscoveryEngine) (ops : List Op) (hop : ∀ l, op ≠ .addBootstrapPeers l) :
    (d.reported P (op :: ops) = (d.perform P op).2.reported P ops ∧ (d.perform P op).2.peers = d.peers) ∨
    ∃ r ∈ d.heardFrom P op, d.peers.lookup r.participantId ≠ some r ∧
      d.reported P (op :: ops) = r.participantId :: (d.perform P op).2.reported P ops ∧
      (d.perform P op).2.peers = d.peers.insert r.participantId r := by
  cases op with
  | addBootstrapPeers l => exact absurd rfl (hop l)
  | takeSyncTrigger => exact Or.inl ⟨reported_cons rfl, rfl⟩
  | processAnnouncement envelope nowSecs =>
    rcases announcement_cases (P := P) d envelope nowSecs with
      ⟨hnone, hpeers, -⟩ | ⟨r, hheard, hne, hsome, hpeers⟩
    · exact Or.inl ⟨reported_cons hnone, hpeers⟩
    · exact Or.inr ⟨r, Option.mem_toList.mpr hheard, hne, reported_cons_some hsome, hpeers⟩

private theorem not_mem_reported (hboot : ∀ l, .addBootstrapPeers l ∉ ops)
    (hfixed : ∀ r ∈ d.announced P ops, r = R r.participantId) (hstored : d.peers.lookup p = some (R p)) :
    p ∉ d.reported P ops := by
  induction ops generalizing d with
  | nil => exact List.not_mem_nil
  | cons op ops ih =>
    have hop (l : List Str) : op ≠ .addBootstrapPeers l := fun h => hboot l (h ▸ List.mem_cons_self)
    have hrest (hstored' : (d.perform P op).2.peers.lookup p = some (R p)) :=
      ih (fun l h => hboot l (List.mem_cons_of_mem _ h)) (fun r hr => hfixed r (List.mem_append_right _ hr)) hstored'
    rcases reported_cases d ops hop with ⟨hreported, hpeers⟩ | ⟨r, hheard, hne, hreported, hpeers⟩
    · rw [hreported]
      exact hrest (by rwa [hpeers])
    · have hr : r = R r.participantId := hfixed r (List.mem_append_left _ hheard)
      have hp : p ≠ r.participantId := by
        rintro rfl
        exact hne (hstored.trans (congrArg some hr.symm))
      rw [hreported, List.mem_cons, not_or]
      refine ⟨hp, hrest ?_⟩
      rwa [hpeers, AList.lookup_insert_ne hp]

private theorem nodup_reported (hboot : ∀ l, .addBootstrapPeers l ∉ ops)
    (hfixed : ∀ r ∈ d.announced P ops, r = R r.participantId) :
    (d.reported P ops).Nodup ∧ d.reported P ops ⊆ d.heardFromIds P ops := by
  induction ops generalizing d with
  | nil => exact ⟨List.nodup_nil, List.nil_subset _⟩
  | cons op ops ih =>
    have hop (l : List Str) : op ≠ .addBootstrapPeers l := fun h => hboot l (h ▸ List.mem_cons_self)
    have hboot' (l : List Str) : .addBootstrapPeers l ∉ ops := fun h => hboot l (List.mem_cons_of_mem _ h)
    have hfixed' : ∀ r ∈ (d.perform P op).2.announced P ops, r = R r.participantId :=
      fun r hr => hfixed r (List.mem_append_right _ hr)
    obtain ⟨hnodup, hsubset⟩ := ih hboot' hfixed'
    have hids : d.heardFromIds P (op :: ops) =
        (d.heardFrom P op).map PeerRecord.participantId ++ (d.perform P op).2.heardFromIds P ops :=
      List.map_append
    have hsubset' : (d.perform P op).2.reported P ops ⊆ d.heardFromIds P (op :: ops) := by
      rw [hids]
      exact List.subset_append_of_subset_right _ hsubset
    rcases reported_cases d ops hop with ⟨hreported, -⟩ | ⟨r, hheard, -, hreported, hpeers⟩
    · rw [hreported]
      exact ⟨hnodup, hsubset'⟩
    · have hr : r = R r.participantId := hfixed r (List.mem_append_left _ hheard)
      rw [hreported]
      refine ⟨List.nodup_cons.mpr ⟨not_mem_reported hboot' hfixed' ?_, hnodup⟩, ?_⟩
      · rw [hpeers, AList.lookup_insert, ← hr]
      · refine List.cons_subset.mpr ⟨?_, hsubset'⟩
        rw [hids]
        exact List.mem_append_left _ (List.mem_map_of_mem hheard)

private theorem triggersTaken_le (hboot : ∀ l, .addBootstrapPeers l ∉ ops) :
    d.triggersTaken P ops ≤ (d.reported P ops).length + if d.syncTriggerPending then 1 else 0 := by
  induction ops generalizing d with
  | nil => exact Nat.zero_le _
  | cons op ops ih =>
    have hrest := ih (d := (d.perform P op).2) fun l h => hboot l (List.mem_cons_of_mem _ h)
    have hcons : d.triggersTaken P (op :: ops) =
        (d.perform P op).2.triggersTaken P ops + if (d.perform P op).1.starts then 1 else 0 :=
      List.countP_cons ..
    rw [hcons]
    cases op with
    | addBootstrapPeers l => exact absurd List.mem_cons_self (hboot l)
    | takeSyncTrigger =>
      rw [reported_cons rfl]
      exact Nat.add_le_add_right hrest _
    | processAnnouncement envelope nowSecs =>
      rcases announcement_cases (P := P) d envelope nowSecs with
        ⟨hnone, -, hpending⟩ | ⟨r, -, -, hsome, -⟩
      · rw [reported_cons hnone]
        rwa [hpending] at hrest
      · have hone : (if (d.perform P (.processAnnouncement envelope nowSecs)).2.syncTriggerPending
            then 1 else 0) ≤ 1 := by split <;> omega
        rw [reported_cons_some hsome, List.length_cons]
        exact (hrest.trans (Nat.add_le_add_left hone _)).trans (Nat.le_add_right _ _)

private theorem bootstrapsFirst (sid sidToken : Str) (skew ttl : UInt64) (bootstrapPeers : List Str)
    (hboot : ∀ l, .addBootstrapPeers l ∉ ops) : Transducer.Guarded (perform P) BootstrapsWhileEmpty
      (new sid sidToken skew ttl) (.addBootstrapPeers bootstrapPeers :: ops) := by
  refine ⟨rfl, Transducer.guarded_of_forall (fun op hop d => ?_) _⟩
  cases op with
  | addBootstrapPeers l => exact absurd hop (hboot l)
  | processAnnouncement envelope nowSecs => trivial
  | takeSyncTrigger => trivial

/-- However often participants repeat their announcements, each is reported once, stays stored
as announced, and the triggers taken are at most one more than the participants heard from. -/
theorem no_sync_storm (sid sidToken : Str) (skew ttl : UInt64) (bootstrapPeers : List Str)
    (hboot : ∀ l, .addBootstrapPeers l ∉ ops)
    (hfixed : ∀ r ∈ ((new sid sidToken skew ttl).addBootstrapPeers bootstrapPeers).announced P ops,
      r = R r.participantId) :
    let start := (new sid sidToken skew ttl).addBootstrapPeers bootstrapPeers
    (∀ p, (start.reported P ops).count p ≤ 1) ∧
    (∀ before later p, ops = before ++ later → p ∈ start.heardFromIds P before →
      (start.after P before).peers.lookup p = some (R p)) ∧
    start.triggersTaken P ops ≤ (start.heardFromIds P ops).toFinset.card + 1 := by
  intro start
  obtain ⟨hnodup, hsubset⟩ := nodup_reported hboot hfixed
  refine ⟨List.nodup_iff_count_le_one.mp hnodup, fun before later p hsplit hp => ?_, ?_⟩
  · subst hsplit
    have hbefore (l : List Str) : .addBootstrapPeers l ∉ before :=
      fun h => hboot l (List.mem_append_left _ h)
    obtain ⟨r, hr, rfl⟩ := List.mem_map.mp hp
    have hlookup := lookup_after (P := P) (p := r.participantId)
      (show (new sid sidToken skew ttl).peers = ∅ from rfl)
      (bootstrapsFirst sid sidToken skew ttl bootstrapPeers hbefore)
    refine Eq.trans hlookup ?_
    show (latest PeerRecord.participantId r.participantId (start.announced P before)).or _ = _
    cases hlatest : latest PeerRecord.participantId r.participantId (start.announced P before) with
    | none => exact absurd rfl (latest_eq_none_iff.mp hlatest r hr)
    | some r' =>
      obtain ⟨hr', hsame⟩ := mem_of_latest hlatest
      rw [Option.some_or, ← hsame, ← hfixed r' (announced_append ▸ List.mem_append_left _ hr')]
  · have hpending : (if start.syncTriggerPending then 1 else 0) ≤ 1 := by split <;> omega
    have hlength : (start.reported P ops).length ≤ (start.heardFromIds P ops).toFinset.card := by
      rw [← List.toFinset_card_of_nodup hnodup]
      exact Finset.card_le_card fun p hp => List.mem_toFinset.mpr (hsubset (List.mem_toFinset.mp hp))
    calc start.triggersTaken P ops
      _ ≤ (start.reported P ops).length + if start.syncTriggerPending then 1 else 0 := triggersTaken_le hboot
      _ ≤ (start.heardFromIds P ops).toFinset.card + 1 := Nat.add_le_add hlength hpending

private def repeatingB : List Op :=
  [.processAnnouncement (announcementB "10.0.0.5".toList "n-1".toList 1000) 1000, .takeSyncTrigger,
    .processAnnouncement (announcementB "10.0.0.5".toList "n-2".toList 1001) 1001, .takeSyncTrigger]

private def listening : DiscoveryEngine :=
  (new "group-a".toList "secret-token".toList 60 120).addBootstrapPeers []

private theorem repeatingB_heard : listening.announced .standard repeatingB =
      [recordB "10.0.0.5".toList, recordB "10.0.0.5".toList] ∧
    listening.reported .standard repeatingB = ["node-b".toList] := by
  obtain ⟨hfirst, hafter⟩ := @perform_announcementB listening "10.0.0.5".toList "n-1".toList 1000 1000 rfl rfl rfl
    (by decide) (by decide) (by decide +kernel)
  obtain ⟨hsecond, hagain⟩ := @perform_announcementB
    (listening.processAnnouncement .standard (announcementB "10.0.0.5".toList "n-1".toList 1000)
      1000).2.takeSyncTrigger.2 "10.0.0.5".toList "n-2".toList 1001 1001 (by rw [hafter]; rfl) (by rw [hafter]; rfl)
    (by rw [hafter]; rfl) (by rw [hafter]; decide) (by rw [hafter]; decide) (by decide +kernel)
  refine ⟨?_, ?_⟩
  · rw [repeatingB, announced_processAnnouncement, announced_takeSyncTrigger, announced_processAnnouncement,
      announced_takeSyncTrigger, hfirst, hsecond]
    rfl
  · rw [repeatingB, reported_cons_announcement, reported_cons_take, reported_cons_announcement, reported_cons_take,
      hagain, hafter]
    rfl

/-- A member that repeats its announcement after each sync is heard every time and reported once. -/
theorem no_sync_storm_repeated :
    (listening.announced .standard repeatingB = [recordB "10.0.0.5".toList, recordB "10.0.0.5".toList] ∧
      listening.reported .standard repeatingB = ["node-b".toList]) ∧
    (∀ p, (listening.reported .standard repeatingB).count p ≤ 1) ∧
    (∀ before later p, repeatingB = before ++ later → p ∈ listening.heardFromIds .standard before →
      (listening.after .standard before).peers.lookup p = some (recordB "10.0.0.5".toList)) ∧
    listening.triggersTaken .standard repeatingB ≤
      (listening.heardFromIds .standard repeatingB).toFinset.card + 1 := by
  refine ⟨repeatingB_heard, no_sync_storm _ _ _ _ _ (by simp [repeatingB]) fun r hr => ?_⟩
  have hmem : r ∈ [recordB "10.0.0.5".toList, recordB "10.0.0.5".toList] := repeatingB_heard.1 ▸ hr
  simpa using hmem

end DiscoveryEngine
end SshKeySync.Discovery
