import SshKeySync.Discovery.EngineRuns
import SshKeySync.Theory.LastWriter

/-! The peer table as a last-writer map. Every entry is the latest record heard from its
participant, or else its last bootstrap entry, and the trigger is pending exactly while some
change of the table has not been taken. -/
namespace SshKeySync.Discovery
open RustStd Auth Keys LastWriter

def bootstrapRecord (peer : Str) : Option PeerRecord :=
  (parseBootstrapPeer peer).map fun entry => ⟨entry.1, entry.2.1, entry.2.2, []⟩

def Op.bootstrapRecords : Op → List PeerRecord
  | .addBootstrapPeers bootstrapPeers => bootstrapPeers.filterMap bootstrapRecord
  | _ => []

/-- What a peer table may hold of a participant. -/
structure PeerRecord.Valid (r : PeerRecord) : Prop where
  address : r.address ≠ []
  publicKey : r.publicKey = [] ∨ normalizePublicKey r.publicKey = .ok r.publicKey

namespace DiscoveryEngine
variable (P : Primitives) (d : DiscoveryEngine)

def heardFrom : Op → List PeerRecord
  | .processAnnouncement envelope nowSecs => (d.heard P envelope nowSecs).toList
  | _ => []

def announced (d : DiscoveryEngine) : List Op → List PeerRecord
  | [] => []
  | op :: ops => d.heardFrom P op ++ announced (d.perform P op).2 ops

def Changes (op : Op) : Prop := ∃ p, (d.perform P op).2.peers.lookup p ≠ d.peers.lookup p

/-- Bootstrap entries are added only to an empty table. -/
def BootstrapsWhileEmpty (d : DiscoveryEngine) : Op → Prop
  | .addBootstrapPeers _ => d.peers = ∅
  | _ => True

/-- The result of an announcement says what it has done to the table and the trigger. -/
structure Reported (result : Except DiscoveryError DiscoveryEvent) (d' : DiscoveryEngine) : Prop where
  unchanged : result = .ok .ignored ∨ (∃ error, result = .error error) →
    d'.peers = d.peers ∧ d'.syncTriggerPending = d.syncTriggerPending
  changed : ∀ p, result = .ok (.peerAdded p) ∨ result = .ok (.peerUpdated p) →
    d'.peers.lookup p ≠ d.peers.lookup p ∧ ∀ q, q ≠ p → d'.peers.lookup q = d.peers.lookup q
  added_iff : ∀ p, result = .ok (.peerAdded p) ∨ result = .ok (.peerUpdated p) →
    (result = .ok (.peerAdded p) ↔ d.peers.lookup p = none)

variable {P d} {op : Op} {ops later : List Op} {p : Str}

private theorem announced_addBootstrapPeers (bootstrapPeers : List Str) :
    d.announced P (.addBootstrapPeers bootstrapPeers :: ops) =
      (d.addBootstrapPeers bootstrapPeers).announced P ops := rfl

theorem announced_processAnnouncement (envelope : SignedEnvelope) (nowSecs : UInt64) :
    d.announced P (.processAnnouncement envelope nowSecs :: ops) =
      (d.heard P envelope nowSecs).toList ++ (d.processAnnouncement P envelope nowSecs).2.announced P ops := rfl

theorem announced_takeSyncTrigger :
    d.announced P (.takeSyncTrigger :: ops) = d.takeSyncTrigger.2.announced P ops := rfl

/-- What is heard along a run is what is heard along its parts. -/
theorem announced_append : d.announced P (ops ++ later) = d.announced P ops ++ (d.after P ops).announced P later := by
  induction ops generalizing d with
  | nil => rfl
  | cons op ops ih => rw [List.cons_append, announced, announced, ih, List.append_assoc]; rfl

theorem after_concat : d.after P (ops ++ [op]) = ((d.after P ops).perform P op).2 := Transducer.after_append ..

private theorem bootstraps_concat (h : Transducer.Guarded (perform P) BootstrapsWhileEmpty d (ops ++ [op])) :
    Transducer.Guarded (perform P) BootstrapsWhileEmpty d ops ∧ (d.after P ops).BootstrapsWhileEmpty op :=
  have ⟨hops, hop⟩ := Transducer.guarded_append.mp h
  ⟨hops, hop.1⟩

/-- A record that is heard names a participant and has an address and a key in normal form. -/
theorem heard_eq_some {envelope : SignedEnvelope} {nowSecs : UInt64} {r : PeerRecord}
    (h : d.heard P envelope nowSecs = some r) : d.Admits P envelope nowSecs ∧
      ∃ a, parseAnnouncementPayload envelope.body = .ok a ∧ a.sid = d.sid ∧ a.record = r ∧
        trim r.participantId ≠ [] := by
  rw [heard] at h
  split at h
  · rename_i hadmits
    obtain ⟨a, hread, rfl⟩ := Option.map_eq_some_iff.mp h
    refine ⟨hadmits, a, ?_⟩
    rw [readAnnouncement] at hread
    split at hread
    · cases hread
    · rename_i a' hparse
      split at hread
      · cases hread
      · rename_i hsid
        split at hread
        · cases hread
        · rename_i hparticipant
          cases hread
          exact ⟨hparse, not_not.mp hsid, rfl, hparticipant⟩
  · cases h

private theorem valid_of_parse {body : Bytes} {a : DiscoveryAnnouncement}
    (h : parseAnnouncementPayload body = .ok a) : a.record.Valid := by
  simp only [parseAnnouncementPayload, bind_eq_ok, okOr_eq_ok, mapErr_eq_ok] at h
  obtain ⟨payload, -, sid, -, participantId, -, address, -, portText, -, port, -, keyText, -, publicKey,
    hkey, h⟩ := h
  split at h
  · cases h
  · rename_i hne
    cases h
    exact ⟨fun haddress => hne (Or.inr haddress), Or.inr (normalizePublicKey_idempotent hkey)⟩

/-- What is heard along a run is heard by one of its announcements, in the state it meets. -/
theorem heard_of_mem_announced {r : PeerRecord} (h : r ∈ d.announced P ops) : ∃ earlier envelope nowSecs later,
    ops = earlier ++ .processAnnouncement envelope nowSecs :: later ∧
      (d.after P earlier).heard P envelope nowSecs = some r := by
  induction ops generalizing d with
  | nil => cases h
  | cons op ops ih =>
    rcases List.mem_append.mp h with hhead | htail
    · cases op with
      | processAnnouncement envelope nowSecs => exact ⟨[], envelope, nowSecs, ops, rfl, Option.mem_toList.mp hhead⟩
      | addBootstrapPeers bootstrapPeers => cases hhead
      | takeSyncTrigger => cases hhead
    · obtain ⟨earlier, envelope, nowSecs, later, rfl, hheard⟩ := ih htail
      exact ⟨op :: earlier, envelope, nowSecs, later, rfl, hheard⟩

/-- What is heard along a run is the body of one of its announcements. -/
theorem mem_announced {r : PeerRecord} (h : r ∈ d.announced P ops) : ∃ envelope nowSecs a,
    .processAnnouncement envelope nowSecs ∈ ops ∧ parseAnnouncementPayload envelope.body = .ok a ∧
      a.record = r := by
  obtain ⟨earlier, envelope, nowSecs, later, rfl, hheard⟩ := heard_of_mem_announced h
  obtain ⟨-, a, hparse, -, hrecord, -⟩ := heard_eq_some hheard
  exact ⟨envelope, nowSecs, a, List.mem_append_right _ List.mem_cons_self, hparse, hrecord⟩

private theorem valid_of_mem_announced {r : PeerRecord} (h : r ∈ d.announced P ops) : r.Valid := by
  obtain ⟨envelope, nowSecs, a, -, hparse, rfl⟩ := mem_announced h
  exact valid_of_parse hparse

private theorem valid_of_bootstrapRecord {peer : Str} {r : PeerRecord} (h : bootstrapRecord peer = some r) :
    r.Valid := by
  obtain ⟨⟨participantId, address, port⟩, hparse, rfl⟩ := Option.map_eq_some_iff.mp h
  rw [parseBootstrapPeer] at hparse
  obtain ⟨⟨_, address', _⟩, -, hfields⟩ := Option.bind_eq_some_iff.mp hparse
  dsimp only at hfields
  split at hfields
  · cases hfields
  · rename_i haddress
    cases hfields
    exact ⟨haddress, Or.inl rfl⟩

theorem addBootstrapPeers_cons (peer : Str) (bootstrapPeers : List Str) :
    d.addBootstrapPeers (peer :: bootstrapPeers) = (d.addBootstrapPeer peer).addBootstrapPeers bootstrapPeers :=
  rfl

/-- An entry that parses is stored without a key. -/
theorem addBootstrapPeer_of_record {peer : Str} {r : PeerRecord} (h : bootstrapRecord peer = some r) :
    d.addBootstrapPeer peer = { d with
      peers := d.peers.insert r.participantId r
      syncTriggerPending := d.syncTriggerPending || (d.peers.lookup r.participantId).isNone } := by
  obtain ⟨entry, hparse, rfl⟩ := Option.map_eq_some_iff.mp h
  rw [addBootstrapPeer, hparse]

/-- One that does not is passed over. -/
theorem addBootstrapPeer_of_none {peer : Str} (h : bootstrapRecord peer = none) :
    d.addBootstrapPeer peer = d := by
  rw [addBootstrapPeer, Option.map_eq_none_iff.mp h]

private theorem lookup_addBootstrapPeers (bootstrapPeers : List Str) :
    (d.addBootstrapPeers bootstrapPeers).peers.lookup p =
      (latest PeerRecord.participantId p (bootstrapPeers.filterMap bootstrapRecord)).or (d.peers.lookup p) := by
  induction bootstrapPeers generalizing d with
  | nil => rfl
  | cons peer bootstrapPeers ih =>
    rw [addBootstrapPeers_cons, ih, List.filterMap_cons]
    cases hr : bootstrapRecord peer with
    | none => rw [addBootstrapPeer_of_none hr]
    | some r =>
      dsimp only
      rw [addBootstrapPeer_of_record hr, HashMap.lookup_insert, ← List.singleton_append, latest_append,
        Option.or_assoc, latest_singleton]
      by_cases hp : p = r.participantId
      · rw [if_pos hp, if_pos hp.symm, Option.some_or]
      · rw [if_neg hp, if_neg (Ne.symm hp), Option.none_or]

/-- A call adds what was heard or listed, and leaves every other entry. -/
theorem lookup_perform : (d.perform P op).2.peers.lookup p =
    ((latest PeerRecord.participantId p (d.heardFrom P op)).or
      (latest PeerRecord.participantId p op.bootstrapRecords)).or (d.peers.lookup p) := by
  cases op with
  | addBootstrapPeers bootstrapPeers => exact lookup_addBootstrapPeers bootstrapPeers
  | takeSyncTrigger => rfl
  | processAnnouncement envelope nowSecs =>
    have hlisted : (Op.processAnnouncement envelope nowSecs).bootstrapRecords = [] := rfl
    rw [hlisted, latest_nil, Option.or_none, heardFrom, perform]
    cases hheard : d.heard P envelope nowSecs with
    | none =>
      rw [(processAnnouncement_of_not_heard hheard).2.1]
      rfl
    | some r =>
      rw [Option.toList_some, latest_singleton]
      rcases processAnnouncement_of_heard hheard with ⟨hsame, -, hpeers, -⟩ | ⟨-, -, hpeers, -⟩
      · rw [hpeers]
        by_cases hp : r.participantId = p
        · rw [if_pos hp, Option.some_or, ← hp, hsame]
        · rw [if_neg hp, Option.none_or]
      · rw [hpeers, HashMap.lookup_insert]
        by_cases hp : r.participantId = p
        · rw [if_pos hp, if_pos hp.symm, Option.some_or]
        · rw [if_neg hp, if_neg (Ne.symm hp), Option.none_or]

private theorem pending_addBootstrapPeers_mono (bootstrapPeers : List Str)
    (h : d.syncTriggerPending = true) : (d.addBootstrapPeers bootstrapPeers).syncTriggerPending = true := by
  induction bootstrapPeers generalizing d with
  | nil => exact h
  | cons peer bootstrapPeers ih =>
    rw [addBootstrapPeers_cons]
    apply ih
    cases hr : bootstrapRecord peer with
    | none => rwa [addBootstrapPeer_of_none hr]
    | some r => rw [addBootstrapPeer_of_record hr, h, Bool.true_or]

private theorem pending_addBootstrapPeers_iff (bootstrapPeers : List Str) (hempty : d.peers = ∅) :
    (d.addBootstrapPeers bootstrapPeers).syncTriggerPending = true ↔
      d.syncTriggerPending = true ∨ bootstrapPeers.filterMap bootstrapRecord ≠ [] := by
  induction bootstrapPeers with
  | nil => simp [addBootstrapPeers]
  | cons peer bootstrapPeers ih =>
    rw [addBootstrapPeers_cons, List.filterMap_cons]
    cases hr : bootstrapRecord peer with
    | none =>
      rw [addBootstrapPeer_of_none hr]
      exact ih
    | some r =>
      refine iff_of_true (pending_addBootstrapPeers_mono _ ?_) (Or.inr (List.cons_ne_nil _ _))
      rw [addBootstrapPeer_of_record hr, hempty, AList.lookup_empty, Option.isNone_none, Bool.or_true]

private theorem changes_addBootstrapPeers_iff {bootstrapPeers : List Str} (hempty : d.peers = ∅) :
    d.Changes P (.addBootstrapPeers bootstrapPeers) ↔ bootstrapPeers.filterMap bootstrapRecord ≠ [] := by
  constructor
  · rintro ⟨p, hp⟩ hnone
    refine hp ?_
    rw [perform, lookup_addBootstrapPeers, hnone]
    rfl
  · intro hsome
    obtain ⟨r, records, hrecords⟩ := List.exists_cons_of_ne_nil hsome
    refine ⟨r.participantId, fun hsame => ?_⟩
    rw [perform, lookup_addBootstrapPeers, hempty, AList.lookup_empty, Option.or_none,
      latest_eq_none_iff] at hsame
    exact hsame r (hrecords ▸ List.mem_cons_self) rfl

/-- Between two takes the trigger is raised by exactly the calls that change the table. -/
theorem pending_perform_iff (htake : op ≠ .takeSyncTrigger) (hempty : d.BootstrapsWhileEmpty op) :
    (d.perform P op).2.syncTriggerPending = true ↔ d.syncTriggerPending = true ∨ d.Changes P op := by
  cases op with
  | takeSyncTrigger => exact absurd rfl htake
  | addBootstrapPeers bootstrapPeers =>
    rw [changes_addBootstrapPeers_iff hempty]
    exact pending_addBootstrapPeers_iff bootstrapPeers hempty
  | processAnnouncement envelope nowSecs =>
    have hunchanged (hpeers : (d.processAnnouncement P envelope nowSecs).2.peers = d.peers) :
        ¬ d.Changes P (.processAnnouncement envelope nowSecs) :=
      fun ⟨p, hp⟩ => hp (congrArg (AList.lookup p) hpeers)
    rw [perform]
    cases hheard : d.heard P envelope nowSecs with
    | none =>
      obtain ⟨-, hpeers, hpending⟩ := processAnnouncement_of_not_heard hheard
      rw [hpending, or_iff_left (hunchanged hpeers)]
    | some r =>
      rcases processAnnouncement_of_heard hheard with
        ⟨-, -, hpeers, hpending⟩ | ⟨hne, -, hpeers, hpending⟩
      · rw [hpending, or_iff_left (hunchanged hpeers)]
      · refine iff_of_true hpending (Or.inr ⟨r.participantId, fun hsame => hne ?_⟩)
        rw [perform, hpeers, AList.lookup_insert] at hsame
        exact hsame.symm

/-- Over a run without a take, the trigger is pending if it was or if some call made a change. -/
theorem pending_after_iff (htake : Op.takeSyncTrigger ∉ ops)
    (hboot : Transducer.Guarded (perform P) BootstrapsWhileEmpty d ops) :
    (d.after P ops).syncTriggerPending = true ↔ d.syncTriggerPending = true ∨
      ∃ before op later, ops = before ++ op :: later ∧ (d.after P before).Changes P op := by
  induction ops using List.reverseRecOn with
  | nil => simp [after]
  | append_singleton ops op ih =>
    obtain ⟨hops, hop⟩ := bootstraps_concat hboot
    rw [List.mem_append, not_or, List.mem_singleton] at htake
    rw [after_concat, pending_perform_iff (Ne.symm htake.2) hop, ih htake.1 hops, or_assoc]
    refine or_congr_right ⟨?_, ?_⟩
    · rintro (⟨before, op', later, rfl, hchange⟩ | hchange)
      · exact ⟨before, op', later ++ [op], by simp, hchange⟩
      · exact ⟨ops, op, [], rfl, hchange⟩
    · rintro ⟨before, op', later, hsplit, hchange⟩
      rcases List.eq_nil_or_concat later with rfl | ⟨later, last, rfl⟩
      · obtain ⟨rfl, hlast⟩ := List.append_inj' hsplit rfl
        obtain rfl := List.singleton_inj.mp hlast
        exact Or.inr hchange
      · rw [List.concat_eq_append, ← List.cons_append, ← List.append_assoc] at hsplit
        obtain ⟨rfl, -⟩ := List.append_inj' hsplit rfl
        exact Or.inl ⟨before, op', later, rfl, hchange⟩

/-- The table maps every participant to its latest record. -/
theorem lookup_after (hempty : d.peers = ∅) (hboot : Transducer.Guarded (perform P) BootstrapsWhileEmpty d ops) :
    (d.after P ops).peers.lookup p = (latest PeerRecord.participantId p (d.announced P ops)).or
      (latest PeerRecord.participantId p (ops.flatMap Op.bootstrapRecords)) := by
  induction ops using List.reverseRecOn with
  | nil =>
    rw [after, Transducer.after_nil, hempty]
    rfl
  | append_singleton ops op ih =>
    obtain ⟨hops, hop⟩ := bootstraps_concat hboot
    have hlookup := ih hops
    rw [after_concat, lookup_perform, announced_append, latest_append, List.flatMap_append, latest_append,
      List.flatMap_singleton, announced, announced, List.append_nil, hlookup]
    cases op with
    | addBootstrapPeers bootstrapPeers =>
      have hnone : (d.after P ops).peers.lookup p = none := by rw [show (d.after P ops).peers = ∅ from hop]; rfl
      obtain ⟨hannounced, hlisted⟩ := Option.or_eq_none_iff.mp (hlookup.symm.trans hnone)
      have hunheard : (d.after P ops).heardFrom P (.addBootstrapPeers bootstrapPeers) = [] := rfl
      rw [hannounced, hlisted, hunheard]
      simp
    | processAnnouncement envelope nowSecs => simp [Op.bootstrapRecords, Option.or_assoc]
    | takeSyncTrigger => simp [Op.bootstrapRecords, heardFrom]

/-- Records are found under their participants. -/
theorem participantId_of_lookup (hempty : d.peers = ∅)
    (hboot : Transducer.Guarded (perform P) BootstrapsWhileEmpty d ops) {r : PeerRecord}
    (h : (d.after P ops).peers.lookup p = some r) : r.participantId = p := by
  rw [lookup_after hempty hboot, Option.or_eq_some_iff] at h
  rcases h with h | ⟨-, h⟩
  · exact (mem_of_latest h).2
  · exact (mem_of_latest h).2

private theorem reported_of_change {r : PeerRecord} (d' : DiscoveryEngine)
    (hne : d.peers.lookup r.participantId ≠ some r) (hpeers : d'.peers = d.peers.insert r.participantId r) :
    d.Reported (.ok (if d.peers.lookup r.participantId = none then .peerAdded r.participantId
      else .peerUpdated r.participantId)) d' := by
  have hother (q : Str) (hq : q ≠ r.participantId) : d'.peers.lookup q = d.peers.lookup q := by
    rw [hpeers, AList.lookup_insert_ne hq]
  have hself : d'.peers.lookup r.participantId ≠ d.peers.lookup r.participantId := by
    rw [hpeers, AList.lookup_insert]
    exact hne.symm
  by_cases habsent : d.peers.lookup r.participantId = none
  · rw [if_pos habsent]
    refine ⟨?_, ?_, ?_⟩
    · rintro (h | ⟨error, h⟩) <;> cases h
    · rintro p (h | h) <;> cases h
      exact ⟨hself, hother⟩
    · rintro p (h | h) <;> cases h
      exact iff_of_true rfl habsent
  · rw [if_neg habsent]
    refine ⟨?_, ?_, ?_⟩
    · rintro (h | ⟨error, h⟩) <;> cases h
    · rintro p (h | h) <;> cases h
      exact ⟨hself, hother⟩
    · rintro p (h | h) <;> cases h
      exact iff_of_false nofun habsent

private theorem reported_of_unchanged {result : Except DiscoveryError DiscoveryEvent} {d' : DiscoveryEngine}
    (hresult : result = .ok .ignored ∨ ∃ error, result = .error error) (hpeers : d'.peers = d.peers)
    (hpending : d'.syncTriggerPending = d.syncTriggerPending) : d.Reported result d' := by
  refine ⟨fun _ => ⟨hpeers, hpending⟩, ?_, ?_⟩
  · rintro p (rfl | rfl) <;> rcases hresult with h | ⟨error, h⟩ <;> cases h
  · rintro p (rfl | rfl) <;> rcases hresult with h | ⟨error, h⟩ <;> cases h

private theorem reported_processAnnouncement (d : DiscoveryEngine) (envelope : SignedEnvelope) (nowSecs : UInt64) :
    d.Reported (d.processAnnouncement P envelope nowSecs).1 (d.processAnnouncement P envelope nowSecs).2 := by
  cases hheard : d.heard P envelope nowSecs with
  | none =>
    obtain ⟨hresult, hpeers, hpending⟩ := processAnnouncement_of_not_heard hheard
    exact reported_of_unchanged hresult hpeers hpending
  | some r =>
    rcases processAnnouncement_of_heard hheard with
      ⟨-, hresult, hpeers, hpending⟩ | ⟨hne, hresult, hpeers, -⟩
    · exact reported_of_unchanged (Or.inl hresult) hpeers hpending
    · rw [hresult]
      exact reported_of_change _ hne hpeers

/-- The peer table is the last accepted information, and no change of it goes unsignalled. -/
theorem peers_last_accepted (sid sidToken : Str) (skew ttl : UInt64) (ops : List Op)
    (hboot : Transducer.Guarded (perform P) BootstrapsWhileEmpty (new sid sidToken skew ttl) ops) :
    let start := new sid sidToken skew ttl
    let d := start.after P ops
    (∀ p r, d.peers.lookup p = some r → r.participantId = p ∧ r.Valid) ∧
    (∀ p, d.peers.lookup p = (latest PeerRecord.participantId p (start.announced P ops)).or
      (latest PeerRecord.participantId p (ops.flatMap Op.bootstrapRecords))) ∧
    (∀ envelope nowSecs, d.Reported (d.processAnnouncement P envelope nowSecs).1
      (d.processAnnouncement P envelope nowSecs).2) ∧
    (∀ before since, ops = before ++ since → before = [] ∨ before.getLast? = some .takeSyncTrigger →
      .takeSyncTrigger ∉ since → (d.takeSyncTrigger.1 = true ↔ ∃ earlier op later,
        since = earlier ++ op :: later ∧ (start.after P (before ++ earlier)).Changes P op)) := by
  intro start d
  have hlookup (p : Str) := lookup_after (p := p) (show start.peers = ∅ from rfl) hboot
  refine ⟨fun p r hr => ?_, hlookup, reported_processAnnouncement d, ?_⟩
  · refine ⟨participantId_of_lookup rfl hboot hr, ?_⟩
    rw [hlookup, Option.or_eq_some_iff] at hr
    rcases hr with hr | ⟨-, hr⟩
    · exact valid_of_mem_announced (mem_of_latest hr).1
    · obtain ⟨op, -, hop⟩ := List.mem_flatMap.mp (mem_of_latest hr).1
      cases op with
      | addBootstrapPeers bootstrapPeers =>
        obtain ⟨peer, -, hpeer⟩ := List.mem_filterMap.mp hop
        exact valid_of_bootstrapRecord hpeer
      | processAnnouncement envelope nowSecs => cases hop
      | takeSyncTrigger => cases hop
  · intro before since hsplit hbefore htake
    have hguard : Transducer.Guarded (perform P) BootstrapsWhileEmpty (start.after P before) since :=
      (Transducer.guarded_append.mp (hsplit ▸ hboot)).2
    have hpending : (start.after P before).syncTriggerPending = false := by
      rcases hbefore with rfl | hlast
      · rfl
      · obtain ⟨earlier, rfl⟩ := List.getLast?_eq_some_iff.mp hlast
        rw [after_concat]
        rfl
    have hafter : d = (start.after P before).after P since := by
      show start.after P ops = _
      rw [hsplit]
      exact Transducer.after_append ..
    have hiff := pending_after_iff htake hguard
    rw [hpending, or_iff_right nofun, ← hafter] at hiff
    refine hiff.trans ?_
    simp only [after, Transducer.after_append]

def announcementB (address nonce : Str) (timestampSecs : UInt64) : SignedEnvelope :=
  signEnvelope .standard "group-a".toList "secret-token".toList "node-b".toList timestampSecs nonce
    .udpAnnouncement (serializePayload [("sid".toList, "group-a".toList),
      ("participant_id".toList, "node-b".toList), ("address".toList, address), ("port".toList, "2222".toList),
      ("public_key".toList, "ssh-ed25519 AAAA node-b".toList)])

def recordB (address : Str) : PeerRecord :=
  ⟨"node-b".toList, address, 2222, "ssh-ed25519 AAAA node-b".toList⟩

/-- A member that hears `node-b` stores what it announces. -/
theorem perform_announcementB {d : DiscoveryEngine} {address nonce : Str} {timestampSecs nowSecs : UInt64}
    (hsid : d.sid = "group-a".toList) (htoken : d.verifier.sidToken = "secret-token".toList)
    (hexpected : d.verifier.expectedSid = "group-a".toList)
    (hwindow : EnvelopeVerifier.inWindow d.verifier.timestampSkewSecs timestampSecs nowSecs)
    (hfresh : ¬ d.verifier.Remembers (announcementB address nonce timestampSecs) nowSecs)
    (hread : readAnnouncement "group-a".toList (announcementB address nonce timestampSecs).body = .ok
      ⟨"group-a".toList, "node-b".toList, address, 2222, "ssh-ed25519 AAAA node-b".toList⟩) :
    d.heard .standard (announcementB address nonce timestampSecs) nowSecs = some (recordB address) ∧
      d.processAnnouncement .standard (announcementB address nonce timestampSecs) nowSecs =
        (.ok (d.recordPeer ⟨"group-a".toList, "node-b".toList, address, 2222, "ssh-ed25519 AAAA node-b".toList⟩).1,
          { (d.recordPeer ⟨"group-a".toList, "node-b".toList, address, 2222,
              "ssh-ed25519 AAAA node-b".toList⟩).2 with
            verifier := { d.verifier.pruneNonces nowSecs with
              seenNonces := (d.verifier.pruneNonces nowSecs).seenNonces.insert ("node-b:".toList ++ nonce)
                nowSecs } }) := by
  have hauth : verifyEnvelope .standard (announcementB address nonce timestampSecs) d.verifier.sidToken
      d.verifier.expectedSid = .ok () := by
    rw [htoken, hexpected]
    exact verifyEnvelope_signEnvelope ..
  exact processAnnouncement_of_authentic rfl hauth hwindow hfresh (hsid ▸ hread)

private def movingB : List Op := [.addBootstrapPeers ["node-b@10.0.0.2:2222".toList],
  .processAnnouncement (announcementB "10.0.0.5".toList "n-1".toList 1000) 1000,
  .processAnnouncement (announcementB "10.0.0.6".toList "n-2".toList 1010) 1010]

private theorem announced_movingB : (new "group-a".toList "secret-token".toList 60 120).announced .standard movingB =
    [recordB "10.0.0.5".toList, recordB "10.0.0.6".toList] := by
  obtain ⟨hfirst, hafter⟩ := @perform_announcementB
    ((new "group-a".toList "secret-token".toList 60 120).addBootstrapPeers ["node-b@10.0.0.2:2222".toList])
    "10.0.0.5".toList "n-1".toList 1000 1000 rfl rfl rfl (by decide) (by decide) (by decide +kernel)
  obtain ⟨hsecond, -⟩ := @perform_announcementB
    (((new "group-a".toList "secret-token".toList 60 120).addBootstrapPeers
      ["node-b@10.0.0.2:2222".toList]).processAnnouncement .standard
        (announcementB "10.0.0.5".toList "n-1".toList 1000) 1000).2
    "10.0.0.6".toList "n-2".toList 1010 1010 (by rw [hafter]; rfl) (by rw [hafter]; rfl) (by rw [hafter]; rfl)
    (by rw [hafter]; decide) (by rw [hafter]; decide) (by decide +kernel)
  rw [movingB, announced_addBootstrapPeers, announced_processAnnouncement, announced_processAnnouncement, hfirst,
    hsecond]
  rfl

/-- An engine that takes a member's address from its list, from its announcement and from a later one
knows the last, and a sync is due until it is taken. -/
theorem peers_last_accepted_moved :
    let start := new "group-a".toList "secret-token".toList 60 120
    start.announced .standard movingB = [recordB "10.0.0.5".toList, recordB "10.0.0.6".toList] ∧
      (start.after .standard movingB).peers.lookup "node-b".toList = some (recordB "10.0.0.6".toList) ∧
      (start.after .standard movingB).takeSyncTrigger.1 = true ∧
      (start.after .standard (movingB ++ [.takeSyncTrigger])).takeSyncTrigger.1 = false := by
  have hboot : Transducer.Guarded (perform .standard) BootstrapsWhileEmpty
    (new "group-a".toList "secret-token".toList 60 120) movingB := ⟨rfl, trivial, trivial, trivial⟩
  have hmoved := peers_last_accepted (P := .standard) "group-a".toList "secret-token".toList 60 120 movingB hboot
  have htaken := peers_last_accepted (P := .standard) "group-a".toList "secret-token".toList 60 120
    (movingB ++ [.takeSyncTrigger])
    (Transducer.guarded_append.mpr (by exact ⟨hboot, trivial, trivial⟩))
  refine ⟨announced_movingB, ?_, ?_, ?_⟩
  · rw [hmoved.2.1, announced_movingB]
    decide +kernel
  · refine (hmoved.2.2.2 [] _ rfl (Or.inl rfl) (by simp)).mpr ⟨[], _, _, rfl, "node-b".toList, ?_⟩
    rw [lookup_perform]
    decide +kernel
  · refine Bool.eq_false_iff.mpr fun hdue => ?_
    obtain ⟨earlier, op, later, hnil, -⟩ :=
      (htaken.2.2.2 (movingB ++ [.takeSyncTrigger]) [] rfl (Or.inr rfl) List.not_mem_nil).mp hdue
    exact absurd (congrArg List.length hnil) (by simp)

end DiscoveryEngine
end SshKeySync.Discovery
