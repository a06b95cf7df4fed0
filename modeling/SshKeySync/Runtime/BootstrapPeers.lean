import SshKeySync.Discovery.PeerTable
import SshKeySync.Runtime.SyncCycle

/-! The two parsers of bootstrap entries. They share one grammar, but for an entry without a host,
which the runtime contacts and discovery does not know. -/
namespace SshKeySync.Runtime
open RustStd Auth Discovery Config LastWriter

/-- Up to whitespace the entry is `:port` or `id@:port`, with a port that parses. -/
def Hostless (value : Str) : Prop := ∃ port, ':' ∉ port ∧ (parseU16 (trim port)).isSome ∧
  (trim value = ':' :: port ∧ '@' ∉ port ∨ ∃ participant hostPort,
    trim value = participant ++ '@' :: hostPort ∧ '@' ∉ participant ∧ trim hostPort = ':' :: port)

/-- Both parsers refuse the entry, or both read the same participant, address and port. -/
def ParsersAgree (value : Str) : Prop :=
  (parseBootstrapPeer value).map (fun endpoint => (endpoint.participantId, endpoint.address, endpoint.port)) =
    Discovery.parseBootstrapPeer value

private theorem eq_nil_of_unpadded {host rest : Str} (h : Unpadded (host ++ rest)) (hblank : trim host = []) :
    host = [] := by
  cases host with
  | nil => rfl
  | cons c host =>
    have hwhite := (trim_eq_nil_iff _).mp hblank c List.mem_cons_self
    exact absurd ((h.1 c rfl).symm.trans hwhite) Bool.false_ne_true

private theorem bootstrapParts_unpadded (value : Str) : Unpadded (bootstrapParts (trim value)).2 := by
  rw [bootstrapParts]
  split
  · exact trim_unpadded _
  · exact trim_unpadded _

private theorem bootstrapFields_eq_some_iff {value participantId address : Str} {port : UInt16} :
    bootstrapFields value = some (participantId, address, port) ↔ trim value ≠ [] ∧ ∃ host portText,
      bootstrapParts (trim value) = (participantId, host ++ ':' :: portText) ∧ ':' ∉ portText ∧
      parseU16 (trim portText) = some port ∧ trim host = address := by
  rw [bootstrapFields]
  split
  · rename_i hblank
    exact iff_of_false nofun fun h => h.1 hblank
  · rename_i hne
    rw [and_iff_right hne]
    obtain ⟨participant, hostPort⟩ := bootstrapParts (trim value)
    simp only [Option.bind_eq_bind, Option.bind_eq_some_iff, Prod.exists, rsplitOnce_eq_some_iff]
    constructor
    · rintro ⟨host, portText, ⟨rfl, hcolon⟩, number, hnumber, heq⟩
      cases heq
      exact ⟨host, portText, rfl, hcolon, hnumber, rfl⟩
    · rintro ⟨host, portText, heq, hcolon, hnumber, rfl⟩
      cases heq
      exact ⟨host, portText, ⟨rfl, hcolon⟩, port, hnumber, rfl⟩

/-- The shared part of the parsers reads an empty address from exactly the hostless entries. -/
theorem hostless_iff {value : Str} :
    Hostless value ↔ ∃ participantId port, bootstrapFields value = some (participantId, [], port) := by
  simp only [bootstrapFields_eq_some_iff]
  constructor
  · rintro ⟨portText, hcolon, hport, hshape⟩
    obtain ⟨port, hport⟩ := Option.isSome_iff_exists.mp hport
    rcases hshape with ⟨hvalue, hat⟩ | ⟨participant, hostPort, hvalue, hat, htrim⟩
    · have hnone : splitOnce '@' (trim value) = none := by
        rw [hvalue, splitOnce_eq_none_iff, List.mem_cons, not_or]
        exact ⟨by decide, hat⟩
      refine ⟨trim value, port, hvalue ▸ List.cons_ne_nil _ _, [], portText, ?_, hcolon, hport, rfl⟩
      rw [bootstrapParts, hnone, hvalue]
      rfl
    · have hsome : splitOnce '@' (trim value) = some (participant, hostPort) :=
        splitOnce_eq_some_iff.mpr ⟨hvalue, hat⟩
      refine ⟨trim participant, port, ?_, [], portText, ?_, hcolon, hport, rfl⟩
      · rw [hvalue]
        exact List.append_ne_nil_of_right_ne_nil _ (List.cons_ne_nil _ _)
      · rw [bootstrapParts, hsome]
        exact congrArg (Prod.mk _) htrim
  · rintro ⟨participantId, port, -, host, portText, hparts, hcolon, hport, hblank⟩
    have hunpadded := bootstrapParts_unpadded value
    rw [hparts] at hunpadded
    obtain rfl := eq_nil_of_unpadded hunpadded hblank
    refine ⟨portText, hcolon, hport ▸ rfl, ?_⟩
    rw [bootstrapParts] at hparts
    split at hparts
    · rename_i participant hostPort hsplit
      obtain ⟨hvalue, hat⟩ := splitOnce_eq_some_iff.mp hsplit
      exact Or.inr ⟨participant, hostPort, hvalue, hat, congrArg Prod.snd hparts⟩
    · rename_i hsplit
      have hvalue : trim value = ':' :: portText := congrArg Prod.snd hparts
      rw [splitOnce_eq_none_iff, hvalue, List.mem_cons, not_or] at hsplit
      exact Or.inl ⟨hvalue, hsplit.2⟩

private theorem parsersAgree_iff {value : Str} : ParsersAgree value ↔ ¬ Hostless value := by
  rw [hostless_iff, ParsersAgree, parseBootstrapPeer, Option.map_map, Discovery.parseBootstrapPeer]
  cases bootstrapFields value with
  | none => exact iff_of_true rfl (by simp)
  | some fields =>
    obtain ⟨participantId, address, port⟩ := fields
    by_cases haddress : address = []
    · subst haddress
      refine iff_of_false (fun h => ?_) (not_not.mpr ⟨participantId, port, rfl⟩)
      cases h
    · refine iff_of_true (if_neg haddress).symm ?_
      rintro ⟨_, _, heq⟩
      exact haddress (congrArg (·.2.1) (Option.some.inj heq))

def recordEndpoint (record : PeerRecord) : PeerEndpoint := ⟨record.participantId, record.address, record.port⟩

def Contacts (config : AppConfig) (c : Cycle) (endpoint : PeerEndpoint) : Prop :=
  (syncEndpoints config c).lookup endpoint.participantId = some endpoint ∧
    endpoint.participantId ≠ config.participantId

def Knows (d : DiscoveryEngine) (endpoint : PeerEndpoint) : Prop :=
  ∃ record, d.peers.lookup endpoint.participantId = some record ∧ recordEndpoint record = endpoint

section
variable {P : Primitives} {config : AppConfig} {c : Cycle} {p : Str}

/-- A discovered peer, else the last bootstrap entry of the participant. -/
theorem lookup_syncEndpoints
    (hkeys : ∀ q record, c.discovery.peers.lookup q = some record → record.participantId = q) :
    (syncEndpoints config c).lookup p = ((c.discovery.peers.lookup p).map recordEndpoint).or
      (latest PeerEndpoint.participantId p (bootstrapEndpoints config)) := by
  rw [syncEndpoints, HashMap.collect, List.map_append, List.foldl_append]
  cases hrecord : c.discovery.peers.lookup p with
  | some record =>
    refine HashMap.lookup_foldl_insert_of_mem ?_ ?_
    · rw [List.map_map, discoveredEndpoints, List.map_map]
      exact HashMap.nodup_iterate hkeys
    · refine List.mem_map.mpr ⟨recordEndpoint record, ?_, ?_⟩
      · exact List.mem_map_of_mem (HashMap.mem_iterate.mpr ⟨p, hrecord⟩)
      · rw [show (recordEndpoint record).participantId = p from hkeys p record hrecord]
  | none =>
    rw [HashMap.lookup_foldl_insert_of_not_mem]
    · rw [← HashMap.collect, HashMap.lookup_collect, List.filter_map, List.getLast?_map, Option.map_map]
      exact Option.map_id'
    · intro endpoint hmem
      obtain ⟨found, hfound, heq⟩ := List.mem_map.mp hmem
      obtain ⟨record, hrecords, rfl⟩ := List.mem_map.mp hfound
      obtain ⟨q, hq⟩ := HashMap.mem_iterate.mp hrecords
      obtain rfl : q = p := (hkeys q record hq).symm.trans (congrArg Prod.fst heq)
      rw [hq] at hrecord
      cases hrecord

/-- The process's engine after some announcements: it starts with the bootstrap entries. -/
def engineAfter (P : Primitives) (config : AppConfig) (ops : List Discovery.Op) : DiscoveryEngine :=
  ((DiscoveryEngine.new config.sid config.sidToken timestampSkewSecs nonceTtlSecs).addBootstrapPeers
    config.bootstrapPeers).after P ops

/-- Both parsers read every bootstrap entry alike, and whatever was announced since the start, a cycle
contacts exactly the endpoints that the engine knows, but for the process's own. -/
def BootstrapsAgree (P : Primitives) (config : AppConfig) : Prop :=
  (∀ value ∈ config.bootstrapPeers, ParsersAgree value) ∧
  ∀ ops, (∀ op ∈ ops, ∀ bootstrapPeers, op ≠ .addBootstrapPeers bootstrapPeers) →
    ∀ c : Cycle, c.discovery = engineAfter P config ops →
      ∀ endpoint, Contacts config c endpoint ↔
        Knows c.discovery endpoint ∧ endpoint.participantId ≠ config.participantId

/-- The engine of the daemon is a run that begins with the bootstrap list. -/
theorem engineAfter_eq (ops : List Discovery.Op) : engineAfter P config ops =
    (DiscoveryEngine.new config.sid config.sidToken timestampSkewSecs nonceTtlSecs).after P
      (.addBootstrapPeers config.bootstrapPeers :: ops) := rfl

/-- In such a run bootstrap entries meet an empty table. -/
theorem bootstraps_first {ops : List Discovery.Op}
    (hops : ∀ op ∈ ops, ∀ bootstrapPeers, op ≠ .addBootstrapPeers bootstrapPeers) :
    Transducer.Guarded (DiscoveryEngine.perform P) DiscoveryEngine.BootstrapsWhileEmpty
      (DiscoveryEngine.new config.sid config.sidToken timestampSkewSecs nonceTtlSecs)
      (.addBootstrapPeers config.bootstrapPeers :: ops) := by
  refine ⟨rfl, Transducer.guarded_of_forall (fun op hop d => ?_) _⟩
  cases op with
  | addBootstrapPeers bootstrapPeers => exact absurd rfl (hops _ hop bootstrapPeers)
  | processAnnouncement envelope nowSecs => trivial
  | takeSyncTrigger => trivial

private theorem latest_bootstrapEndpoints (h : ∀ value ∈ config.bootstrapPeers, ParsersAgree value)
    {ops : List Discovery.Op} (hops : ∀ op ∈ ops, ∀ bootstrapPeers, op ≠ .addBootstrapPeers bootstrapPeers)
    (hnone : (engineAfter P config ops).peers.lookup p = none) :
    latest PeerEndpoint.participantId p (bootstrapEndpoints config) = none := by
  rw [engineAfter_eq, DiscoveryEngine.lookup_after rfl (bootstraps_first hops), Option.or_eq_none_iff] at hnone
  refine latest_eq_none_iff.mpr fun endpoint hendpoint => ?_
  obtain ⟨value, hvalue, hparse⟩ := List.mem_filterMap.mp hendpoint
  have hagree := h value hvalue
  rw [ParsersAgree, hparse] at hagree
  have hrecord : bootstrapRecord value = some ⟨endpoint.participantId, endpoint.address, endpoint.port, []⟩ := by
    rw [bootstrapRecord, ← hagree]
    rfl
  have hlisted := List.mem_filterMap.mpr ⟨value, hvalue, hrecord⟩
  exact latest_eq_none_iff.mp hnone.2 _ (List.mem_flatMap.mpr ⟨_, List.mem_cons_self, hlisted⟩)

private theorem contacts_iff_knows (h : ∀ value ∈ config.bootstrapPeers, ParsersAgree value) {ops : List Discovery.Op}
    (hops : ∀ op ∈ ops, ∀ bootstrapPeers, op ≠ .addBootstrapPeers bootstrapPeers)
    (hc : c.discovery = engineAfter P config ops) (endpoint : PeerEndpoint) :
    Contacts config c endpoint ↔
      Knows c.discovery endpoint ∧ endpoint.participantId ≠ config.participantId := by
  have hkeys (q : Str) (record : PeerRecord) (hq : c.discovery.peers.lookup q = some record) :
      record.participantId = q := by
    rw [hc, engineAfter_eq] at hq
    exact DiscoveryEngine.participantId_of_lookup rfl (bootstraps_first hops) hq
  rw [Contacts, lookup_syncEndpoints hkeys, Knows]
  refine and_congr_left fun _ => ?_
  cases hlookup : c.discovery.peers.lookup endpoint.participantId with
  | some record => simp
  | none =>
    rw [latest_bootstrapEndpoints h hops (hc ▸ hlookup)]
    simp

end

/-- The two copies agree, and with them the cycle and the engine, exactly when no entry lacks a host. -/
theorem bootstrapsAgree_iff (P : Primitives) (config : AppConfig) :
    BootstrapsAgree P config ↔ ∀ value ∈ config.bootstrapPeers, ¬ Hostless value := by
  constructor
  · exact fun h value hvalue => parsersAgree_iff.mp (h.1 value hvalue)
  · intro h
    have hagree (value : Str) (hvalue : value ∈ config.bootstrapPeers) : ParsersAgree value :=
      parsersAgree_iff.mpr (h value hvalue)
    exact ⟨hagree, fun ops hops c hc => contacts_iff_knows hagree hops hc⟩

/-- An entry with an id and a port alone: the first cycle contacts what the engine does not know. -/
theorem hostless_entry_contacted :
    let bootstrapPeers := ["node-b@:9922".toList]
    let c := firstCycleA bootstrapPeers fun _ _ _ => none
    Contacts (startedA bootstrapPeers).config c ⟨"node-b".toList, [], 9922⟩ ∧
      ¬ Knows c.discovery ⟨"node-b".toList, [], 9922⟩ ∧
      ¬ BootstrapsAgree .standard (startedA bootstrapPeers).config := by
  refine ⟨⟨by decide +kernel, by decide⟩, ?_, fun h => ?_⟩
  · rintro ⟨record, hrecord, -⟩
    have hnone : (firstCycleA ["node-b@:9922".toList] fun _ _ _ => none).discovery.peers.lookup "node-b".toList =
      none := by decide +kernel
    rw [hnone] at hrecord
    cases hrecord
  · refine parsersAgree_iff.mp (h.1 _ List.mem_cons_self) ⟨"9922".toList, by decide, by decide, Or.inr ?_⟩
    exact ⟨"node-b".toList, ":9922".toList, by decide, by decide, by decide⟩

end SshKeySync.Runtime
