import SshKeySync.Runtime.SyncCycle

/-! Whose key an entry of the map holds. The signed participant of a response is not compared
with the endpoint it came from, so that entries are right exactly when responses name their
endpoints. -/
namespace SshKeySync.Runtime
open RustStd Auth Transport Discovery Config

/-- The endpoint id names a participant: it was announced, with a key, or stands before the
`@` of a bootstrap entry. -/
def Identified (config : AppConfig) (c : Cycle) (p : Str) : Prop :=
  (∃ record ∈ HashMap.values c.discovery.peers, record.participantId = p ∧ record.publicKey ≠ []) ∨
    ∃ peer ∈ config.bootstrapPeers, '@' ∈ peer ∧
      ∃ endpoint, parseBootstrapPeer peer = some endpoint ∧ endpoint.participantId = p

section
variable (P : Primitives) (process : Process)

/-- The identified endpoints of a cycle return no verified response of somebody else. -/
def NamesItself (c : Cycle) : Prop :=
  ∀ p endpoint payload, (syncEndpoints process.config c).lookup p = some endpoint →
    p ≠ process.config.participantId → Identified process.config c p →
    requestPayload P process.service c endpoint = .ok payload → payload.participantId = p

/-- An entry was set by the last cycle in which its endpoint answered; if that endpoint was
identified, the verified response that carried the key is its own. -/
def EntryOwned (cycles : List Cycle) (p key : Str) : Prop :=
  ∃ earlier c later endpoint payload, cycles = earlier ++ c :: later ∧
    (∀ c' ∈ later, cycleAnswer P process c' p = none) ∧
    (syncEndpoints process.config c).lookup p = some endpoint ∧
    requestPayload P process.service c endpoint = .ok payload ∧ payload.publicKey = key ∧
    (Identified process.config c p → payload.participantId = p)

/-- After any number of cycles each entry is owned. -/
def EntriesOwned (cycles : List Cycle) : Prop :=
  ∀ done, done <+: cycles → ∀ p key,
    (managedKeysAfter P process done).lookup p = some key → EntryOwned P process done p key

variable {P process} {cycles : List Cycle}

/-- An entry's source is its latest answer, which names its own endpoint. -/
theorem entryOwned_of_namesItself (h : ∀ c ∈ cycles, NamesItself P process c) {p key : Str}
    (hentry : (managedKeysAfter P process cycles).lookup p = some key) :
    EntryOwned P process cycles p key := by
  rw [lookup_managedKeysAfter] at hentry
  obtain ⟨earlier, c, later, rfl, hanswer, hlater⟩ := lastAnswer_eq_some_iff.mp hentry
  obtain ⟨endpoint, payload, hlookup, hself, hpayload, hkey⟩ := cycleAnswer_eq_some_iff.mp hanswer
  refine ⟨earlier, c, later, endpoint, payload, rfl, hlater, hlookup, hpayload, hkey, fun hid => ?_⟩
  exact h c (List.mem_append_right _ List.mem_cons_self) p endpoint payload hlookup hself hid hpayload

/-- Right after a cycle in which an endpoint has answered, that answer is the entry's source. -/
theorem owner_of_entryOwned {earlier : List Cycle} {c : Cycle} {p key : Str} {endpoint : PeerEndpoint}
    {payload : PublicKeyPayload} (h : EntryOwned P process (earlier ++ [c]) p key)
    (hself : p ≠ process.config.participantId)
    (hlookup : (syncEndpoints process.config c).lookup p = some endpoint)
    (hpayload : requestPayload P process.service c endpoint = .ok payload)
    (hid : Identified process.config c p) : payload.participantId = p := by
  obtain ⟨earlier', c', later, endpoint', payload', hsplit, hlater, hlookup', hpayload', -, howner⟩ := h
  have hanswer : cycleAnswer P process c p = some payload.publicKey :=
    cycleAnswer_eq_some_iff.mpr ⟨endpoint, payload, hlookup, hself, hpayload, rfl⟩
  rcases List.eq_nil_or_concat later with rfl | ⟨rest, last, rfl⟩
  · obtain ⟨-, hc⟩ := List.append_inj' hsplit rfl
    obtain rfl := List.head_eq_of_cons_eq hc
    obtain rfl := Option.some.inj (hlookup.symm.trans hlookup')
    obtain rfl := Except.ok.inj (hpayload.symm.trans hpayload')
    exact howner hid
  · have hlast : earlier ++ [c] = (earlier' ++ c' :: rest) ++ [last] := by simpa using hsplit
    obtain ⟨-, hc⟩ := List.append_inj' hlast rfl
    have hnone := hlater last (by simp)
    rw [← List.head_eq_of_cons_eq hc, hanswer] at hnone
    cases hnone

/-- The entries are owned in every state reached exactly when no cycle's identified endpoint
returns a verified response of somebody else. -/
theorem entriesOwned_iff :
    EntriesOwned P process cycles ↔ ∀ c ∈ cycles, NamesItself P process c := by
  constructor
  · intro h c hc p endpoint payload hlookup hself hid hpayload
    obtain ⟨earlier, later, rfl⟩ := List.append_of_mem hc
    have hanswer : cycleAnswer P process c p = some payload.publicKey :=
      cycleAnswer_eq_some_iff.mpr ⟨endpoint, payload, hlookup, hself, hpayload, rfl⟩
    have hentry : (managedKeysAfter P process (earlier ++ [c])).lookup p = some payload.publicKey := by
      rw [lookup_managedKeysAfter]
      exact lastAnswer_eq_some_iff.mpr ⟨earlier, c, [], rfl, hanswer, nofun⟩
    have hbegins : earlier ++ [c] <+: earlier ++ c :: later := ⟨later, by simp⟩
    exact owner_of_entryOwned (h _ hbegins p _ hentry) hself hlookup hpayload hid
  · intro h done hdone p key hentry
    exact entryOwned_of_namesItself (fun c hc => h c (hdone.subset hc)) hentry

end

private def peerB : List Str := ["node-b@10.0.0.2:2222".toList]

private def nodeBEndpoint : PeerEndpoint := ⟨"node-b".toList, "10.0.0.2".toList, 2222⟩

private def replaysC : Network := fun _ _ _ => some (keyResponse .standard nodeC 900 "n-2".toList)

/-- The key of one member is installed under the id of another, although no verified response
names that other one. -/
theorem substituted_key_installed :
    (managedKeysAfter .standard (startedA peerB) [firstCycleA peerB replaysC]).lookup "node-b".toList =
        some nodeC.publicKey ∧
      Identified (startedA peerB).config (firstCycleA peerB replaysC) "node-b".toList ∧
      ∀ endpoint payload, requestPayload .standard (startedA peerB).service (firstCycleA peerB replaysC)
        endpoint = .ok payload → payload.participantId ≠ "node-b".toList := by
  have hpayload (endpoint : PeerEndpoint) : requestPayload .standard (startedA peerB).service
      (firstCycleA peerB replaysC) endpoint = .ok ⟨nodeC.sid, nodeC.participantId, nodeC.publicKey⟩ :=
    requestPayload_of_response nodeA nodeC rfl rfl (by decide) (by decide)
      (by decide : Records.WireSafe "n-2".toList) 900 fun _ => rfl
  have hendpoint : (syncEndpoints (startedA peerB).config (firstCycleA peerB replaysC)).lookup
      "node-b".toList = some nodeBEndpoint := by decide +kernel
  have hparsed : parseBootstrapPeer "node-b@10.0.0.2:2222".toList = some nodeBEndpoint := by decide +kernel
  have hat : '@' ∈ "node-b@10.0.0.2:2222".toList := by decide
  have hanswer : cycleAnswer .standard (startedA peerB) (firstCycleA peerB replaysC) "node-b".toList =
      some nodeC.publicKey := cycleAnswer_eq_some_iff.mpr ⟨_, _, hendpoint, by decide, hpayload _, rfl⟩
  have hid : Identified (startedA peerB).config (firstCycleA peerB replaysC) "node-b".toList :=
    Or.inr ⟨"node-b@10.0.0.2:2222".toList, List.mem_singleton_self _, hat, nodeBEndpoint, hparsed, rfl⟩
  refine ⟨?_, hid, fun endpoint payload h => ?_⟩
  · rw [lookup_managedKeysAfter]
    exact lastAnswer_eq_some_iff.mpr ⟨[], _, [], rfl, hanswer, nofun⟩
  · rw [hpayload] at h
    cases h
    decide

end SshKeySync.Runtime
