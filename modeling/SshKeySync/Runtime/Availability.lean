import SshKeySync.AuthorizedKeys.UpdateRuns
import SshKeySync.Runtime.SyncCycle

/-! Access across the cycles of one process. The map starts empty and replaces the whole
block, so what is kept of an old block is what some endpoint has answered since the start. -/
namespace SshKeySync.Runtime
open RustStd Auth Transport Discovery Config AuthorizedKeys Keys

/-- The keys of the managed block, in normal form. -/
def blockKeys (content : Str) : List Str :=
  (blockLines (lines content)).filterMap fun line => (normalizePublicKey line).toOption

section
variable (P : Primitives) (process : Process)

/-- After each cycle of a run, every key of the first block is still in the block. -/
def KeepsAccess (content : Str) (cycles : List Cycle) : Prop :=
  ∀ done, done <+: cycles → done ≠ [] → ∀ s, syncRun P process content done = some s →
    ∀ key ∈ blockKeys content, key ∈ blockKeys s.content

variable {P process} {content : Str}

/-- A block that has just been written holds the normal forms of the keys. -/
theorem mem_blockKeys_of_updated {managedKeys : List Str} {out : Str}
    (h : Updated content managedKeys out) {key : Str} :
    key ∈ blockKeys out ↔ ∃ source ∈ managedKeys, normalizePublicKey source = .ok key := by
  simp only [blockKeys, h.blockLines_eq, List.mem_filterMap, mem_normalizedKeys, toOption_eq_some_iff]
  constructor
  · rintro ⟨line, ⟨source, hsource, hline⟩, hkey⟩
    have hsame := (normalizePublicKey_idempotent hline).symm.trans hkey
    exact ⟨source, hsource, Except.ok.inj hsame ▸ hline⟩
  · rintro ⟨source, hsource, hkey⟩
    exact ⟨key, ⟨source, hsource, hkey⟩, normalizePublicKey_idempotent hkey⟩

/-- From a well-ordered text the next write succeeds, and the block holds the map's values. -/
theorem syncStep_of_wellOrdered (hdry : process.config.dryRun = false) {s : ProcessState}
    (h : WellOrdered (lines s.content)) (c : Cycle)
    (hkeys : ∀ p key, (runSyncCycle P process c s.managedKeys).lookup p = some key →
      normalizePublicKey key = .ok key) :
    ∃ s', syncStep P process c s = .ok s' ∧ s'.managedKeys = runSyncCycle P process c s.managedKeys ∧
      WellOrdered (lines s'.content) ∧
      ∀ key, key ∈ blockKeys s'.content ↔ ∃ p, s'.managedKeys.lookup p = some key := by
  have haccepted : Accepted (HashMap.iterate c.keyOrder (runSyncCycle P process c s.managedKeys)) := by
    intro key hkey
    obtain ⟨p, hp⟩ := HashMap.mem_iterate.mp hkey
    exact ⟨key, hkeys p key hp⟩
  obtain ⟨out, hout, hupdated⟩ := upsert_updated h haccepted
  refine ⟨⟨_, out⟩, ?_, rfl, hupdated.wellOrdered, fun key => ?_⟩
  · rw [syncStep, applyManagedKeys, hdry, hout]
    rfl
  · rw [mem_blockKeys_of_updated hupdated]
    constructor
    · rintro ⟨source, hsource, hkey⟩
      obtain ⟨p, hp⟩ := HashMap.mem_iterate.mp hsource
      have hsame := (hkeys p source hp).symm.trans hkey
      exact ⟨p, Except.ok.inj hsame ▸ hp⟩
    · rintro ⟨p, hp⟩
      exact ⟨key, HashMap.mem_iterate.mpr ⟨p, hp⟩, hkeys p key hp⟩

/-- Every run of cycles gets through, and its last block holds exactly the latest answers. -/
theorem syncRun_of_wellOrdered (hdry : process.config.dryRun = false) (h : WellOrdered (lines content))
    (cycles : List Cycle) : ∃ s, syncRun P process content cycles = some s ∧
      s.managedKeys = managedKeysAfter P process cycles ∧ WellOrdered (lines s.content) ∧
      (cycles ≠ [] → ∀ key, key ∈ blockKeys s.content ↔
        ∃ p, lastAnswer P process cycles p = some key) := by
  induction cycles using List.reverseRecOn with
  | nil => exact ⟨_, rfl, rfl, h, fun hne => absurd rfl hne⟩
  | append_singleton cycles c ih =>
    obtain ⟨s, hrun, hmanaged, hordered, -⟩ := ih
    have hafter : runSyncCycle P process c s.managedKeys = managedKeysAfter P process (cycles ++ [c]) := by
      rw [hmanaged, managedKeysAfter, managedKeysAfter, List.foldl_append]
      rfl
    obtain ⟨s', hstep, hmanaged', hordered', hblock⟩ := syncStep_of_wellOrdered hdry hordered c
      fun p key hp => normalized_of_lastAnswer (by rwa [hafter, lookup_managedKeysAfter] at hp)
    refine ⟨s', ?_, hmanaged'.trans hafter, hordered', fun _ key => ?_⟩
    · rw [syncRun, Runs.run_append, show Runs.run _ _ cycles = some s from hrun, Option.bind_some,
        Runs.run_cons, hstep]
      rfl
    · rw [hblock, hmanaged', hafter]
      simp only [lookup_managedKeysAfter]

/-- Access is kept exactly when after each cycle every key of the first block is the latest
answer of some endpoint since the process has started. -/
theorem keepsAccess_iff (hdry : process.config.dryRun = false) (h : WellOrdered (lines content))
    (cycles : List Cycle) : KeepsAccess P process content cycles ↔
      ∀ done, done <+: cycles → done ≠ [] → ∀ key ∈ blockKeys content,
        ∃ p, lastAnswer P process done p = some key := by
  refine forall_congr' fun done => forall_congr' fun _ => forall_congr' fun hne => ?_
  obtain ⟨s, hrun, -, -, hblock⟩ := syncRun_of_wellOrdered (P := P) hdry h done
  constructor
  · intro hkept key hkey
    exact (hblock hne key).mp (hkept s hrun key hkey)
  · intro hanswered s' hrun' key hkey
    obtain rfl := Option.some.inj (hrun.symm.trans hrun')
    exact (hblock hne key).mpr (hanswered key hkey)

end

private def block (keys : List Str) : Str := joinLines (managedBlock keys)

private def onlyBAnswers : Network := fun address _ _ =>
  if address = "10.0.0.2".toList then some (keyResponse .standard nodeB 1001 "n-2".toList) else none

private theorem requestPayload_atB {peers : List Str} {endpoint : PeerEndpoint}
    (h : endpoint.address = "10.0.0.2".toList) : requestPayload .standard nodeA
      (firstCycleA peers onlyBAnswers) endpoint = .ok ⟨nodeB.sid, nodeB.participantId, nodeB.publicKey⟩ :=
  requestPayload_of_response nodeA nodeB rfl rfl (by decide) (by decide)
    (by decide : Records.WireSafe "n-2".toList) 1001 fun _ => if_pos h

private theorem publicKey_of_onlyB {peers : List Str} {endpoint : PeerEndpoint}
    {payload : PublicKeyPayload} (h : requestPayload .standard nodeA (firstCycleA peers onlyBAnswers)
      endpoint = .ok payload) : payload.publicKey = nodeB.publicKey := by
  by_cases haddress : endpoint.address = "10.0.0.2".toList
  · rw [requestPayload_atB haddress] at h
    cases h
    rfl
  · rw [requestPayload_of_silence fun _ => if_neg haddress] at h
    cases h

/-- A peer that answers keeps its key in the block. -/
theorem keepsAccess_iff_answering : KeepsAccess .standard (startedA ["node-b@10.0.0.2:2222".toList])
    (block [nodeB.publicKey]) [firstCycleA ["node-b@10.0.0.2:2222".toList] onlyBAnswers] := by
  have hordered : WellOrdered (lines (block [nodeB.publicKey])) := Or.inr ⟨0, 2, by decide +kernel⟩
  have hendpoint : (syncEndpoints (startedA ["node-b@10.0.0.2:2222".toList]).config
      (firstCycleA ["node-b@10.0.0.2:2222".toList] onlyBAnswers)).lookup "node-b".toList =
        some ⟨"node-b".toList, "10.0.0.2".toList, 2222⟩ := by decide +kernel
  have hblock : blockKeys (block [nodeB.publicKey]) = [nodeB.publicKey] := by decide +kernel
  refine (keepsAccess_iff rfl hordered _).mpr fun done hdone hne key hkey => ?_
  rcases List.prefix_cons_iff.mp hdone with rfl | ⟨rest, rfl, hrest⟩
  · exact absurd rfl hne
  · obtain rfl := List.prefix_nil.mp hrest
    rw [hblock, List.mem_singleton] at hkey
    refine ⟨"node-b".toList, lastAnswer_eq_some_iff.mpr ⟨[], _, [], rfl, ?_, nofun⟩⟩
    exact cycleAnswer_eq_some_iff.mpr
      ⟨_, _, hendpoint, by decide, requestPayload_atB rfl, hkey.symm⟩

private def peersBC : List Str := ["node-b@10.0.0.2:2222".toList, "node-c@10.0.0.3:2222".toList]

/-- With two keys in the block and one of the two peers silent in the first cycle, every
answer is a key of the block, and the silent peer's key is gone. -/
theorem silent_peer_loses_access :
    let content := block [nodeB.publicKey, nodeC.publicKey]
    let cycle := firstCycleA peersBC onlyBAnswers
    WellOrdered (lines content) ∧ (startedA peersBC).config.dryRun = false ∧
      (∀ p key, cycleAnswer .standard (startedA peersBC) cycle p = some key → key ∈ blockKeys content) ∧
      ¬ KeepsAccess .standard (startedA peersBC) content [cycle] := by
  intro content cycle
  have hordered : WellOrdered (lines content) := Or.inr ⟨0, 3, by decide +kernel⟩
  have hblock : blockKeys content = [nodeB.publicKey, nodeC.publicKey] := by decide +kernel
  have hanswers {p key : Str} (h : cycleAnswer .standard (startedA peersBC) cycle p = some key) :
      key = nodeB.publicKey := by
    obtain ⟨endpoint, payload, -, -, hpayload, rfl⟩ := cycleAnswer_eq_some_iff.mp h
    exact publicKey_of_onlyB hpayload
  refine ⟨hordered, rfl, fun p key h => ?_, fun hkept => ?_⟩
  · rw [hblock, hanswers h]
    exact List.mem_cons_self
  · obtain ⟨s, hrun, -, -, hafter⟩ := syncRun_of_wellOrdered (P := .standard)
      (show (startedA peersBC).config.dryRun = false from rfl) hordered [cycle]
    have hold : nodeC.publicKey ∈ blockKeys content := by
      rw [hblock]
      exact List.mem_cons_of_mem _ List.mem_cons_self
    have hnew := hkept [cycle] List.prefix_rfl (List.cons_ne_nil _ _) s hrun _ hold
    obtain ⟨p, hp⟩ := (hafter (List.cons_ne_nil _ _) _).mp hnew
    exact absurd (hanswers hp) (by decide)

end SshKeySync.Runtime
