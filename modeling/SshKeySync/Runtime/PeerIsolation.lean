import SshKeySync.AuthorizedKeys.UpdateRuns
import SshKeySync.Runtime.SyncCycle

/-! What one endpoint can do to a sync. It decides its own entry of the map and no other, and
whatever it answers, the values of the map can be written. -/
namespace SshKeySync.Runtime
open RustStd Auth Transport Discovery Config AuthorizedKeys Keys

section
variable (P : Primitives) (process : Process)

/-- The endpoint of a participant gives back a response that is verified and has this key. -/
def Answers (c : Cycle) (p key : Str) : Prop := ∃ endpoint envelope payload,
  (syncEndpoints process.config c).lookup p = some endpoint ∧
  answerEnvelope (responseTo P process.service c endpoint) = .ok envelope ∧
  process.service.verifyAndParsePublicKeyResponse P envelope = .ok payload ∧ payload.publicKey = key

/-- Two cycles treat a participant alike: it has the same endpoint, which is asked at the same
time and reached over the same connection. All else may differ. -/
structure SameFor (p : Str) (c c' : Cycle) : Prop where
  endpoint : (syncEndpoints process.config c).lookup p = (syncEndpoints process.config c').lookup p
  asked : ∀ endpoint, (syncEndpoints process.config c).lookup p = some endpoint →
    c.now endpoint = c'.now endpoint ∧ c.nonce endpoint = c'.nonce endpoint ∧
      c.network endpoint.address endpoint.port = c'.network endpoint.address endpoint.port

/-- What the map of a process is after its cycles, whoever was asked and whatever was answered. -/
structure Isolated (cycles : List Cycle) : Prop where
  present_iff : ∀ p key, p ≠ process.config.participantId →
    ((managedKeysAfter P process cycles).lookup p = some key ↔ ∃ earlier c later,
      cycles = earlier ++ c :: later ∧ Answers P process c p key ∧
      ∀ c' ∈ later, ∀ key', ¬ Answers P process c' p key')
  absent_iff : ∀ p, p ≠ process.config.participantId →
    ((managedKeysAfter P process cycles).lookup p = none ↔ ∀ c ∈ cycles, ∀ key, ¬ Answers P process c p key)
  own : (managedKeysAfter P process cycles).lookup process.config.participantId = none
  others : ∀ p cycles', List.Forall₂ (SameFor process p) cycles cycles' →
    (managedKeysAfter P process cycles).lookup p = (managedKeysAfter P process cycles').lookup p
  accepted : ∀ order : HashMap.Iteration Str, ∃ keys,
    normalizeAndDedup (HashMap.iterate order (managedKeysAfter P process cycles)) = .ok keys
  written : ∀ (order : HashMap.Iteration Str) content,
    upsertManagedBlock content (HashMap.iterate order (managedKeysAfter P process cycles)) ≠
      .error .invalidPublicKey ∧
    ∀ out, upsertManagedBlock content (HashMap.iterate order (managedKeysAfter P process cycles)) = .ok out →
      ∃ before keys after, lines out = before ++ managedBegin :: (keys ++ managedEnd :: after) ∧
        keys.Nodup ∧ ∀ key, key ∈ keys ↔ ∃ p, (managedKeysAfter P process cycles).lookup p = some key

end

variable {P : Primitives} {process : Process} {cycles : List Cycle} {p : Str}

private theorem cycleAnswer_iff_answers (hp : p ≠ process.config.participantId) {c : Cycle} {key : Str} :
    cycleAnswer P process c p = some key ↔ Answers P process c p key := by
  rw [cycleAnswer_eq_some_iff, Answers]
  refine exists_congr fun endpoint => ?_
  constructor
  · rintro ⟨payload, hendpoint, -, hpayload, hkey⟩
    rw [requestPayload_eq_readAnswer] at hpayload
    obtain ⟨envelope, henvelope, hverified⟩ := readAnswer_eq_ok_iff.mp hpayload
    exact ⟨envelope, payload, hendpoint, henvelope, hverified, hkey⟩
  · rintro ⟨envelope, payload, hendpoint, henvelope, hverified, hkey⟩
    refine ⟨payload, hendpoint, hp, ?_, hkey⟩
    rw [requestPayload_eq_readAnswer]
    exact readAnswer_eq_ok_iff.mpr ⟨envelope, henvelope, hverified⟩

private theorem cycleAnswer_eq_none_iff (hp : p ≠ process.config.participantId) {c : Cycle} :
    cycleAnswer P process c p = none ↔ ∀ key, ¬ Answers P process c p key := by
  rw [Option.eq_none_iff_forall_ne_some]
  exact forall_congr' fun key => not_congr (cycleAnswer_iff_answers hp)

private theorem cycleAnswer_own (c : Cycle) : cycleAnswer P process c process.config.participantId = none := by
  refine Option.eq_none_iff_forall_ne_some.mpr fun key h => ?_
  obtain ⟨_, _, -, hself, -⟩ := cycleAnswer_eq_some_iff.mp h
  exact hself rfl

private theorem cycleAnswer_congr {c c' : Cycle} (h : SameFor process p c c') :
    cycleAnswer P process c p = cycleAnswer P process c' p := by
  rw [cycleAnswer, cycleAnswer, ← h.endpoint]
  refine Option.bind_congr fun endpoint hendpoint => ?_
  obtain ⟨hnow, hnonce, hnetwork⟩ := h.asked endpoint hendpoint
  rw [endpointAnswer, endpointAnswer, requestPublicKey, requestPublicKey, requestPayload, requestPayload,
    hnow, hnonce, sendHttpPost, sendHttpPost, hnetwork]

private theorem lastAnswer_congr {cycles' : List Cycle} (h : List.Forall₂ (SameFor process p) cycles cycles') :
    lastAnswer P process cycles p = lastAnswer P process cycles' p := by
  induction h with
  | nil => rfl
  | cons hhead _ ih => rw [lastAnswer, lastAnswer, ih, cycleAnswer_congr hhead]

/-- Every value of the map is a key in normal form. -/
theorem normalized_of_lookup {key : Str} (h : (managedKeysAfter P process cycles).lookup p = some key) :
    normalizePublicKey key = .ok key := by
  rw [lookup_managedKeysAfter] at h
  exact normalized_of_lastAnswer h

private theorem accepted_values (order : HashMap.Iteration Str) :
    Accepted (HashMap.iterate order (managedKeysAfter P process cycles)) := by
  intro key hkey
  obtain ⟨p, hp⟩ := HashMap.mem_iterate.mp hkey
  exact ⟨key, normalized_of_lookup hp⟩

private theorem mem_normalizedKeys_values {order : HashMap.Iteration Str} {key : Str} :
    key ∈ normalizedKeys (HashMap.iterate order (managedKeysAfter P process cycles)) ↔
      ∃ p, (managedKeysAfter P process cycles).lookup p = some key := by
  rw [mem_normalizedKeys]
  constructor
  · rintro ⟨source, hsource, hkey⟩
    obtain ⟨p, hp⟩ := HashMap.mem_iterate.mp hsource
    have hsame := (normalized_of_lookup hp).symm.trans hkey
    exact ⟨p, Except.ok.inj hsame ▸ hp⟩
  · rintro ⟨p, hp⟩
    exact ⟨key, HashMap.mem_iterate.mpr ⟨p, hp⟩, normalized_of_lookup hp⟩

/-- Peers harm neither each other nor the process, in any run of cycles. -/
theorem sync_isolated (P : Primitives) (process : Process) (cycles : List Cycle) : Isolated P process cycles where
  present_iff p key hp := by
    rw [lookup_managedKeysAfter, lastAnswer_eq_some_iff]
    refine exists_congr fun earlier => exists_congr fun c => exists_congr fun later => and_congr_right fun _ => ?_
    exact and_congr (cycleAnswer_iff_answers hp) (forall₂_congr fun c' _ => cycleAnswer_eq_none_iff hp)
  absent_iff p hp := by
    rw [lookup_managedKeysAfter, lastAnswer_eq_none_iff]
    exact forall₂_congr fun c _ => cycleAnswer_eq_none_iff hp
  own := by
    rw [lookup_managedKeysAfter, lastAnswer_eq_none_iff]
    exact fun c _ => cycleAnswer_own c
  others p cycles' h := by rw [lookup_managedKeysAfter, lookup_managedKeysAfter, lastAnswer_congr h]
  accepted order := ⟨_, normalizeAndDedup_eq_ok_iff.mpr ⟨accepted_values order, rfl⟩⟩
  written order content := by
    refine ⟨fun herror => ?_, fun out hout => ?_⟩
    · rw [upsertManagedBlock, normalizeAndDedup_eq_ok_iff.mpr ⟨accepted_values order, rfl⟩, ok_bind] at herror
      cases hlines : upsertLines (lines content) (normalizedKeys (HashMap.iterate order
        (managedKeysAfter P process cycles))) with
      | ok outputLines =>
        rw [hlines] at herror
        cases herror
      | error error =>
        rw [hlines, upsertLines_eq_error hlines] at herror
        cases herror
    · obtain ⟨-, -, hlines⟩ := lines_upsert hout
      exact ⟨_, _, _, hlines, nodup_normalizedKeys _, fun key => mem_normalizedKeys_values⟩

end SshKeySync.Runtime
