import SshKeySync.Transport.Service

/-! What a publish request delivers. The key is sent as it was given, so that further lines of it
are read as further fields. -/
namespace SshKeySync.Transport
open RustStd Auth Keys

/-- Every line after the first is blank. -/
def OneLine (publicKey : Str) : Prop := ∀ line ∈ (publicKey.splitOn '\n').tail, trim line = []

instance (publicKey : Str) : Decidable (OneLine publicKey) := inferInstanceAs (Decidable (∀ _ ∈ _, _))

namespace HttpKeyExchangeService
variable (P : Primitives) (s : HttpKeyExchangeService)

/-- The request is read as it was meant, up to the spacing of the key, and any service of the group
accepts it and acknowledges its participant. -/
def Delivered (senderId : Str) (timestampSecs : UInt64) (nonce : Str) (payload : ParticipantPublishPayload) : Prop :=
  let request := s.buildPublishRequest P senderId timestampSecs nonce payload
  (∃ received, parsePublishRequest request.body = .ok received ∧ received.participantId = payload.participantId ∧
    received.address = payload.address ∧ received.port = payload.port ∧
    normalizePublicKey received.publicKey = normalizePublicKey payload.publicKey) ∧
  ∀ t : HttpKeyExchangeService, t.sid = s.sid → t.sidToken = s.sidToken → ∀ now responseNonce,
    t.handlePublishRequest P request now responseNonce =
      .ok (t.publishResponse P payload.participantId now responseNonce)

def publishRows (payload : ParticipantPublishPayload) : List (Str × Str) :=
  [("participant_id".toList, payload.participantId), ("address".toList, payload.address),
    ("port".toList, decimal payload.port.toNat)]

private theorem buildPublishRequest_body (senderId : Str) (timestampSecs : UInt64) (nonce : Str)
    (payload : ParticipantPublishPayload) :
    (s.buildPublishRequest P senderId timestampSecs nonce payload).body =
      serializePayload (publishRows payload ++ [("public_key".toList, payload.publicKey)]) := rfl

private theorem parsePublishRequest_eq_ok_iff {body : Bytes} {received : ParticipantPublishPayload} :
    parsePublishRequest body = .ok received ↔ ∃ fields, parsePayload body = .ok fields ∧
      fields.lookup "participant_id".toList = some received.participantId ∧
      fields.lookup "address".toList = some received.address ∧
      (∃ portText, fields.lookup "port".toList = some portText ∧ parseU16 portText = some received.port) ∧
      fields.lookup "public_key".toList = some received.publicKey := by
  simp only [parsePublishRequest, getRequired, bind_eq_ok, okOr_eq_ok, Except.ok.injEq]
  constructor
  · rintro ⟨fields, hfields, id, hid, address, haddress, portText, htext, port, hport, key, hkey, rfl⟩
    exact ⟨fields, hfields, hid, haddress, ⟨portText, htext, hport⟩, hkey⟩
  · rintro ⟨fields, hfields, hid, haddress, ⟨portText, htext, hport⟩, hkey⟩
    exact ⟨fields, hfields, _, hid, _, haddress, portText, htext, _, hport, _, hkey, rfl⟩

section
variable {payload : ParticipantPublishPayload}

private theorem safeRow_publishRows (hparticipant : Records.WireSafe payload.participantId)
    (haddress : Records.WireSafe payload.address) : ∀ kv ∈ publishRows payload, Records.SafeRow kv := by
  rw [publishRows, List.forall_mem_cons, List.forall_mem_cons, List.forall_mem_singleton]
  exact ⟨Records.safeRow (by decide) hparticipant, Records.safeRow (by decide) haddress,
    Records.safeRow (by decide) (Records.wireSafe_of_whitespace_free (decimal_whitespace_free _))⟩

/-- The fields that are read: those before the key, the first line of the key, and one for every
later line, each of which needs an equals sign unless it is blank. -/
theorem parsePayload_publish (hrows : ∀ kv ∈ publishRows payload, Records.SafeRow kv) {first : Str} {rest : List Str}
    (hsplit : payload.publicKey.splitOn '\n' = first :: rest) {fields : HashMap Str Str} :
    parsePayload (serializePayload (publishRows payload ++ [("public_key".toList, payload.publicKey)])) = .ok fields ↔
      (∀ l ∈ rest, trim l ≠ [] → (Records.keyValue l).isSome) ∧ fields = HashMap.collect
        (publishRows payload ++ ("public_key".toList, trim first) :: rest.filterMap Records.keyValue) := by
  have hnewline := not_mem_splitOn '\n' payload.publicKey
  rw [hsplit] at hnewline
  obtain ⟨hfirst, hrest⟩ := List.forall_mem_cons.mp hnewline
  have hkey : Records.keyValue (Records.row ("public_key".toList, first)) =
      some ("public_key".toList, trim first) := by
    rw [Records.keyValue, Records.row, splitOnce_append _ (show '=' ∉ "public_key".toList from by decide)]
    rfl
  have hlines : ∀ l ∈ (publishRows payload).map Records.row ++ Records.row ("public_key".toList, first) :: rest,
      '\n' ∉ l := by
    refine List.forall_mem_append.mpr ⟨?_, List.forall_mem_cons.mpr ⟨?_, hrest⟩⟩
    · exact List.forall_mem_map.mpr fun kv hkv => Records.newline_not_mem_row (hrows kv hkv)
    · rw [Records.row, List.mem_append, List.mem_cons]
      simp [hfirst]
  rw [parsePayload, serializePayload, fromUtf8_utf8, okOr_some, ok_bind, Records.render_concat _ _ _ hsplit,
    Records.parseStrict_unlines_eq_ok_iff hlines, List.filterMap_append, Records.filterMap_keyValue_row hrows,
    List.filterMap_cons_some hkey]
  refine and_congr_left fun _ => ?_
  rw [List.forall_mem_append, List.forall_mem_cons, hkey]
  refine ⟨fun h => h.2.2, fun h => ⟨?_, fun _ => rfl, h⟩⟩
  exact List.forall_mem_map.mpr fun kv hkv _ => Records.keyValue_row (hrows kv hkv) ▸ rfl

/-- A value that is read under the key's name, when a line after the first is not blank, is less than
what was sent. -/
theorem ink_received {publicKey first : Str} {rest : List Str} (hsplit : publicKey.splitOn '\n' = first :: rest)
    {line : Str} (hline : line ∈ rest) (hink : trim line ≠ []) {key value : Str}
    (h : (key, value) ∈ (key, trim first) :: rest.filterMap Records.keyValue) :
    (ink value).length < (ink publicKey).length := by
  have hall := congrArg ink (unlines_splitOn publicKey)
  rw [hsplit, ink_append, show ink ['\n'] = [] from rfl, List.append_nil] at hall
  rw [← hall, ink_unlines_cons, List.length_append]
  rcases List.mem_cons.mp h with heq | hlater
  · obtain rfl := (Prod.mk.inj heq).2
    have hpos := List.length_pos_of_ne_nil fun hnil => hink (ink_eq_nil_iff.mp hnil)
    have hle := length_ink_le hline
    rw [ink_trim]
    omega
  · obtain ⟨l, hl, hkv⟩ := List.mem_filterMap.mp hlater
    obtain ⟨⟨before, after⟩, hcut, heq⟩ := Option.map_eq_some_iff.mp hkv
    obtain ⟨rfl, -⟩ := splitOnce_eq_some_iff.mp hcut
    obtain ⟨-, rfl⟩ : trim before = key ∧ trim after = value := Prod.mk.inj heq
    have hle := length_ink_le hl
    rw [ink_append, List.length_append, show ink ('=' :: after) = '=' :: ink after from rfl, List.length_cons] at hle
    rw [ink_trim]
    omega

private theorem trim_of_oneLine {publicKey first : Str} {rest : List Str}
    (hsplit : publicKey.splitOn '\n' = first :: rest) (hblank : ∀ l ∈ rest, trim l = []) :
    trim first = trim publicKey := by
  have hall := unlines_splitOn publicKey
  rw [hsplit, unlines, List.flatMap_cons, List.append_assoc] at hall
  rw [← trim_concat publicKey (show isWhitespace '\n' from by decide), ← hall]
  refine (trim_append_of_blank first fun c hc => ?_).symm
  rcases List.mem_append.mp hc with hc | hc
  · rw [List.mem_singleton.mp hc]
    decide
  · obtain ⟨l, hl, hc⟩ := List.mem_flatMap.mp hc
    rcases List.mem_append.mp hc with hc | hc
    · exact (trim_eq_nil_iff l).mp (hblank l hl) c hc
    · rw [List.mem_singleton.mp hc]
      decide

/-- A key on one line arrives. -/
theorem received_of_oneLine (hparticipant : Records.WireSafe payload.participantId)
    (haddress : Records.WireSafe payload.address) (h : OneLine payload.publicKey) :
    parsePublishRequest (serializePayload (publishRows payload ++ [("public_key".toList, payload.publicKey)])) =
      .ok { payload with publicKey := trim payload.publicKey } := by
  obtain ⟨first, rest, hsplit⟩ := List.exists_cons_of_ne_nil (List.splitOn_ne_nil '\n' payload.publicKey)
  rw [OneLine, hsplit, List.tail_cons] at h
  have hrows := safeRow_publishRows hparticipant haddress
  have hnone : rest.filterMap Records.keyValue = [] :=
    List.filterMap_eq_nil_iff.mpr fun l hl => Records.keyValue_of_blank (h l hl)
  have hparse := (parsePayload_publish hrows hsplit).mpr ⟨fun l hl hne => absurd (h l hl) hne, rfl⟩
  rw [hnone, trim_of_oneLine hsplit h] at hparse
  have hnodup : ((publishRows payload ++ [("public_key".toList, trim payload.publicKey)]).map Prod.fst).Nodup := by
    simp only [publishRows, List.cons_append, List.nil_append, List.map_cons, List.map_nil]
    decide
  have hlookup {key value : Str} (h : (key, value) ∈ publishRows payload ++
      [("public_key".toList, trim payload.publicKey)]) := HashMap.lookup_collect_of_mem hnodup h
  refine parsePublishRequest_eq_ok_iff.mpr ⟨_, hparse, hlookup ?_, hlookup ?_, ⟨_, hlookup ?_, parseU16_decimal _⟩,
    hlookup ?_⟩
  all_goals simp [publishRows]

/-- A later line that is not blank costs the key a part that is not whitespace. -/
theorem oneLine_of_received (hparticipant : Records.WireSafe payload.participantId)
    (haddress : Records.WireSafe payload.address) {key : Str} (hkey : normalizePublicKey payload.publicKey = .ok key)
    {received : ParticipantPublishPayload} (hreceived : parsePublishRequest
      (serializePayload (publishRows payload ++ [("public_key".toList, payload.publicKey)])) = .ok received)
    (hsame : normalizePublicKey received.publicKey = normalizePublicKey payload.publicKey) :
    OneLine payload.publicKey := by
  by_contra hlines
  obtain ⟨first, rest, hsplit⟩ := List.exists_cons_of_ne_nil (List.splitOn_ne_nil '\n' payload.publicKey)
  rw [OneLine, hsplit, List.tail_cons] at hlines
  push Not at hlines
  obtain ⟨line, hline, hink⟩ := hlines
  rw [parsePublishRequest_eq_ok_iff] at hreceived
  obtain ⟨fields, hfields, -, -, -, hlookup⟩ := hreceived
  obtain ⟨-, rfl⟩ := (parsePayload_publish (safeRow_publishRows hparticipant haddress) hsplit).mp hfields
  have hvalue : ("public_key".toList, received.publicKey) ∈
      ("public_key".toList, trim first) :: rest.filterMap Records.keyValue := by
    rcases List.mem_append.mp (HashMap.mem_of_lookup_collect hlookup) with h | h
    · simp [publishRows] at h
    · exact h
  have hlost := ink_received hsplit hline hink hvalue
  rw [← ink_of_normalized hkey, ← ink_of_normalized (hsame.trans hkey)] at hlost
  exact Nat.lt_irrefl _ hlost

/-- Delivery is exact for the keys on one line and for no others. -/
theorem delivered_iff (P : Primitives) (s : HttpKeyExchangeService) (senderId : Str) (timestampSecs : UInt64)
    (nonce : Str) (payload : ParticipantPublishPayload) (hparticipant : Records.WireSafe payload.participantId)
    (haddress : Records.WireSafe payload.address) (hkey : ∃ key, normalizePublicKey payload.publicKey = .ok key) :
    s.Delivered P senderId timestampSecs nonce payload ↔ OneLine payload.publicKey := by
  obtain ⟨key, hkey⟩ := hkey
  constructor
  · rintro ⟨⟨received, hreceived, -, -, -, hsame⟩, -⟩
    rw [buildPublishRequest_body] at hreceived
    exact oneLine_of_received hparticipant haddress hkey hreceived hsame
  · intro h
    have hreceived := received_of_oneLine hparticipant haddress h
    have htrim : normalizePublicKey (trim payload.publicKey) = normalizePublicKey payload.publicKey :=
      normalizePublicKey_congr (trim_eq_self (trim_unpadded _))
    refine ⟨⟨_, hreceived, rfl, rfl, rfl, htrim⟩, fun t hsid htoken now responseNonce => ?_⟩
    refine handlePublishRequest_eq_ok_iff.mpr ⟨authentic_signEnvelope hsid htoken .., ⟨_, rfl, by decide⟩, _,
      ⟨hreceived, key, htrim.trans hkey⟩, rfl⟩

end

def publisher : HttpKeyExchangeService :=
  ⟨"group-a".toList, "secret-token".toList, "node-local".toList, "ssh-ed25519 AAAA node-local".toList,
    by decide⟩

def payloadWith (publicKey : String) : ParticipantPublishPayload :=
  ⟨"node-remote".toList, "10.0.0.5".toList, 2222, publicKey.toList⟩

/-- A payload of single lines is delivered. -/
theorem delivered_plain : publisher.Delivered .standard "node-remote".toList 1001 "n-200".toList
    (payloadWith "ssh-ed25519 BBBB node-remote") :=
  (delivered_iff .standard publisher "node-remote".toList 1001 "n-200".toList
    (payloadWith "ssh-ed25519 BBBB node-remote") (by decide) (by decide) ⟨_, rfl⟩).mpr (by decide)

/-- The second line of an acceptable key is read as the participant's name. -/
theorem second_line_renames :
    (Records.WireSafe (payloadWith "ssh-ed25519 BBBB\nparticipant_id=node-b").participantId ∧
      Records.WireSafe (payloadWith "ssh-ed25519 BBBB\nparticipant_id=node-b").address ∧
      ∃ key, normalizePublicKey (payloadWith "ssh-ed25519 BBBB\nparticipant_id=node-b").publicKey = .ok key) ∧
    parsePublishRequest (publisher.buildPublishRequest .standard "node-remote".toList 1001 "n-200".toList
      (payloadWith "ssh-ed25519 BBBB\nparticipant_id=node-b")).body =
        .ok ⟨"node-b".toList, "10.0.0.5".toList, 2222, "ssh-ed25519 BBBB".toList⟩ ∧
    ¬ publisher.Delivered .standard "node-remote".toList 1001 "n-200".toList
      (payloadWith "ssh-ed25519 BBBB\nparticipant_id=node-b") := by
  refine ⟨⟨by decide, by decide, _, rfl⟩, ?_, ?_⟩
  · rw [buildPublishRequest_body, parsePublishRequest_eq_ok_iff]
    refine ⟨_, (parsePayload_publish (safeRow_publishRows (by decide) (by decide)) rfl).mpr ⟨by decide, rfl⟩, ?_⟩
    decide
  · rintro ⟨⟨received, hreceived, -, -, -, hsame⟩, -⟩
    rw [buildPublishRequest_body] at hreceived
    have hline := oneLine_of_received (by decide) (by decide) rfl hreceived hsame
    revert hline
    decide

end HttpKeyExchangeService
end SshKeySync.Transport
