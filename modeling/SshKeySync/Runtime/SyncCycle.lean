import SshKeySync.AuthorizedKeys.ManagedBlock
import SshKeySync.Config.AppConfig
import SshKeySync.Discovery.Engine
import SshKeySync.Runtime.Exchange
import SshKeySync.Theory.Runs

/-! Sync cycles of one process: the endpoints are asked one by one, their keys are collected
in a map, and the map's values become the managed block. Whatever the orders in which maps
are iterated, the map holds the latest answer of each endpoint. -/
namespace SshKeySync.Runtime
open RustStd Auth Transport Discovery Config AuthorizedKeys Keys

def keyResponse (P : Primitives) (service : HttpKeyExchangeService) (now : UInt64) (nonce : Str) : Bytes :=
  answer (.ok (service.publicKeyResponse P now nonce))

structure PeerEndpoint where
  participantId : Str
  address : Str
  port : UInt16
  deriving DecidableEq

/-- Unlike discovery's copy this one accepts an empty address. -/
def parseBootstrapPeer (value : Str) : Option PeerEndpoint :=
  (bootstrapFields value).map fun (participantId, address, port) => ⟨participantId, address, port⟩

/-- What a cycle meets: the discovery state, the clock and the nonces, the network, and the
orders in which the maps are iterated. -/
structure Cycle where
  discovery : DiscoveryEngine
  now : PeerEndpoint → UInt64
  nonce : PeerEndpoint → Str
  network : Network
  recordOrder : HashMap.Iteration PeerRecord
  endpointOrder : HashMap.Iteration PeerEndpoint
  keyOrder : HashMap.Iteration Str

def bootstrapEndpoints (config : AppConfig) : List PeerEndpoint :=
  config.bootstrapPeers.filterMap parseBootstrapPeer

def discoveredEndpoints (c : Cycle) : List PeerEndpoint :=
  (HashMap.iterate c.recordOrder c.discovery.peers).map fun peer =>
    ⟨peer.participantId, peer.address, peer.port⟩

/-- A discovered peer replaces the bootstrap entry of its participant. -/
def syncEndpoints (config : AppConfig) (c : Cycle) : HashMap Str PeerEndpoint :=
  HashMap.collect ((bootstrapEndpoints config ++ discoveredEndpoints c).map fun endpoint =>
    (endpoint.participantId, endpoint))

def expandHomePath (home : Option Str) (path : Str) : Str :=
  if path = ['~'] then home.getD path
  else match path, home with
    | '~' :: '/' :: stripped, some home => home ++ '/' :: stripped
    | _, _ => path

structure Process where
  config : AppConfig
  service : HttpKeyExchangeService
  authorizedKeysPath : Str

/-- The start that `run_daemon` and `run_single_sync` share, up to the transport security. -/
def startProcess (home : Option Str) (readFile : Str → Option Str) (config : AppConfig) :
    Except RuntimeError (Process × DiscoveryEngine) := do
  let publicKeyPath := expandHomePath home config.publicKeyPath
  let localPublicKey ← mapErr (readLocalPublicKey publicKeyPath (readFile publicKeyPath))
    (RuntimeError.readLocalPublicKey publicKeyPath)
  let service ← mapErr (HttpKeyExchangeService.new config.sid config.sidToken config.participantId
    localPublicKey) (RuntimeError.readLocalPublicKey publicKeyPath)
  let discovery := DiscoveryEngine.new config.sid config.sidToken timestampSkewSecs nonceTtlSecs
  .ok (⟨config, service, expandHomePath home config.authorizedKeysPath⟩,
    discovery.addBootstrapPeers config.bootstrapPeers)

structure ProcessState where
  managedKeys : HashMap Str Str
  content : Str

/-- The envelope on which an answer is judged, from the bytes of a response. -/
def answerEnvelope (response : Option Bytes) : Except RuntimeError SignedEnvelope := do
  let response ← okOr response .httpRequest
  let responseBody ← mapErr (responseBody response) .httpRequest
  mapErr (parseEnvelope responseBody) .parseEnvelope

def readAnswer (P : Primitives) (service : HttpKeyExchangeService) (response : Option Bytes) :
    Except RuntimeError PublicKeyPayload := do
  let responseEnvelope ← answerEnvelope response
  mapErr (service.verifyAndParsePublicKeyResponse P responseEnvelope) .verifyOrParseResponse

section
variable (P : Primitives) (service : HttpKeyExchangeService) (process : Process) (c : Cycle)

/-- The verified payload an endpoint answers with. -/
def requestPayload (endpoint : PeerEndpoint) : Except RuntimeError PublicKeyPayload := do
  let requestBody := keyRequest P service endpoint.participantId (c.now endpoint) (c.nonce endpoint)
  let responseBody ← mapErr (sendHttpPost c.network endpoint.address endpoint.port pathGetPublicKey
    requestBody) .httpRequest
  let responseEnvelope ← mapErr (parseEnvelope responseBody) .parseEnvelope
  mapErr (service.verifyAndParsePublicKeyResponse P responseEnvelope) .verifyOrParseResponse

def requestBytes (endpoint : PeerEndpoint) : Bytes :=
  utf8 (httpRequest endpoint.address endpoint.port pathGetPublicKey
    (keyRequest P service endpoint.participantId (c.now endpoint) (c.nonce endpoint)))

/-- What the network gives back for the request to an endpoint, if anything. -/
def responseTo (endpoint : PeerEndpoint) : Option Bytes :=
  c.network endpoint.address endpoint.port (requestBytes P service c endpoint)

def requestPublicKey (endpoint : PeerEndpoint) : Except RuntimeError Str := do
  let payload ← requestPayload P service c endpoint
  .ok payload.publicKey

/-- The new map; the cycle itself never fails. -/
def runSyncCycle (managedKeys : HashMap Str Str) : HashMap Str Str :=
  (HashMap.iterate c.endpointOrder (syncEndpoints process.config c)).foldl (fun managedKeys endpoint =>
    if endpoint.participantId = process.config.participantId then managedKeys
    else match requestPublicKey P process.service c endpoint with
      | .ok key => managedKeys.insert endpoint.participantId key
      | .error _ => managedKeys) managedKeys

def applyManagedKeys (managedKeys : HashMap Str Str) (content : Str) : Except RuntimeError Str :=
  if process.config.dryRun then .ok content
  else mapErr (upsertManagedBlock content (HashMap.iterate c.keyOrder managedKeys))
    (.writeAuthorizedKeys process.authorizedKeysPath)

/-- One cycle of `run_daemon`, or the only one of `run_single_sync`. -/
def syncStep (s : ProcessState) : Except RuntimeError ProcessState := do
  let managedKeys := runSyncCycle P process c s.managedKeys
  let content ← applyManagedKeys process c managedKeys s.content
  .ok ⟨managedKeys, content⟩

/-- A run of cycles from a process start; it ends with the first error. -/
def syncRun (content : Str) (cycles : List Cycle) : Option ProcessState :=
  Runs.run (fun s c => (syncStep P process c s).toOption) ⟨∅, content⟩ cycles

def runSingleSync (home : Option Str) (readFile : Str → Option Str) (config : AppConfig)
    (content : Str) : Except RuntimeError ProcessState := do
  let (process, discovery) ← startProcess home readFile config
  syncStep P process { c with discovery } ⟨∅, content⟩

/-- The map after some cycles, whatever becomes of the file. -/
def managedKeysAfter (cycles : List Cycle) : HashMap Str Str :=
  cycles.foldl (fun managedKeys c => runSyncCycle P process c managedKeys) ∅

def endpointAnswer (endpoint : PeerEndpoint) : Option Str :=
  if endpoint.participantId = process.config.participantId then none
  else (requestPublicKey P process.service c endpoint).toOption

def cycleAnswer (p : Str) : Option Str :=
  ((syncEndpoints process.config c).lookup p).bind (endpointAnswer P process c)

def lastAnswer : List Cycle → Str → Option Str
  | [], _ => none
  | c :: later, p => (lastAnswer later p).or (cycleAnswer P process c p)

variable {process c}

/-- A single sync is a run of one cycle. -/
theorem runSingleSync_eq_ok_iff {home : Option Str} {readFile : Str → Option Str} {config : AppConfig}
    {content : Str} {s : ProcessState} : runSingleSync P c home readFile config content = .ok s ↔
      ∃ process discovery, startProcess home readFile config = .ok (process, discovery) ∧
        syncRun P process content [{ c with discovery }] = some s := by
  have hstep (process : Process) (c : Cycle) : syncRun P process content [c] = some s ↔
      syncStep P process c ⟨∅, content⟩ = .ok s := by
    rw [syncRun, Runs.run_cons]
    cases syncStep P process c ⟨∅, content⟩ with
    | error error => exact iff_of_false nofun nofun
    | ok s' => exact ⟨fun h => by cases h; rfl, fun h => by cases h; rfl⟩
  simp only [runSingleSync, bind_eq_ok, hstep, Prod.exists]

/-- An endpoint stands under its own participant. -/
theorem participantId_of_lookup {p : Str} {endpoint : PeerEndpoint}
    (h : (syncEndpoints process.config c).lookup p = some endpoint) : endpoint.participantId = p := by
  obtain ⟨e, -, he⟩ := List.mem_map.mp (HashMap.mem_of_lookup_collect h)
  cases he
  rfl

private theorem nodup_endpoints : ((HashMap.iterate c.endpointOrder (syncEndpoints process.config c)).map
    PeerEndpoint.participantId).Nodup := HashMap.nodup_iterate fun _ _ => participantId_of_lookup

variable {P service}

private def answers (P : Primitives) (process : Process) (c : Cycle) (endpoints : List PeerEndpoint) :
    List (Str × Str) :=
  endpoints.filterMap fun endpoint =>
    (endpointAnswer P process c endpoint).map (endpoint.participantId, ·)

private theorem runSyncCycle_eq_foldl (managedKeys : HashMap Str Str) :
    runSyncCycle P process c managedKeys =
      (answers P process c (HashMap.iterate c.endpointOrder (syncEndpoints process.config c))).foldl
        (fun m kv => m.insert kv.1 kv.2) managedKeys := by
  rw [runSyncCycle, answers]
  generalize HashMap.iterate c.endpointOrder (syncEndpoints process.config c) = endpoints
  induction endpoints generalizing managedKeys with
  | nil => rfl
  | cons endpoint endpoints ih =>
    rw [List.foldl_cons, ih, List.filterMap_cons, endpointAnswer]
    by_cases hself : endpoint.participantId = process.config.participantId
    · simp [hself]
    · rw [if_neg hself, if_neg hself]
      cases requestPublicKey P process.service c endpoint <;> rfl

private theorem nodup_answers {endpoints : List PeerEndpoint}
    (h : (endpoints.map PeerEndpoint.participantId).Nodup) :
    ((answers P process c endpoints).map Prod.fst).Nodup := by
  refine h.sublist ?_
  rw [answers]
  induction endpoints with
  | nil => exact List.Sublist.refl _
  | cons endpoint endpoints ih =>
    have hrest := ih (List.nodup_cons.mp h).2
    rw [List.filterMap_cons]
    cases endpointAnswer P process c endpoint with
    | none => exact hrest.cons _
    | some key => exact hrest.cons_cons _

private theorem mem_answers {p key : Str} :
    (p, key) ∈ answers P process c (HashMap.iterate c.endpointOrder (syncEndpoints process.config c)) ↔
      cycleAnswer P process c p = some key := by
  rw [answers, List.mem_filterMap, cycleAnswer, Option.bind_eq_some_iff]
  constructor
  · rintro ⟨endpoint, hmem, hanswer⟩
    obtain ⟨k, hk, he⟩ := Option.map_eq_some_iff.mp hanswer
    cases he
    obtain ⟨q, hq⟩ := HashMap.mem_iterate.mp hmem
    exact ⟨endpoint, (participantId_of_lookup hq).symm ▸ hq, hk⟩
  · rintro ⟨endpoint, hlookup, hanswer⟩
    refine ⟨endpoint, HashMap.mem_iterate.mpr ⟨p, hlookup⟩, ?_⟩
    rw [hanswer, participantId_of_lookup hlookup]
    rfl

/-- A cycle sets what was answered and leaves every other entry, in any order of asking. -/
theorem lookup_runSyncCycle (managedKeys : HashMap Str Str) (p : Str) :
    (runSyncCycle P process c managedKeys).lookup p =
      (cycleAnswer P process c p).or (managedKeys.lookup p) := by
  rw [runSyncCycle_eq_foldl]
  cases hanswer : cycleAnswer P process c p with
  | none =>
    refine HashMap.lookup_foldl_insert_of_not_mem fun key hmem => ?_
    rw [mem_answers.mp hmem] at hanswer
    cases hanswer
  | some key =>
    exact HashMap.lookup_foldl_insert_of_mem (nodup_answers nodup_endpoints) (mem_answers.mpr hanswer)

private theorem lookup_foldl_cycles (cycles : List Cycle) (managedKeys : HashMap Str Str) (p : Str) :
    (cycles.foldl (fun m c => runSyncCycle P process c m) managedKeys).lookup p =
      (lastAnswer P process cycles p).or (managedKeys.lookup p) := by
  induction cycles generalizing managedKeys with
  | nil => rfl
  | cons c cycles ih =>
    rw [List.foldl_cons, ih, lookup_runSyncCycle, lastAnswer, Option.or_assoc]

/-- Over any run of cycles the map holds exactly the latest answers. -/
theorem lookup_managedKeysAfter (cycles : List Cycle) (p : Str) :
    (managedKeysAfter P process cycles).lookup p = lastAnswer P process cycles p := by
  rw [managedKeysAfter, lookup_foldl_cycles, AList.lookup_empty, Option.or_none]

/-- An answer is judged on an envelope, and its key is put in normal form. -/
theorem readAnswer_eq_ok_iff {response : Option Bytes} {payload : PublicKeyPayload} :
    readAnswer P service response = .ok payload ↔ ∃ envelope, answerEnvelope response = .ok envelope ∧
      service.verifyAndParsePublicKeyResponse P envelope = .ok payload := by
  simp only [readAnswer, bind_eq_ok, mapErr_eq_ok]

/-- The key of an answer is in normal form. -/
theorem normalized_of_readAnswer {response : Option Bytes} {payload : PublicKeyPayload}
    (h : readAnswer P service response = .ok payload) :
    normalizePublicKey payload.publicKey = .ok payload.publicKey := by
  obtain ⟨envelope, -, hverified⟩ := readAnswer_eq_ok_iff.mp h
  obtain ⟨-, -, fields, keyText, -, -, -, -, hkey⟩ :=
    HttpKeyExchangeService.verifyAndParsePublicKeyResponse_eq_ok_iff.mp hverified
  exact normalizePublicKey_idempotent hkey

/-- A request has the outcome that its response is read as. -/
theorem requestPayload_eq_readAnswer (endpoint : PeerEndpoint) : requestPayload P service c endpoint =
    readAnswer P service (responseTo P service c endpoint) := by
  rw [requestPayload, sendHttpPost, readAnswer, answerEnvelope, responseTo, requestBytes]
  cases c.network endpoint.address endpoint.port (utf8 (httpRequest endpoint.address endpoint.port
    pathGetPublicKey (keyRequest P service endpoint.participantId (c.now endpoint) (c.nonce endpoint)))) with
  | none => rfl
  | some bytes =>
    rw [okOr_some, okOr_some, ok_bind, ok_bind]
    cases responseBody bytes with
    | error failure => rfl
    | ok text => rw [mapErr_ok, ok_bind, ok_bind]

/-- The key of a request is that of its response. -/
theorem requestPublicKey_eq_readAnswer (endpoint : PeerEndpoint) : requestPublicKey P service c endpoint =
    (readAnswer P service (responseTo P service c endpoint)).map PublicKeyPayload.publicKey := by
  rw [requestPublicKey, requestPayload_eq_readAnswer]
  cases readAnswer P service (responseTo P service c endpoint) <;> rfl

private theorem requestPublicKey_eq_ok_iff {endpoint : PeerEndpoint} {key : Str} :
    requestPublicKey P service c endpoint = .ok key ↔
      ∃ payload, requestPayload P service c endpoint = .ok payload ∧ payload.publicKey = key := by
  simp only [requestPublicKey, bind_eq_ok, Except.ok.injEq]

/-- An answer is a key in normal form from a verified payload. -/
theorem cycleAnswer_eq_some_iff {p key : Str} : cycleAnswer P process c p = some key ↔
    ∃ endpoint payload, (syncEndpoints process.config c).lookup p = some endpoint ∧
      p ≠ process.config.participantId ∧ requestPayload P process.service c endpoint = .ok payload ∧
      payload.publicKey = key := by
  rw [cycleAnswer, Option.bind_eq_some_iff]
  refine exists_congr fun endpoint => ?_
  rw [endpointAnswer]
  constructor
  · rintro ⟨hlookup, hanswer⟩
    rw [participantId_of_lookup hlookup] at hanswer
    split at hanswer
    · cases hanswer
    · rename_i hself
      cases hrequest : requestPublicKey P process.service c endpoint with
      | error error =>
        rw [hrequest] at hanswer
        cases hanswer
      | ok k =>
        rw [hrequest] at hanswer
        cases hanswer
        obtain ⟨payload, hpayload, hk⟩ := requestPublicKey_eq_ok_iff.mp hrequest
        exact ⟨payload, hlookup, hself, hpayload, hk⟩
  · rintro ⟨payload, hlookup, hself, hpayload, rfl⟩
    rw [participantId_of_lookup hlookup, if_neg hself,
      requestPublicKey_eq_ok_iff.mpr ⟨payload, hpayload, rfl⟩]
    exact ⟨hlookup, rfl⟩

/-- What a member has signed is accepted from any endpoint that returns it. -/
theorem requestPayload_of_response (service b : HttpKeyExchangeService) (hsid : service.sid = b.sid)
    (htoken : service.sidToken = b.sidToken) (hwire : Records.WireSafe b.sid)
    (hparticipant : Records.WireSafe b.participantId) {nonce : Str} (hnonce : Records.WireSafe nonce)
    (time : UInt64) {endpoint : PeerEndpoint}
    (hnetwork : ∀ request, c.network endpoint.address endpoint.port request =
      some (keyResponse P b time nonce)) :
    requestPayload P service c endpoint = .ok ⟨b.sid, b.participantId, b.publicKey⟩ := by
  have hpath : Records.WireSafe pathGetPublicKey := by decide
  have hparse : parseEnvelope (serializeEnvelope (b.publicKeyResponse P time nonce)) = .ok _ :=
    parseEnvelope_serializeEnvelope (wireEnvelope_signEnvelope P _ _ _ hwire hparticipant hnonce hpath)
  rw [requestPayload, sendHttpPost, hnetwork, okOr_some, ok_bind, keyResponse, answer,
    responseBody_httpResponse, mapErr_ok,
    ok_bind, hparse, mapErr_ok, ok_bind,
    HttpKeyExchangeService.verifyAndParsePublicKeyResponse_publicKeyResponse hsid htoken hwire
      hparticipant, mapErr_ok]

/-- An endpoint that cannot be reached fails. -/
theorem requestPayload_of_silence {endpoint : PeerEndpoint}
    (hnetwork : ∀ request, c.network endpoint.address endpoint.port request = none) :
    requestPayload P service c endpoint = .error .httpRequest := by
  rw [requestPayload, sendHttpPost, hnetwork]
  rfl

private theorem normalized_of_answer {p key : Str} (h : cycleAnswer P process c p = some key) :
    normalizePublicKey key = .ok key := by
  obtain ⟨endpoint, payload, -, -, hpayload, rfl⟩ := cycleAnswer_eq_some_iff.mp h
  rw [requestPayload_eq_readAnswer] at hpayload
  exact normalized_of_readAnswer hpayload

/-- There is no latest answer when no cycle had one. -/
theorem lastAnswer_eq_none_iff {cycles : List Cycle} {p : Str} :
    lastAnswer P process cycles p = none ↔
      ∀ c ∈ cycles, cycleAnswer P process c p = none := by
  induction cycles with
  | nil => exact iff_of_true rfl nofun
  | cons c cycles ih => rw [lastAnswer, Option.or_eq_none_iff, ih, List.forall_mem_cons, and_comm]

/-- The latest answer was given in some cycle, and none came after it. -/
theorem lastAnswer_eq_some_iff {cycles : List Cycle} {p key : Str} :
    lastAnswer P process cycles p = some key ↔ ∃ earlier c later,
      cycles = earlier ++ c :: later ∧ cycleAnswer P process c p = some key ∧
      ∀ c' ∈ later, cycleAnswer P process c' p = none := by
  constructor
  · intro h
    induction cycles with
    | nil => cases h
    | cons c cycles ih =>
      rw [lastAnswer] at h
      cases hlater : lastAnswer P process cycles p with
      | none =>
        rw [hlater, Option.none_or] at h
        exact ⟨[], c, cycles, rfl, h, lastAnswer_eq_none_iff.mp hlater⟩
      | some key' =>
        rw [hlater, Option.some_or, ← hlater] at h
        obtain ⟨earlier, c', later, rfl, hanswer, hnone⟩ := ih h
        exact ⟨c :: earlier, c', later, rfl, hanswer, hnone⟩
  · rintro ⟨earlier, c, later, rfl, hanswer, hnone⟩
    induction earlier with
    | nil => rw [List.nil_append, lastAnswer, lastAnswer_eq_none_iff.mpr hnone, Option.none_or, hanswer]
    | cons c' earlier ih => rw [List.cons_append, lastAnswer, ih, Option.some_or]

/-- The latest answer is a key in normal form. -/
theorem normalized_of_lastAnswer {cycles : List Cycle} {p key : Str}
    (h : lastAnswer P process cycles p = some key) : normalizePublicKey key = .ok key := by
  obtain ⟨_, _, _, -, hanswer, -⟩ := lastAnswer_eq_some_iff.mp h
  exact normalized_of_answer hanswer

end

def startedA (bootstrapPeers : List Str) : Process where
  config :=
    { sid := nodeA.sid, sidToken := nodeA.sidToken, participantId := nodeA.participantId,
      httpListenAddr := "0.0.0.0:8888".toList, udpAnnounceAddr := "0.0.0.0:8889".toList, bootstrapPeers,
      syncIntervalSecs := 30, publicKeyPath := "/root/.ssh/id_ed25519.pub".toList,
      authorizedKeysPath := "/root/.ssh/authorized_keys".toList, tlsCertPath := none, tlsKeyPath := none,
      tlsCaPath := none, tlsServerName := none, insecureNoTls := true, dryRun := false }
  service := nodeA
  authorizedKeysPath := "/root/.ssh/authorized_keys".toList

def firstCycleA (bootstrapPeers : List Str) (network : Network) : Cycle where
  discovery := (DiscoveryEngine.new nodeA.sid nodeA.sidToken timestampSkewSecs nonceTtlSecs).addBootstrapPeers
    bootstrapPeers
  now _ := 1000
  nonce _ := "n-1".toList
  network
  recordOrder := .identity PeerRecord
  endpointOrder := .identity PeerEndpoint
  keyOrder := .identity Str

end SshKeySync.Runtime
