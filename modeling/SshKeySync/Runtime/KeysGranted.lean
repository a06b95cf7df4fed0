import SshKeySync.Runtime.Group

/-! What a group is for. At the end of every turn a daemon has written the key of each member that
answers where the table of the daemon leads. -/
namespace SshKeySync.Runtime.DaemonProcess
open RustStd Auth Transport Discovery Config AuthorizedKeys Keys Parties LastWriter

def lastInstalled (log : List Output) : Option Str := (log.filterMap Output.installed).getLast?

def Granted (log : List Output) (key : Str) : Prop :=
  ∃ content, lastInstalled log = some content ∧ key ∈ lines content

/-- The turn has a sync whose keys are not yet written. -/
def Stage.collecting : Stage → Bool
  | .asking _ _ _ | .awaiting _ _ _ | .saving _ | .ended (.failed _) => true
  | _ => false

def Stage.isAwaiting : Stage → Bool
  | .awaiting _ _ _ => true
  | _ => false

section
variable (P : Primitives) (d : Daemon) (serves : PeerEndpoint → Str → Prop)

/-- An answer that is awaited where a key is served brings this key. -/
def Served (s : State) : Event → Prop
  | .answer response => ∀ began endpoint endpoints key, s.stage = .awaiting began endpoint endpoints →
      serves endpoint key → ∃ payload, readAnswer P d.service response = .ok payload ∧ payload.publicKey = key
  | _ => True

/-- The map has the keys that are served where their participants were asked last. -/
structure Collected (log : List Output) (s : State) : Prop where
  awaited : ∀ began endpoint endpoints, s.stage = .awaiting began endpoint endpoints →
    lastAsked log endpoint.participantId = some endpoint
  keys : ∀ p endpoint key, lastAsked log p = some endpoint → serves endpoint key →
    s.managedKeys.lookup p = some key ∨ ∃ began endpoints, s.stage = .awaiting began endpoint endpoints

/-- Outside of a sync the keys of the map are written. -/
def Written (log : List Output) (s : State) : Prop :=
  s.stage.collecting = false → ∀ p key, s.managedKeys.lookup p = some key → Granted log key

end

section
variable {P : Primitives} {d : Daemon} {serves : PeerEndpoint → Str → Prop} {log : List Output} {s s' : State}
  {e : Event} {out : List Output}

private theorem participantId_of_lastAsked {p : Str} {endpoint : PeerEndpoint} (h : lastAsked log p = some endpoint) :
    endpoint.participantId = p := (mem_of_latest h).2

private theorem Collected.idle (h : Collected serves log s) (hout : out.filterMap Output.asked = [])
    (hstage : s.stage.isAwaiting = false) (hstage' : s'.stage.isAwaiting = false)
    (hkeys : s'.managedKeys = s.managedKeys) : Collected serves (log ++ out) s' := by
  have hnot {t : State} (ht : t.stage.isAwaiting = false) (began : UInt64) (endpoint : PeerEndpoint)
      (endpoints : List PeerEndpoint) : t.stage ≠ .awaiting began endpoint endpoints := by
    intro hs
    rw [hs] at ht
    cases ht
  refine ⟨fun began endpoint endpoints hs => absurd hs (hnot hstage' _ _ _),
    fun p endpoint key hasked hserves => Or.inl ?_⟩
  rw [lastAsked_append hout] at hasked
  rw [hkeys]
  rcases h.keys p endpoint key hasked hserves with hkey | ⟨began, endpoints, hs⟩
  · exact hkey
  · exact absurd hs (hnot hstage _ _ _)

private theorem isAwaiting_ask (began : UInt64) (endpoints : List PeerEndpoint) :
    (Stage.ask began endpoints).isAwaiting = false := by
  cases endpoints <;> rfl

private theorem isAwaiting_poll (nowSecs : UInt64) (recordOrder : HashMap.Iteration PeerRecord)
    (endpointOrder : HashMap.Iteration PeerEndpoint) :
    (s.poll d nowSecs recordOrder endpointOrder).stage.isAwaiting = false := by
  rw [State.poll]
  dsimp only
  split
  · exact isAwaiting_ask ..
  · rfl

private theorem collected_step (h : Collected serves log s) (hserved : Served P d serves s e)
    (hsteps : Steps P d s e out s') : Collected serves (log ++ out) s' := by
  cases hsteps with
  | @posted began endpoint endpoints nowSecs nanos hstage =>
    refine ⟨fun began' endpoint' endpoints' hs => ?_, fun p asked key hasked hserves => ?_⟩
    · cases hs
      rw [lastAsked_post, if_pos rfl]
    · rw [lastAsked_post] at hasked
      split at hasked
      · cases hasked
        exact Or.inr ⟨began, endpoints, rfl⟩
      · rcases h.keys p asked key hasked hserves with hkey | ⟨began', endpoints', hs⟩
        · exact Or.inl hkey
        · cases hstage.symm.trans hs
  | @answered began endpoint endpoints response hstage =>
    rw [List.append_nil]
    have hask := isAwaiting_ask began endpoints
    refine ⟨fun began' endpoint' endpoints' hs => ?_, fun p asked key hasked hserves => Or.inl ?_⟩
    · rw [show Stage.ask began endpoints = _ from hs] at hask
      cases hask
    have hself (hp : endpoint.participantId = p) : asked = endpoint := by
      have hlast := h.awaited began endpoint endpoints hstage
      rw [hp] at hlast
      exact Option.some.inj (hasked.symm.trans hlast)
    have hold (hne : endpoint.participantId ≠ p) : s.managedKeys.lookup p = some key := by
      rcases h.keys p asked key hasked hserves with hkey | ⟨began', endpoints', hs⟩
      · exact hkey
      · cases hstage.symm.trans hs
        exact absurd (participantId_of_lastAsked hasked) hne
    by_cases hp : endpoint.participantId = p
    · obtain rfl := hself hp
      obtain ⟨payload, hread, rfl⟩ := hserved began asked endpoints key hstage hserves
      rw [State.answered, hread, HashMap.lookup_insert, if_pos hp.symm]
    · cases hread : readAnswer P d.service response with
      | error error =>
        rw [State.answered, hread]
        exact hold hp
      | ok payload =>
        rw [State.answered, hread, HashMap.lookup_insert, if_neg (Ne.symm hp)]
        exact hold hp
  | polled hstage => exact h.idle rfl (hstage ▸ rfl) (isAwaiting_poll ..) rfl
  | replied hstage hreply => exact h.idle rfl (hstage ▸ rfl) (hstage ▸ rfl) rfl
  | dropped hstage hreply => exact h.idle rfl (hstage ▸ rfl) (hstage ▸ rfl) rfl
  | received hstage => exact h.idle rfl (hstage ▸ rfl) (show s.stage.isAwaiting = false from hstage ▸ rfl) rfl
  | start hstage | served hstage | panicked hstage hreply | announced hstage | unwritten hstage hdryRun
  | written hstage hdryRun hfile | refused hstage hdryRun hfile => exact h.idle rfl (hstage ▸ rfl) rfl rfl
  | @paused stopRequested hstage => exact h.idle rfl (hstage ▸ rfl) (by cases stopRequested <;> rfl) rfl

private theorem Written.idle (h : Written log s) (hout : out.filterMap Output.installed = [])
    (hstage : s.stage.collecting = false) (hkeys : s'.managedKeys = s.managedKeys) : Written (log ++ out) s' := by
  intro _ p key hkey
  rw [hkeys] at hkey
  obtain ⟨content, hlast, hmem⟩ := h hstage p key hkey
  refine ⟨content, ?_, hmem⟩
  rwa [lastInstalled, List.filterMap_append, hout, List.append_nil]

private theorem written_step (hdryRun : d.config.dryRun = false)
    (hnormal : ∀ p key, s.managedKeys.lookup p = some key → normalizePublicKey key = .ok key)
    (h : Written log s) (hsteps : Steps P d s e out s') : Written (log ++ out) s' := by
  cases hsteps with
  | polled hstage => exact h.idle rfl (hstage ▸ rfl) rfl
  | replied hstage hreply | dropped hstage hreply | received hstage | start hstage | served hstage
  | panicked hstage hreply | paused hstage => exact h.idle rfl (hstage ▸ rfl) rfl
  | posted hstage => exact fun hcollecting => by cases hcollecting
  | @answered began endpoint endpoints response hstage =>
    intro hcollecting
    cases endpoints <;> cases hcollecting
  | unwritten hstage hdry => cases hdryRun.symm.trans hdry
  | refused hstage hdry hfile => exact fun hcollecting => by cases hcollecting
  | announced hstage => exact h.idle rfl (hstage ▸ rfl) rfl
  | @written began keyOrder found saved content hstage hdry hfile =>
    intro _ p key hkey
    obtain ⟨-, text, -, hupsert⟩ := Daemon.applyManagedBlock_eq_ok_iff.mp hfile
    refine ⟨content, ?_, ?_⟩
    · rw [lastInstalled, List.filterMap_append,
        show [Output.install content].filterMap Output.installed = [content] from rfl]
      exact List.getLast?_concat
    · obtain ⟨-, -, hlines⟩ := lines_upsert hupsert
      have hmem : key ∈ normalizedKeys (HashMap.iterate keyOrder s.managedKeys) :=
        mem_normalizedKeys.mpr ⟨key, HashMap.mem_iterate.mpr ⟨p, hkey⟩, hnormal p key hkey⟩
      rw [hlines]
      simp [hmem]

end

section
variable {P : Primitives} {d : Daemon} {serves : PeerEndpoint → Str → Prop} {startedAt : UInt64}
  {events : List Event} {log : List Output} {s : State}

private theorem collected_run
    (hguard : Runs.Guarded (logged (step P d)) (fun s e => Served P d serves s.2 e) ([], d.start startedAt) events)
    (hrun : runFrom P d startedAt events = some (log, s)) : Collected serves log s := by
  induction events using List.reverseRecOn generalizing log s with
  | nil =>
    cases hrun
    refine ⟨fun _ _ _ hs => ?_, fun _ _ _ hasked => ?_⟩
    · cases hs
    · cases hasked
  | append_singleton events e ih =>
    obtain ⟨earlier, mid, out, hmid, hsteps, rfl⟩ := runFrom_concat hrun
    obtain ⟨hevents, hlast⟩ := Runs.guarded_append.mp hguard
    exact collected_step (ih hevents hmid) (hlast _ hmid).1 hsteps

private theorem written_run (hdryRun : d.config.dryRun = false)
    (hrun : runFrom P d startedAt events = some (log, s)) : Written log s := by
  induction events using List.reverseRecOn generalizing log s with
  | nil =>
    cases hrun
    exact fun _ p key hkey => by cases hkey
  | append_singleton events e ih =>
    obtain ⟨earlier, mid, out, hmid, hsteps, rfl⟩ := runFrom_concat hrun
    exact written_step hdryRun (fun p key => normalized_of_run hmid) (ih hmid) hsteps

/-- At the end of a turn the keys that are served where the table says are granted. -/
theorem granted_of_served (hdryRun : d.config.dryRun = false)
    (hguard : Runs.Guarded (logged (step P d)) (fun s e => Served P d serves s.2 e) ([], d.start startedAt) events)
    (hrun : runFrom P d startedAt events = some (log, s)) (hturn : s.stage = .pausing) {p key : Str} {r : PeerRecord}
    (hlocated : s.discovery.peers.lookup p = some r) (hself : p ≠ d.config.participantId)
    (hserves : serves (recordEndpoint r) key) : Granted log key := by
  have hasked := pending_nil.mp ((attentive_run hrun).pausing hturn).2 p r hlocated hself
  rcases (collected_run hguard hrun).keys p _ key hasked hserves with hkey | ⟨began, endpoints, hs⟩
  · exact written_run hdryRun hrun (hturn ▸ rfl) p key hkey
  · cases hturn.symm.trans hs

end

/-- What a member answers to a key request is read back. -/
theorem answerEnvelope_keyResponse {P : Primitives} {member : HttpKeyExchangeService}
    (hwire : Records.WireSafe member.sid) (hparticipant : Records.WireSafe member.participantId)
    (nowSecs : UInt64) (nanos : Nat) : answerEnvelope (some (keyResponse P member nowSecs (nextNonce nanos))) =
      .ok (member.publicKeyResponse P nowSecs (nextNonce nanos)) := by
  have hpath : Records.WireSafe pathGetPublicKey := by decide
  have hparse : parseEnvelope (serializeEnvelope (member.publicKeyResponse P nowSecs (nextNonce nanos))) = .ok _ :=
    parseEnvelope_serializeEnvelope (wireEnvelope_signEnvelope P _ _ _ hwire hparticipant
      (wireSafe_nextNonce nanos) hpath)
  rw [answerEnvelope, okOr_some, ok_bind, keyResponse, answer, responseBody_httpResponse, mapErr_ok, ok_bind,
    hparse, mapErr_ok]

/-- A member reads the request of another, however it arrives in pieces. -/
theorem connectionRequest_keyRequest {P : Primitives} {service : HttpKeyExchangeService}
    (hwire : Records.WireSafe service.sid) {senderId : Str} (hsender : Records.WireSafe senderId)
    (nowSecs : UInt64) (nanos : Nat) {address : Str} (port : UInt16) (haddress : '\n' ∉ address)
    (hlimit : (utf8 (httpRequest address port pathGetPublicKey (serializeEnvelope
      (service.buildGetPublicKeyRequest P senderId nowSecs (nextNonce nanos))))).length ≤ headerLimit)
    {reads : List Bytes} (hreads : ∀ chunk ∈ reads, chunk ≠ [])
    (htotal : reads.flatten = utf8 (httpRequest address port pathGetPublicKey (serializeEnvelope
      (service.buildGetPublicKeyRequest P senderId nowSecs (nextNonce nanos))))) :
    connectionRequest reads =
      some (pathGetPublicKey, service.buildGetPublicKeyRequest P senderId nowSecs (nextNonce nanos)) := by
  have hpath : Word pathGetPublicKey ∧ Records.WireSafe pathGetPublicKey := by decide
  have hbounds : headerLimit < UInt64.size := by decide
  have hheader := hlimit
  rw [httpRequest, utf8_append, List.length_append] at hheader
  refine connectionRequest_eq_some_iff.mpr
    ⟨serializeEnvelope (service.buildGetPublicKeyRequest P senderId nowSecs (nextNonce nanos)), ?_, ?_⟩
  · exact readHttpRequest_httpRequest hpath.1 haddress (by omega) (by omega) hreads []
      (htotal.trans (List.append_nil _).symm)
  · exact parseEnvelope_serializeEnvelope (wireEnvelope_signEnvelope P _ _ _ hwire hsender
      (wireSafe_nextNonce nanos) ⟨by decide, hpath.2⟩)

section
variable {ι : Type} (P : Primitives) (d : ι → Daemon)

/-- Every answer that a daemon awaits from this endpoint is that of a member. -/
def Answering (i j : ι) (endpoint : PeerEndpoint) (w : World ι State Output) (e : ι × Event) : Prop :=
  ∀ response began endpoints, e = (i, .answer response) →
    (w.state i).stage = .awaiting began endpoint endpoints →
    ∃ nowSecs nanos, response = some (keyResponse P (d j).service nowSecs (nextNonce nanos))

variable {P d} {i j : ι} {endpoint : PeerEndpoint}

/-- What a member answers is taken as its key. -/
theorem served_of_answering (hgroup : SameGroup d i j) (hsid : Records.WireSafe (d j).config.sid)
    (hparticipant : Records.WireSafe (d j).config.participantId) {w : World ι State Output} {e : Event}
    (h : Answering P d i j endpoint w (i, e)) :
    Served P (d i) (fun asked key => asked = endpoint ∧ key = (d j).service.publicKey) (w.state i) e := by
  cases e with
  | answer response =>
    rintro began asked endpoints key hstage ⟨rfl, rfl⟩
    obtain ⟨nowSecs, nanos, rfl⟩ := h response began endpoints rfl hstage
    have hsame : (d i).service.sid = (d j).service.sid := by rw [(d i).sid_eq, (d j).sid_eq, hgroup.1]
    have htoken : (d i).service.sidToken = (d j).service.sidToken := by
      rw [(d i).sidToken_eq, (d j).sidToken_eq, hgroup.2]
    rw [← (d j).sid_eq] at hsid
    rw [← (d j).participantId_eq] at hparticipant
    have hread := readAnswer_eq_ok_iff.mpr ⟨_, answerEnvelope_keyResponse hsid hparticipant nowSecs nanos,
      HttpKeyExchangeService.verifyAndParsePublicKeyResponse_publicKeyResponse (P := P) hsame htoken hsid
        hparticipant nowSecs (nextNonce nanos)⟩
    exact ⟨_, hread, rfl⟩
  | _ => trivial

private theorem mem_sent_of_lastInstalled [DecidableEq ι] {w : World ι State Output} {content : Str}
    (h : lastInstalled (w.sentBy i) = some content) : (i, Output.install content) ∈ w.sent := by
  obtain ⟨output, houtput, hinstalled⟩ := List.mem_filterMap.mp (List.mem_of_getLast? h)
  obtain ⟨⟨k, m⟩, hm, rfl⟩ := List.mem_map.mp houtput
  obtain ⟨hmem, hk⟩ := List.mem_filter.mp hm
  obtain rfl := of_decide_eq_true hk
  cases m with
  | install content' =>
    cases hinstalled
    exact hmem
  | _ => cases hinstalled

/-- What is served where the table says is in the text, and nothing from outside is in its block. -/
theorem granted_of_located [DecidableEq ι] {startedAt : ι → UInt64} {events : List (ι × Event)}
    {w : World ι State Output} {serves : PeerEndpoint → Str → Prop}
    (hserved : Runs.Guarded (logged (step P (d i))) (fun s e => Served P (d i) serves s.2 e)
      ([], (d i).start (startedAt i)) (eventsOf i events))
    (hsound : w.Sound (Owned d) (Proper P d))
    (hrun : Runs.run (act fun i => step P (d i)) (groupStart d startedAt) events = some w)
    (hturn : (w.state i).stage = .pausing) (hdryRun : (d i).config.dryRun = false) {p key : Str} {r : PeerRecord}
    (hknown : (w.state i).discovery.peers.lookup p = some r) (hself : p ≠ (d i).config.participantId)
    (hserves : serves (recordEndpoint r) key) :
    ∃ content, lastInstalled (w.sentBy i) = some content ∧ key ∈ lines content ∧ BlockOwned d i content := by
  obtain ⟨content, hlast, hmem⟩ := granted_of_served hdryRun hserved (run_of_party hrun i) hturn hknown hself hserves
  exact ⟨content, hlast, hmem, (hsound.sent _ (mem_sent_of_lastInstalled hlast)).installed content rfl⟩

/-- Whenever a daemon has come to the end of a turn, the text that it wrote last has the key of each
member that answers where a record of its table leads, and no key in its block is from outside. -/
theorem located_members_granted [DecidableEq ι] {startedAt : ι → UInt64} {events : List (ι × Event)}
    {w : World ι State Output} {p : Str} {r : PeerRecord}
    (hguard : Runs.Guarded (act fun i => step P (d i))
      (fun w e => Unforged P d w.sent e.1 e.2 ∧ Answering P d i j (recordEndpoint r) w e) (groupStart d startedAt)
      events)
    (hrun : Runs.run (act fun i => step P (d i)) (groupStart d startedAt) events = some w)
    (hturn : (w.state i).stage = .pausing) (hdryRun : (d i).config.dryRun = false) (hgroup : SameGroup d i j)
    (hsid : Records.WireSafe (d j).config.sid) (hparticipant : Records.WireSafe (d j).config.participantId)
    (hknown : (w.state i).discovery.peers.lookup p = some r) (hself : p ≠ (d i).config.participantId) :
    ∃ content, lastInstalled (w.sentBy i) = some content ∧ (d j).service.publicKey ∈ lines content ∧
      BlockOwned d i content := by
  have hserved := guarded_of_party (fun w e h => served_of_answering hgroup hsid hparticipant h.2) hguard hrun
  have hsound : w.Sound (Owned d) (Proper P d) :=
    Runs.invariant_run (fun _ _ _ hw h => sound_act hw h.1) (sound_groupStart startedAt) hguard hrun
  exact granted_of_located hserved hsound hrun hturn hdryRun hknown hself ⟨rfl, rfl⟩

end

def endpointB : PeerEndpoint := ⟨"node-b".toList, "10.0.0.2".toList, 2222⟩

def requestToB : SignedEnvelope := nodeA.buildGetPublicKeyRequest .standard "node-b".toList 1000 (nextNonce 3)

def bytesToB : Bytes :=
  utf8 (httpRequest "10.0.0.2".toList 2222 pathGetPublicKey (serializeEnvelope requestToB))

def responseOfB : SignedEnvelope := nodeB.publicKeyResponse .standard 1000 (nextNonce 4)

private def answering : List (Bool × Event) :=
  [(true, .connection [bytesToB] 1000 4), (false, .answer (some (keyResponse .standard nodeB 1000 (nextNonce 4))))]

private def saving : List (Bool × Event) := [(false, .save (.identity _) none true), (false, .announce 1001 5)]

def exchangeB : List (Bool × Event) := answering ++ saving

private theorem length_bytesToB : bytesToB.length ≤ headerLimit := by
  have hsignature : (utf8 requestToB.signatureHex).length = 64 := length_signatureHex ..
  have hbody : (utf8 (serializeEnvelope requestToB)).length = 237 := by
    rw [length_of_signature hsignature]
    decide +kernel
  rw [bytesToB, httpRequest, utf8_append, List.length_append, hbody]
  decide +kernel

private theorem connectionRequest_bytesToB : connectionRequest [bytesToB] = some (pathGetPublicKey, requestToB) := by
  have hne : bytesToB ≠ [] := fun hnil => List.cons_ne_nil _ _ (utf8_inj hnil)
  exact connectionRequest_keyRequest (by decide) (by decide) 1000 3 2222 (by decide) length_bytesToB
    (List.forall_mem_singleton.mpr hne) List.flatten_singleton

/-- Which is answered. -/
theorem connectionReply_bytesToB :
    connectionReply .standard nodeB [bytesToB] 1000 (nextNonce 4) = .ok (.signed responseOfB) := by
  refine connectionReply_eq_signed_iff.mpr (.key connectionRequest_bytesToB ?_ ⟨_, rfl, by decide⟩)
  exact HttpKeyExchangeService.authentic_signEnvelope rfl rfl ..

section
variable {bootstrapPeers : List Str} {w : World Bool State Output}

abbrev PairGuard (bootstrapPeers : List Str) (w : World Bool State Output) (e : Bool × Event) : Prop :=
  Unforged .standard (pair bootstrapPeers) w.sent e.1 e.2 ∧
    Answering .standard (pair bootstrapPeers) false true endpointB w e

/-- Events that bring neither an envelope nor an answer meet every guard. -/
theorem guarded_of_quiet {events : List (Bool × Event)}
    (h : ∀ e ∈ events, e.2.envelope = none ∧ ∀ response, e.2 ≠ .answer response) (w : World Bool State Output) :
    Runs.Guarded (act fun i => step .standard (pair bootstrapPeers i)) (PairGuard bootstrapPeers) w events := by
  induction events generalizing w with
  | nil => trivial
  | cons e events ih =>
    obtain ⟨⟨hunread, hquiet⟩, hrest⟩ := List.forall_mem_cons.mp h
    refine ⟨⟨unforged_of_unread hunread, ?_⟩, fun w' _ => ih hrest w'⟩
    rintro response began endpoints rfl
    exact absurd rfl (hquiet response)

/-- Nothing in it is forged if the request was sent. -/
theorem guarded_exchangeB (hsent : (false, Output.post endpointB requestToB) ∈ w.sent) :
    Runs.Guarded (act fun i => step .standard (pair bootstrapPeers i)) (PairGuard bootstrapPeers) w exchangeB := by
  have htoken := (sameGroup_pair bootstrapPeers false true).2
  have hread : (Event.connection [bytesToB] 1000 4).envelope = some requestToB := by
    rw [Event.envelope, connectionRequest_bytesToB]
    rfl
  refine ⟨⟨unforged_of_sent hread hsent rfl htoken.symm, fun _ _ _ h => by cases h⟩, fun w₁ h₁ => ⟨⟨?_, ?_⟩, ?_⟩⟩
  · have hreply : (true, Output.reply (.signed responseOfB)) ∈ w₁.sent := by
      obtain ⟨⟨out, s'⟩, hstep, rfl⟩ := Option.map_eq_some_iff.mp h₁
      cases steps_of_step hstep with
      | replied hstage hreply =>
        cases connectionReply_bytesToB.symm.trans hreply
        exact List.mem_append_right _ (List.mem_singleton_self _)
      | dropped hstage hreply => cases connectionReply_bytesToB.symm.trans hreply
      | panicked hstage hreply => cases connectionReply_bytesToB.symm.trans hreply
    have hread : (Event.answer (some (keyResponse .standard nodeB 1000 (nextNonce 4)))).envelope =
        some responseOfB := by
      rw [Event.envelope, answerEnvelope_keyResponse (by decide) (by decide)]
      rfl
    exact unforged_of_sent hread hreply rfl htoken
  · rintro response began endpoints h -
    cases h
    exact ⟨1000, 4, rfl⟩
  · have hquiet : ∀ e ∈ saving, e.2.envelope = none ∧ ∀ response, e.2 ≠ .answer response := by
      simp only [saving, List.forall_mem_cons]
      refine ⟨⟨rfl, ?_⟩, ⟨rfl, ?_⟩, List.forall_mem_nil _⟩ <;>
        exact fun _ h => by cases h
    exact fun w₂ _ => guarded_of_quiet hquiet _

private theorem discovery_answered (P : Primitives) (d : Daemon) (s : State) (endpoint : PeerEndpoint)
    (response : Option Bytes) (stage : Stage) :
    State.discovery { s.answered P d endpoint response with stage } = s.discovery := rfl

private theorem run_answering (bootstrapPeers : List Str) (hserving : (w.state true).stage = .serving)
    (hstage : (w.state false).stage = .awaiting 1000 endpointB []) :
    ∃ w', Runs.run (act fun i => step .standard (pair bootstrapPeers i)) w answering = some w' ∧
      (w'.state false).stage = .saving 1000 ∧ (w'.state false).discovery = (w.state false).discovery := by
  have hreply := act_of_steps (P := .standard) (d := pair bootstrapPeers) (i := true)
    (.replied hserving connectionReply_bytesToB)
  have hother : (w.set true ([Output.reply (.signed responseOfB)], w.state true)).state false = w.state false :=
    World.set_state_of_ne Bool.false_ne_true
  rw [← hother] at hstage
  rw [answering, Runs.run_cons, hreply, Option.bind_some, Runs.run_cons, act_of_steps (.answered hstage)]
  refine ⟨_, rfl, ?_, ?_⟩
  · rw [World.set_state_self]
    rfl
  · rw [World.set_state_self, discovery_answered, hother]

/-- The turn then comes to its end. -/
theorem run_exchangeB {events : List (Bool × Event)}
    (hrun : Runs.run (act fun i => step .standard (pair bootstrapPeers i))
      (groupStart (pair bootstrapPeers) fun _ => 1000) events = some w)
    (hserving : (w.state true).stage = .serving) (hstage : (w.state false).stage = .awaiting 1000 endpointB []) :
    ∃ w', Runs.run (act fun i => step .standard (pair bootstrapPeers i)) w exchangeB = some w' ∧
      (w'.state false).stage = .pausing ∧ (w'.state false).discovery = (w.state false).discovery := by
  obtain ⟨w₁, hanswered, hsaving, hsame⟩ := run_answering bootstrapPeers hserving hstage
  have hrun₁ : Runs.run (act fun i => step .standard (pair bootstrapPeers i))
      (groupStart (pair bootstrapPeers) fun _ => 1000) (events ++ answering) = some w₁ := by
    rw [Runs.run_append, hrun, Option.bind_some, hanswered]
  have hnormal (key : Str) (hkey : key ∈ HashMap.iterate (.identity _) (w₁.state false).managedKeys) :
      normalizePublicKey key = .ok key := by
    obtain ⟨p, hp⟩ := HashMap.mem_iterate.mp hkey
    exact normalized_of_run (run_of_party hrun₁ false) hp
  obtain ⟨content, hfile⟩ : ∃ content, (pair bootstrapPeers false).applyManagedBlock
      (HashMap.iterate (.identity _) (w₁.state false).managedKeys) none true = .ok content :=
    (Daemon.exists_applyManagedBlock_iff hnormal).mpr ⟨rfl, [], rfl, fun h => absurd h (by decide)⟩
  have hsave := act_of_steps (P := .standard) (d := pair bootstrapPeers) (i := false) (.written hsaving rfl hfile)
  rw [exchangeB, Runs.run_append, hanswered, Option.bind_some, saving, Runs.run_cons, hsave, Option.bind_some,
    Runs.run_cons, act_of_steps (.announced rfl)]
  exact ⟨_, rfl, rfl, hsame⟩

end

private def askingB : List (Bool × Event) :=
  [(true, .announce 1000 1), (false, .announce 1000 2), (false, .noConnection),
    (false, .noDatagram 1000 (.identity _) (.identity _)), (false, .post 1000 3)]

private def listB : List Str := ["node-b@10.0.0.2:2222".toList]

/-- After this turn the asker has granted access to the member that it has asked. -/
theorem located_members_granted_pair : ∃ w content, Runs.run (act fun i => step .standard (pair listB i))
      (groupStart (pair listB) fun _ => 1000) (askingB ++ exchangeB) = some w ∧
    lastInstalled (w.sentBy false) = some content ∧ nodeB.publicKey ∈ lines content ∧
    BlockOwned (pair listB) false content := by
  obtain ⟨w, hrun, hsent, hserving, hstage, hknown⟩ : ∃ w, Runs.run (act fun i => step .standard (pair listB i))
      (groupStart (pair listB) fun _ => 1000) askingB = some w ∧
      (false, Output.post endpointB requestToB) ∈ w.sent ∧ (w.state true).stage = .serving ∧
      (w.state false).stage = .awaiting 1000 endpointB [] ∧
      (w.state false).discovery.peers.lookup "node-b".toList = some ⟨"node-b".toList, "10.0.0.2".toList, 2222, []⟩ :=
    ⟨_, rfl, List.mem_append_right _ (List.mem_singleton_self _), rfl, rfl, rfl⟩
  obtain ⟨w', hexchange, hturn, hsame⟩ := run_exchangeB hrun hserving hstage
  have hrun' : Runs.run (act fun i => step .standard (pair listB i)) (groupStart (pair listB) fun _ => 1000)
      (askingB ++ exchangeB) = some w' := by
    rw [Runs.run_append, hrun, Option.bind_some, hexchange]
  have hguard : Runs.Guarded (act fun i => step .standard (pair listB i)) (PairGuard listB)
      (groupStart (pair listB) fun _ => 1000) (askingB ++ exchangeB) := by
    refine Runs.guarded_append.mpr ⟨guarded_of_quiet ?_ _, fun w₁ h₁ => ?_⟩
    · simp only [askingB, List.forall_mem_cons]
      refine ⟨⟨rfl, ?_⟩, ⟨rfl, ?_⟩, ⟨rfl, ?_⟩, ⟨rfl, ?_⟩, ⟨rfl, ?_⟩, List.forall_mem_nil _⟩ <;>
        exact fun _ h => by cases h
    · obtain rfl := Option.some.inj (hrun.symm.trans h₁)
      exact guarded_exchangeB hsent
  obtain ⟨content, hlast, hmem, hblock⟩ := located_members_granted (j := true) hguard hrun' hturn rfl
    (sameGroup_pair listB false true) (by decide) (by decide) (hsame ▸ hknown) (by decide)
  exact ⟨w', content, hrun', hlast, hmem, hblock⟩

end SshKeySync.Runtime.DaemonProcess
