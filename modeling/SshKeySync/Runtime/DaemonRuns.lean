import SshKeySync.Runtime.BootstrapPeers
import SshKeySync.Runtime.DaemonProcess

/-! Runs of one daemon, whatever the network and the machine do to it. Only a stop request, one
kind of request and a file that cannot be replaced end it, and at the end of a turn every
peer that it knows has been asked where it is known to be. -/
namespace SshKeySync.Runtime.DaemonProcess
open RustStd Auth Transport Discovery Config AuthorizedKeys Keys LastWriter Parties

def runFrom (P : Primitives) (d : Daemon) (startedAt : UInt64) (events : List Event) : Option (List Output × State) :=
  Runs.run (logged (step P d)) ([], d.start startedAt) events

def fileText : Option Bytes → Option Str
  | none => some []
  | some bytes => fromUtf8 bytes

/-- A text with an end for its begin, into which any keys can be put. -/
def Writable (found : Option Bytes) : Prop := ∃ text, fileText found = some text ∧ HasEnd (lines text)

def Output.asked : Output → Option PeerEndpoint
  | .post endpoint _ => some endpoint
  | _ => none

def Output.installed : Output → Option Str
  | .install content => some content
  | _ => none

def lastAsked (log : List Output) (p : Str) : Option PeerEndpoint :=
  latest PeerEndpoint.participantId p (log.filterMap Output.asked)

/-- The last request to each peer in the table went where the table says it is. -/
def AskedWhereKnown (d : Daemon) (log : List Output) (s : State) : Prop :=
  ∀ p r, s.discovery.peers.lookup p = some r → p ≠ d.config.participantId → lastAsked log p = some (recordEndpoint r)

/-- Each peer in the table is one of these endpoints, or was asked last where it is known to be. -/
def Pending (d : Daemon) (log : List Output) (s : State) (endpoints : List PeerEndpoint) : Prop :=
  (endpoints.map PeerEndpoint.participantId).Nodup ∧
    ∀ p r, s.discovery.peers.lookup p = some r → p ≠ d.config.participantId → recordEndpoint r ∈ endpoints ∨
      lastAsked log p = some (recordEndpoint r) ∧ ∀ endpoint ∈ endpoints, endpoint.participantId ≠ p

/-- The endpoints that a sync has still to ask; before the poll of a turn there is no such list. -/
def Stage.unasked : Stage → Option (List PeerEndpoint)
  | .starting | .serving | .receiving | .ended .panicked => none
  | .asking _ endpoint endpoints => some (endpoint :: endpoints)
  | .awaiting _ _ endpoints => some endpoints
  | _ => some []

/-- A change of the table is signalled until a sync has taken it up, and then worked off. -/
def Attentive (d : Daemon) (log : List Output) (s : State) : Prop :=
  match s.stage.unasked with
  | none => s.discovery.syncTriggerPending = true ∨ AskedWhereKnown d log s
  | some endpoints => s.discovery.syncTriggerPending = false ∧ Pending d log s endpoints

/-- The calls to the engine that the daemon makes on an event. -/
def Event.op : Event → Option Discovery.Op
  | .datagram bytes nowSecs => (receivedEnvelope bytes).map (.processAnnouncement · nowSecs)
  | .noDatagram .. => some .takeSyncTrigger
  | _ => none

namespace Daemon
variable {P : Primitives} {d : Daemon}

def announcement (P : Primitives) (d : Daemon) (discovery : DiscoveryEngine) (nowSecs : UInt64) (nanos : Nat) :
    SignedEnvelope :=
  signEnvelope P discovery.sid discovery.sidToken d.config.participantId nowSecs (nextNonce nanos)
    .udpAnnouncement (announcementBody discovery.sid d.config.participantId d.advertised d.httpPort
      d.service.publicKey)

/-- The local key is in normal form, so that an announcement can always be built. -/
theorem sendAnnouncement_eq (discovery : DiscoveryEngine) (nowSecs : UInt64) (nanos : Nat) :
    d.sendAnnouncement P discovery nowSecs nanos = .ok (d.announcement P discovery nowSecs nanos) := by
  rw [sendAnnouncement, DiscoveryEngine.buildStartupAnnouncement_eq_ok d.service.normalized]
  rfl

/-- A text is written exactly when the file can be read, edited and replaced. -/
theorem applyManagedBlock_eq_ok_iff {keys : List Str} {found : Option Bytes} {saved : Bool} {content : Str} :
    d.applyManagedBlock keys found saved = .ok content ↔
      saved = true ∧ ∃ text, fileText found = some text ∧ upsertManagedBlock text keys = .ok content := by
  have hread (path : FilePath) (text : Str) :
      readExistingAuthorizedKeys path found = .ok text ↔ fileText found = some text := by
    cases found with
    | none => rw [readExistingAuthorizedKeys, fileText, Except.ok.injEq, Option.some.injEq]
    | some bytes => rw [readExistingAuthorizedKeys, fileText, okOr_eq_ok]
  simp only [applyManagedBlock, planUpdate, bind_eq_ok, mapErr_eq_ok, hread]
  constructor
  · rintro ⟨updated, hupdated, h⟩
    split at h
    · rename_i hsaved
      cases h
      exact ⟨hsaved, hupdated⟩
    · cases h
  · rintro ⟨hsaved, hupdated⟩
    exact ⟨content, hupdated, if_pos hsaved⟩

private theorem applyManagedBlock_eq_error {keys : List Str} {found : Option Bytes} {saved : Bool}
    {error : RuntimeError} (h : d.applyManagedBlock keys found saved = .error error) :
    error = .writeAuthorizedKeys d.authorizedKeysPath := by
  rw [applyManagedBlock] at h
  cases hplan : planUpdate ⟨[], d.authorizedKeysPath⟩ found keys with
  | error e =>
    rw [hplan] at h
    cases h
    rfl
  | ok updated =>
    rw [hplan, mapErr_ok, ok_bind] at h
    split at h <;> cases h
    rfl

/-- Keys in normal form can be put into any file that is writable and is then replaced. -/
theorem exists_applyManagedBlock_iff {keys : List Str} (hkeys : ∀ key ∈ keys, normalizePublicKey key = .ok key)
    {found : Option Bytes} {saved : Bool} :
    (∃ content, d.applyManagedBlock keys found saved = .ok content) ↔ saved = true ∧ Writable found := by
  simp only [applyManagedBlock_eq_ok_iff, upsertManagedBlock_eq_ok_iff, Writable]
  constructor
  · rintro ⟨content, hsaved, text, htext, -, hend, -⟩
    exact ⟨hsaved, text, htext, hend⟩
  · rintro ⟨hsaved, text, htext, hend⟩
    exact ⟨_, hsaved, text, htext, fun key hkey => ⟨key, hkeys key hkey⟩, hend, rfl⟩

end Daemon

inductive Steps (P : Primitives) (d : Daemon) (s : State) : Event → List Output → State → Prop
  | start {nowSecs nanos} (h : s.stage = .starting) : Steps P d s (.announce nowSecs nanos)
      [.broadcast (d.announcement P s.discovery nowSecs nanos)] { s with stage := .serving }
  | replied {reads nowSecs nanos response} (h : s.stage = .serving)
      (hreply : connectionReply P d.service reads nowSecs (nextNonce nanos) = .ok response) :
      Steps P d s (.connection reads nowSecs nanos) [.reply response] s
  | dropped {reads nowSecs nanos kind message} (h : s.stage = .serving)
      (hreply : connectionReply P d.service reads nowSecs (nextNonce nanos) = .error (.io kind message)) :
      Steps P d s (.connection reads nowSecs nanos) [] s
  | panicked {reads nowSecs nanos} (h : s.stage = .serving)
      (hreply : connectionReply P d.service reads nowSecs (nextNonce nanos) = .error .panic) :
      Steps P d s (.connection reads nowSecs nanos) [] { s with stage := .ended .panicked }
  | served (h : s.stage = .serving) : Steps P d s .noConnection [] { s with stage := .receiving }
  | received {bytes nowSecs} (h : s.stage = .receiving) :
      Steps P d s (.datagram bytes nowSecs) [] (s.received P bytes nowSecs)
  | polled {nowSecs recordOrder endpointOrder} (h : s.stage = .receiving) :
      Steps P d s (.noDatagram nowSecs recordOrder endpointOrder) [] (s.poll d nowSecs recordOrder endpointOrder)
  | posted {began endpoint endpoints nowSecs nanos} (h : s.stage = .asking began endpoint endpoints) :
      Steps P d s (.post nowSecs nanos) [.post endpoint (d.keyRequestTo P endpoint nowSecs nanos)]
        { s with stage := .awaiting began endpoint endpoints }
  | answered {began endpoint endpoints response} (h : s.stage = .awaiting began endpoint endpoints) :
      Steps P d s (.answer response) []
        { s.answered P d endpoint response with stage := .ask began endpoints }
  | unwritten {began keyOrder found saved} (h : s.stage = .saving began) (hdryRun : d.config.dryRun = true) :
      Steps P d s (.save keyOrder found saved) [] { s with stage := .announcing began }
  | written {began keyOrder found saved content} (h : s.stage = .saving began) (hdryRun : d.config.dryRun = false)
      (hfile : d.applyManagedBlock (HashMap.iterate keyOrder s.managedKeys) found saved = .ok content) :
      Steps P d s (.save keyOrder found saved) [.install content] { s with stage := .announcing began }
  | refused {began keyOrder found saved} (h : s.stage = .saving began) (hdryRun : d.config.dryRun = false)
      (hfile : ∀ content, d.applyManagedBlock (HashMap.iterate keyOrder s.managedKeys) found saved ≠ .ok content) :
      Steps P d s (.save keyOrder found saved) [] (s.fail (.writeAuthorizedKeys d.authorizedKeysPath))
  | announced {began nowSecs nanos} (h : s.stage = .announcing began) : Steps P d s (.announce nowSecs nanos)
      [.broadcast (d.announcement P s.discovery nowSecs nanos)]
      { s with nextSyncAt := began + max d.config.syncIntervalSecs 1, stage := .pausing }
  | paused {stopRequested} (h : s.stage = .pausing) : Steps P d s (.pause stopRequested) []
      { s with stage := if stopRequested then .ended .stopped else .serving }

section
variable {P : Primitives} {d : Daemon} {s s' : State} {e : Event} {out : List Output}

/-- A step of the daemon is one of these. -/
theorem steps_of_step (h : step P d s e = some (out, s')) : Steps P d s e out s' := by
  unfold step at h
  split at h
  · rename_i hstage
    rw [Daemon.sendAnnouncement_eq] at h
    cases h
    exact .start hstage
  · rename_i reads nowSecs nanos hstage
    cases hreply : connectionReply P d.service reads nowSecs (nextNonce nanos) with
    | ok response =>
      rw [hreply] at h
      cases h
      exact .replied hstage hreply
    | error failure =>
      rw [hreply] at h
      cases failure <;> cases h
      · exact .dropped hstage hreply
      · exact .panicked hstage hreply
  · rename_i hstage
    cases h
    exact .served hstage
  · rename_i hstage
    cases h
    exact .received hstage
  · rename_i hstage
    cases h
    exact .polled hstage
  · rename_i hstage
    cases h
    exact .posted hstage
  · rename_i hstage
    cases h
    exact .answered hstage
  · rename_i keyOrder found saved hstage
    split at h
    · rename_i hdryRun
      cases h
      exact .unwritten hstage hdryRun
    · rename_i hdryRun
      rw [Bool.not_eq_true] at hdryRun
      cases hfile : d.applyManagedBlock (HashMap.iterate keyOrder s.managedKeys) found saved with
      | ok content =>
        rw [hfile] at h
        cases h
        exact .written hstage hdryRun hfile
      | error error =>
        rw [hfile, Daemon.applyManagedBlock_eq_error hfile] at h
        cases h
        refine .refused hstage hdryRun fun content hok => ?_
        cases hfile.symm.trans hok
  · rename_i hstage
    rw [Daemon.sendAnnouncement_eq] at h
    cases h
    exact .announced hstage
  · rename_i hstage
    cases h
    exact .paused hstage
  · cases h

/-- Everything that `Steps` allows, the daemon can do. -/
theorem step_of_steps (h : Steps P d s e out s') : step P d s e = some (out, s') := by
  cases h with
  | start hstage => simp only [step, hstage, Daemon.sendAnnouncement_eq]
  | replied hstage hreply => simp only [step, hstage, hreply]
  | dropped hstage hreply => simp only [step, hstage, hreply]
  | panicked hstage hreply => simp only [step, hstage, hreply]
  | served hstage => simp only [step, hstage]
  | received hstage => simp only [step, hstage]
  | polled hstage => simp only [step, hstage]
  | posted hstage => simp only [step, hstage]
  | answered hstage => simp only [step, hstage]
  | unwritten hstage hdryRun => simp only [step, hstage, hdryRun, if_true]
  | written hstage hdryRun hfile => simp only [step, hstage, hdryRun, hfile, Bool.false_eq_true, if_false]
  | @refused began keyOrder found saved hstage hdryRun hfile =>
    cases hresult : d.applyManagedBlock (HashMap.iterate keyOrder s.managedKeys) found saved with
    | ok content => exact absurd hresult (hfile content)
    | error error =>
      simp only [step, hstage, hdryRun, hresult, Bool.false_eq_true, if_false,
        Daemon.applyManagedBlock_eq_error hresult]
  | announced hstage => simp only [step, hstage, Daemon.sendAnnouncement_eq]
  | paused hstage => simp only [step, hstage]

end

section
variable {P : Primitives} {d : Daemon} {startedAt : UInt64} {events : List Event} {log : List Output} {s : State}

/-- The last step of a run starts from a state that the others have reached. -/
theorem runFrom_concat {e : Event} (h : runFrom P d startedAt (events ++ [e]) = some (log, s)) :
    ∃ earlier mid out, runFrom P d startedAt events = some (earlier, mid) ∧ Steps P d mid e out s ∧
      log = earlier ++ out := by
  rw [runFrom, Runs.run_append, Option.bind_eq_some_iff] at h
  obtain ⟨⟨earlier, mid⟩, hrun, hlast⟩ := h
  rw [Runs.run_cons, Option.bind_eq_some_iff] at hlast
  obtain ⟨last, hstep, hnil⟩ := hlast
  cases hnil
  obtain ⟨out, hout, hlog⟩ := logged_eq_some_iff.mp hstep
  exact ⟨earlier, mid, out, hrun, steps_of_step hout, hlog⟩

/-- What every step preserves, together with the log, holds after every run. -/
theorem invariant_runFrom {invariant : List Output → State → Prop}
    (hstep : ∀ log s e out s', invariant log s → Steps P d s e out s' → invariant (log ++ out) s')
    (hstart : invariant [] (d.start startedAt)) (hrun : runFrom P d startedAt events = some (log, s)) :
    invariant log s := by
  induction events using List.reverseRecOn generalizing log s with
  | nil =>
    cases hrun
    exact hstart
  | append_singleton events e ih =>
    obtain ⟨earlier, mid, out, hmid, hsteps, rfl⟩ := runFrom_concat hrun
    exact hstep _ _ _ _ _ (ih hmid) hsteps

/-- The engine sees the bootstrap list, the datagrams that hold an envelope, and the polls. -/
theorem discovery_of_run (hrun : runFrom P d startedAt events = some (log, s)) :
    s.discovery = engineAfter P d.config (events.filterMap Event.op) := by
  induction events using List.reverseRecOn generalizing log s with
  | nil =>
    cases hrun
    rfl
  | append_singleton events e ih =>
    obtain ⟨earlier, mid, out, hmid, hsteps, -⟩ := runFrom_concat hrun
    have hsplit (engine : DiscoveryEngine) (ops later : List Discovery.Op) :
      engine.after P (ops ++ later) = (engine.after P ops).after P later := Transducer.after_append ..
    rw [List.filterMap_append, engineAfter, hsplit, ← engineAfter, ← ih hmid]
    cases hsteps with
    | @received bytes nowSecs =>
      rw [State.received, handleUdpAnnouncement, List.filterMap_cons, Event.op]
      cases receivedEnvelope bytes <;> rfl
    | _ => rfl

/-- Every key that was taken from an answer is in normal form. -/
theorem normalized_of_run (hrun : runFrom P d startedAt events = some (log, s)) {p key : Str}
    (h : s.managedKeys.lookup p = some key) : normalizePublicKey key = .ok key := by
  have hkept : ∀ p key, s.managedKeys.lookup p = some key → normalizePublicKey key = .ok key := by
    refine @invariant_runFrom P d startedAt events log s
      (fun _ s => ∀ p key, s.managedKeys.lookup p = some key → normalizePublicKey key = .ok key)
      (fun _ s e out s' hkeys hsteps => ?_) (fun p key h => by cases h) hrun
    cases hsteps with
    | @answered _ endpoint _ response _ =>
      intro p key h
      cases hread : readAnswer P d.service response with
      | error error =>
        rw [State.answered, hread] at h
        exact hkeys p key h
      | ok payload =>
        rw [State.answered, hread, HashMap.lookup_insert] at h
        split at h
        · cases h
          exact normalized_of_readAnswer hread
        · exact hkeys p key h
    | _ => exact hkeys
  exact hkept p key h

/-- The daemon's own calls add no bootstrap list. -/
theorem ne_addBootstrapPeers (events : List Event) :
    ∀ op ∈ events.filterMap Event.op, ∀ bootstrapPeers, op ≠ .addBootstrapPeers bootstrapPeers := by
  intro op hop bootstrapPeers
  obtain ⟨e, -, he⟩ := List.mem_filterMap.mp hop
  rintro rfl
  cases e with
  | datagram bytes nowSecs =>
    obtain ⟨envelope, -, h⟩ := Option.map_eq_some_iff.mp he
    cases h
  | _ => cases he

private theorem participantId_of_peer (hrun : runFrom P d startedAt events = some (log, s)) {p : Str} {r : PeerRecord}
    (h : s.discovery.peers.lookup p = some r) : r.participantId = p := by
  rw [discovery_of_run hrun, engineAfter_eq] at h
  exact DiscoveryEngine.participantId_of_lookup rfl (bootstraps_first (ne_addBootstrapPeers events)) h

def cycleAt (discovery : DiscoveryEngine) (recordOrder : HashMap.Iteration PeerRecord)
    (endpointOrder : HashMap.Iteration PeerEndpoint) : Cycle where
  discovery
  now _ := 0
  nonce _ := []
  network _ _ _ := none
  recordOrder
  endpointOrder
  keyOrder := .identity Str

private theorem pending_endpointsToAsk (hids : ∀ p r, s.discovery.peers.lookup p = some r → r.participantId = p)
    (recordOrder : HashMap.Iteration PeerRecord) (endpointOrder : HashMap.Iteration PeerEndpoint) :
    Pending d log s (d.endpointsToAsk s.discovery recordOrder endpointOrder) := by
  have hkeys (p : Str) (endpoint : PeerEndpoint) (h : (syncEndpoints d.config
      (cycleAt s.discovery recordOrder endpointOrder)).lookup p = some endpoint) : endpoint.participantId = p :=
    participantId_of_lookup h
  refine ⟨(HashMap.nodup_iterate hkeys).sublist (List.filter_sublist.map _), fun p r hr hself => Or.inl ?_⟩
  have hid : (recordEndpoint r).participantId = p := hids p r hr
  refine List.mem_filter.mpr ⟨HashMap.mem_iterate.mpr ⟨p, ?_⟩, decide_eq_true (hid ▸ hself)⟩
  have hlookup : (syncEndpoints d.config (cycleAt s.discovery recordOrder endpointOrder)).lookup p =
      some (recordEndpoint r) := by
    rw [lookup_syncEndpoints hids, show (cycleAt s.discovery recordOrder endpointOrder).discovery.peers.lookup p =
      some r from hr]
    rfl
  exact hlookup

/-- Outputs that ask nobody leave where the last request went. -/
theorem lastAsked_append {out : List Output} (h : out.filterMap Output.asked = []) (p : Str) :
    lastAsked (log ++ out) p = lastAsked log p := by
  rw [lastAsked, List.filterMap_append, h, List.append_nil, lastAsked]

/-- A request is the last one to its participant. -/
theorem lastAsked_post (endpoint : PeerEndpoint) (envelope : SignedEnvelope) (p : Str) :
    lastAsked (log ++ [.post endpoint envelope]) p =
      if endpoint.participantId = p then some endpoint else lastAsked log p := by
  rw [lastAsked, List.filterMap_append, latest_append]
  rw [show [Output.post endpoint envelope].filterMap Output.asked = [endpoint] from rfl, latest_singleton]
  split
  · rfl
  · rfl

/-- With nobody left to ask, every peer was asked where it is known to be. -/
theorem pending_nil : Pending d log s [] ↔ AskedWhereKnown d log s := by
  simp [Pending, AskedWhereKnown]

private theorem Pending.post (hids : ∀ p r, s.discovery.peers.lookup p = some r → r.participantId = p)
    {endpoint : PeerEndpoint} {endpoints : List PeerEndpoint} (h : Pending d log s (endpoint :: endpoints))
    (envelope : SignedEnvelope) : Pending d (log ++ [.post endpoint envelope]) s endpoints := by
  obtain ⟨hnodup, hpending⟩ := h
  rw [List.map_cons, List.nodup_cons] at hnodup
  refine ⟨hnodup.2, fun p r hr hself => ?_⟩
  rw [lastAsked_post]
  rcases hpending p r hr hself with hmem | ⟨hlast, hnone⟩
  · rcases List.mem_cons.mp hmem with hfirst | hrest
    · have hp : endpoint.participantId = p := hfirst ▸ hids p r hr
      refine Or.inr ⟨by rw [if_pos hp, hfirst], fun other hother hsame => hnodup.1 ?_⟩
      exact hp.trans hsame.symm ▸ List.mem_map_of_mem hother
    · exact Or.inl hrest
  · obtain ⟨hne, hrest⟩ := List.forall_mem_cons.mp hnone
    exact Or.inr ⟨by rw [if_neg hne, hlast], hrest⟩

private theorem Pending.append {endpoints : List PeerEndpoint} (h : Pending d log s endpoints) {out : List Output}
    (hout : out.filterMap Output.asked = []) : Pending d (log ++ out) s endpoints := by
  refine ⟨h.1, fun p r hr hself => ?_⟩
  rw [lastAsked_append hout]
  exact h.2 p r hr hself

private theorem received_cases (bytes : Bytes) (nowSecs : UInt64) :
    (s.received P bytes nowSecs).discovery.syncTriggerPending = true ∨
      (s.received P bytes nowSecs).discovery.peers = s.discovery.peers ∧
      (s.received P bytes nowSecs).discovery.syncTriggerPending = s.discovery.syncTriggerPending := by
  rw [State.received, handleUdpAnnouncement]
  cases receivedEnvelope bytes with
  | none => exact Or.inr ⟨rfl, rfl⟩
  | some envelope =>
    dsimp only
    cases hheard : s.discovery.heard P envelope nowSecs with
    | none => exact Or.inr (DiscoveryEngine.processAnnouncement_of_not_heard hheard).2
    | some r =>
      rcases DiscoveryEngine.processAnnouncement_of_heard hheard with ⟨-, -, hsame⟩ | ⟨-, -, -, hraised⟩
      · exact Or.inr hsame
      · exact Or.inl hraised

private theorem Stage.unasked_ask (began : UInt64) (endpoints : List PeerEndpoint) :
    (Stage.ask began endpoints).unasked = some endpoints := by
  cases endpoints <;> rfl

private theorem attentive_start : Attentive d [] (d.start startedAt) := by
  have hiff : (d.start startedAt).discovery.syncTriggerPending = true ↔ false = true ∨
      (DiscoveryEngine.new d.config.sid d.config.sidToken timestampSkewSecs nonceTtlSecs).Changes .standard
        (.addBootstrapPeers d.config.bootstrapPeers) :=
    DiscoveryEngine.pending_perform_iff Discovery.Op.noConfusion
      (show DiscoveryEngine.BootstrapsWhileEmpty (.new ..) (.addBootstrapPeers _) from rfl)
  by_cases hpending : (d.start startedAt).discovery.syncTriggerPending = true
  · exact Or.inl hpending
  · refine Or.inr fun p r hr => absurd (hiff.mpr (Or.inr ⟨p, fun hsame => ?_⟩)) hpending
    cases hr.symm.trans hsame

private theorem attentive_step {s' : State} {e : Event} {out : List Output}
    (hids : ∀ p r, s.discovery.peers.lookup p = some r → r.participantId = p) (h : Attentive d log s)
    (hsteps : Steps P d s e out s') : Attentive d (log ++ out) s' := by
  unfold Attentive at h ⊢
  cases hsteps with
  | start hstage =>
    rw [hstage] at h
    exact h.imp_right fun hasked => pending_nil.mp ((pending_nil.mpr hasked).append rfl)
  | replied hstage hreply =>
    rw [hstage] at h ⊢
    exact h.imp_right fun hasked => pending_nil.mp ((pending_nil.mpr hasked).append rfl)
  | dropped hstage hreply => rwa [List.append_nil]
  | panicked hstage hreply =>
    rw [hstage] at h
    rw [List.append_nil]
    exact h
  | served hstage =>
    rw [hstage] at h
    rw [List.append_nil]
    exact h
  | @received bytes nowSecs hstage =>
    rw [hstage] at h
    rw [List.append_nil, show (s.received P bytes nowSecs).stage = .receiving from hstage]
    rcases received_cases (P := P) (s := s) bytes nowSecs with hraised | ⟨hpeers, hsame⟩
    · exact Or.inl hraised
    · rw [hsame]
      refine h.imp_right fun hasked p r hr => hasked p r ?_
      rwa [← hpeers]
  | @polled nowSecs recordOrder endpointOrder hstage =>
    rw [hstage] at h
    rw [List.append_nil]
    by_cases hsync : s.nextSyncAt ≤ nowSecs ∨ s.discovery.takeSyncTrigger.1 = true
    · have hstage' : (s.poll d nowSecs recordOrder endpointOrder).stage =
          .ask nowSecs (d.endpointsToAsk s.discovery.takeSyncTrigger.2 recordOrder endpointOrder) := if_pos hsync
      rw [hstage', Stage.unasked_ask]
      exact ⟨rfl, pending_endpointsToAsk (s := s.poll d nowSecs recordOrder endpointOrder) hids ..⟩
    · have hstage' : (s.poll d nowSecs recordOrder endpointOrder).stage = .pausing := if_neg hsync
      rw [hstage']
      exact ⟨rfl, pending_nil.mpr (h.resolve_left fun hpending => hsync (Or.inr hpending))⟩
  | @posted began endpoint endpoints nowSecs nanos hstage =>
    rw [hstage] at h
    exact ⟨h.1, h.2.post hids _⟩
  | @answered began endpoint endpoints response hstage =>
    rw [hstage] at h
    rw [List.append_nil]
    cases endpoints <;> exact h
  | unwritten hstage hdryRun =>
    rw [hstage] at h
    rw [List.append_nil]
    exact h
  | written hstage hdryRun hfile =>
    rw [hstage] at h
    exact ⟨h.1, h.2.append rfl⟩
  | refused hstage hdryRun hfile =>
    rw [hstage] at h
    rw [List.append_nil]
    exact h
  | announced hstage =>
    rw [hstage] at h
    exact ⟨h.1, h.2.append rfl⟩
  | @paused stopRequested hstage =>
    rw [hstage] at h
    rw [List.append_nil]
    cases stopRequested with
    | true => exact h
    | false => exact Or.inr (pending_nil.mp h.2)

/-- Every run of the daemon is attentive. -/
theorem attentive_run (hrun : runFrom P d startedAt events = some (log, s)) : Attentive d log s := by
  induction events using List.reverseRecOn generalizing log s with
  | nil =>
    cases hrun
    exact attentive_start
  | append_singleton events e ih =>
    obtain ⟨earlier, mid, out, hmid, hsteps, rfl⟩ := runFrom_concat hrun
    exact attentive_step (fun p r => participantId_of_peer hmid) (ih hmid) hsteps

/-- At the end of a turn no change waits, and nobody is left to ask. -/
theorem Attentive.pausing (h : Attentive d log s) (hturn : s.stage = .pausing) :
    s.discovery.syncTriggerPending = false ∧ Pending d log s [] := by
  unfold Attentive at h
  rwa [hturn] at h

/-- At the end of every turn no trigger is pending, and each peer in the table has been asked where
the table says it is. -/
theorem asked_where_known (hrun : runFrom P d startedAt events = some (log, s)) (hturn : s.stage = .pausing) :
    s.discovery.syncTriggerPending = false ∧ AskedWhereKnown d log s := by
  obtain ⟨hquiet, hpending⟩ := (attentive_run hrun).pausing hturn
  exact ⟨hquiet, pending_nil.mp hpending⟩

/-- A peer of the bootstrap list has been asked after the first turn, although it did not answer. -/
theorem asked_where_known_bootstrap : ∃ log s, runFrom .standard (daemonA ["node-b@10.0.0.2:2222".toList]) 1000
      (.announce 1000 1 :: (askingTurn none none ++ [.announce 1000 3])) = some (log, s) ∧
    s.stage = .pausing ∧ lastAsked log "node-b".toList = some ⟨"node-b".toList, "10.0.0.2".toList, 2222⟩ := by
  obtain ⟨log, s, hrun, hstage, hpeer⟩ : ∃ log s, runFrom .standard (daemonA ["node-b@10.0.0.2:2222".toList]) 1000
      (.announce 1000 1 :: (askingTurn none none ++ [.announce 1000 3])) = some (log, s) ∧ s.stage = .pausing ∧
      s.discovery.peers.lookup "node-b".toList = some ⟨"node-b".toList, "10.0.0.2".toList, 2222, []⟩ :=
    ⟨_, _, rfl, rfl, rfl⟩
  exact ⟨log, s, hrun, hstage, (asked_where_known hrun hstage).2 _ _ hpeer (by decide)⟩

end
end SshKeySync.Runtime.DaemonProcess
