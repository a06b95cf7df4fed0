import SshKeySync.Runtime.DaemonRuns

/-! The daemon against its cycles. However the system calls of a run fall, the requests, the responses, the
written texts and the map are those of a list of cycles, one for each poll that syncs and in their order,
and the timer is that of the polls. -/
namespace SshKeySync.Runtime.DaemonProcess
open RustStd Auth Transport Discovery Config AuthorizedKeys Keys LastWriter Parties

def Output.posted : Output → Option (PeerEndpoint × SignedEnvelope)
  | .post endpoint envelope => some (endpoint, envelope)
  | _ => none

def Event.response : Event → Option (Option Bytes)
  | .answer response => some response
  | _ => none

/-- What a save finds, and whether it replaces the file. -/
structure Save where
  keyOrder : HashMap.Iteration Str
  found : Option Bytes
  saved : Bool

def Event.saving : Event → Option Save
  | .save keyOrder found saved => some ⟨keyOrder, found, saved⟩
  | _ => none

/-- A poll with the turn that it begins, the engine that it leaves, and the orders in which the maps
are iterated. The due time does not hang on when the turn ends. -/
structure Poll where
  turn : Turn
  discovery : DiscoveryEngine
  recordOrder : HashMap.Iteration PeerRecord
  endpointOrder : HashMap.Iteration PeerEndpoint

def Event.polled (engine : DiscoveryEngine) : Event → Option Poll
  | .noDatagram nowSecs recordOrder endpointOrder =>
    some ⟨⟨nowSecs, engine.takeSyncTrigger.1, nowSecs⟩, engine.takeSyncTrigger.2, recordOrder, endpointOrder⟩
  | _ => none

def polls (P : Primitives) (engine : DiscoveryEngine) : List Event → List Poll
  | [] => []
  | e :: events => (e.polled engine).toList ++ polls P (e.op.elim engine fun op => (engine.perform P op).2) events

def takePoll (syncIntervalSecs nextSyncAt : UInt64) (p : Poll) : Bool × UInt64 :=
  takeTurn syncIntervalSecs nextSyncAt p.turn

def begun (syncIntervalSecs nextSyncAt : UInt64) (seen : List Poll) : List Poll :=
  ((Transducer.trace (takePoll syncIntervalSecs) nextSyncAt seen).filter Prod.snd).map Prod.fst

def Poll.opening (p : Poll) : Cycle := cycleAt p.discovery p.recordOrder p.endpointOrder

/-- What a cycle was before anything was asked. -/
def opening (c : Cycle) : Cycle := cycleAt c.discovery c.recordOrder c.endpointOrder

section
variable (P : Primitives) (d : Daemon) (c : Cycle)

def askedIn : List PeerEndpoint :=
  (HashMap.iterate c.endpointOrder (syncEndpoints d.config c)).filter (·.participantId ≠ d.config.participantId)

def requestIn (endpoint : PeerEndpoint) : PeerEndpoint × SignedEnvelope :=
  (endpoint, d.service.buildGetPublicKeyRequest P endpoint.participantId (c.now endpoint) (c.nonce endpoint))

def collected (endpoints : List PeerEndpoint) (managedKeys : HashMap Str Str) : HashMap Str Str :=
  endpoints.foldl (fun managedKeys endpoint => (requestPublicKey P d.service c endpoint).toOption.elim managedKeys
    (managedKeys.insert endpoint.participantId)) managedKeys

def askIn (endpoint : PeerEndpoint) (nowSecs : UInt64) (nanos : Nat) : Cycle :=
  { c with
    now := Function.update c.now endpoint nowSecs
    nonce := Function.update c.nonce endpoint (nextNonce nanos) }

/-- The cycle with a network that answers one endpoint's request so. -/
def answerIn (endpoint : PeerEndpoint) (response : Option Bytes) : Cycle :=
  { c with
    network := fun address port request =>
      if address = endpoint.address ∧ port = endpoint.port ∧ request = requestBytes P d.service c endpoint then
        response
      else c.network address port request }

/-- The text that a cycle and its save leave in the file, if they write any, and the map after the
cycle. -/
def writeCycle (managedKeys : HashMap Str Str) (entry : Cycle × Save) : Option Str × HashMap Str Str :=
  (if d.config.dryRun = false ∧ entry.2.saved = true then
    (fileText entry.2.found).bind fun content =>
      (syncStep P d.toProcess entry.1 ⟨managedKeys, content⟩).toOption.map ProcessState.content
  else none, runSyncCycle P d.toProcess entry.1 managedKeys)

/-- The texts that cycles and their saves leave in the file, one after the other. -/
def texts (entries : List (Cycle × Save)) : List Str :=
  (Transducer.trace (writeCycle P d) ∅ entries).filterMap Prod.snd

end

section
variable {P : Primitives} {d : Daemon} {c : Cycle} {endpoint other : PeerEndpoint}

/-- A cycle of the process collects the answers of the endpoints that the daemon asks. -/
theorem runSyncCycle_eq_collected (managedKeys : HashMap Str Str) :
    runSyncCycle P d.toProcess c managedKeys = collected P d c (askedIn d c) managedKeys := by
  rw [runSyncCycle, collected, askedIn]
  generalize HashMap.iterate c.endpointOrder (syncEndpoints d.config c) = endpoints
  induction endpoints generalizing managedKeys with
  | nil => rfl
  | cons endpoint endpoints ih =>
    rw [List.foldl_cons, ih]
    by_cases hself : endpoint.participantId = d.config.participantId
    · rw [if_pos hself, List.filter_cons_of_neg (by simpa using hself)]
    · rw [if_neg hself, List.filter_cons_of_pos (by simpa using hself), List.foldl_cons]
      cases requestPublicKey P d.service c endpoint <;> rfl

private theorem collected_append (endpoints : List PeerEndpoint) (managedKeys : HashMap Str Str) :
    collected P d c (endpoints ++ [endpoint]) managedKeys =
      (requestPublicKey P d.service c endpoint).toOption.elim (collected P d c endpoints managedKeys)
        ((collected P d c endpoints managedKeys).insert endpoint.participantId) := by
  rw [collected, List.foldl_append]
  rfl

/-- The map hangs on the responses of the endpoints only. -/
theorem collected_congr {c' : Cycle} {endpoints : List PeerEndpoint}
    (h : ∀ endpoint ∈ endpoints, responseTo P d.service c' endpoint = responseTo P d.service c endpoint)
    (managedKeys : HashMap Str Str) :
    collected P d c' endpoints managedKeys = collected P d c endpoints managedKeys := by
  refine List.foldl_ext _ _ _ fun m endpoint hendpoint => ?_
  rw [requestPublicKey_eq_readAnswer, requestPublicKey_eq_readAnswer, h endpoint hendpoint]

private theorem responseTo_askIn (h : other ≠ endpoint) (nowSecs : UInt64) (nanos : Nat) :
    responseTo P d.service (askIn c endpoint nowSecs nanos) other = responseTo P d.service c other := by
  simp only [responseTo, requestBytes, askIn, Function.update_of_ne h]

private theorem responseTo_answerIn (response : Option Bytes) :
    responseTo P d.service (answerIn P d c endpoint response) endpoint = response :=
  if_pos ⟨rfl, rfl, rfl⟩

private theorem count_requestRows {nonce : Str} (hnonce : '\n' ∉ nonce) (senderId : Str) (nowSecs : UInt64) :
    (Records.render ((envelopeRows (d.service.buildGetPublicKeyRequest P senderId nowSecs nonce)).drop 2)).count
      '\n' = 7 := by
  have hrow {key value : Str} (hkey : '\n' ∉ key) (hvalue : '\n' ∉ value) : '\n' ∉ Records.row (key, value) := by
    simp [Records.row, hkey, hvalue]
  have hhex (bytes : Bytes) : '\n' ∉ Hex.encode bytes :=
    fun hmem => absurd (Hex.encode_whitespace_free bytes _ hmem) (by decide)
  refine count_newline_unlines (List.forall_mem_map.mpr ?_)
  simp only [envelopeRows, contextRows, List.cons_append, List.nil_append, List.drop_succ_cons, List.drop_zero,
    HttpKeyExchangeService.buildGetPublicKeyRequest, signHttpRequest, signEnvelope, List.forall_mem_cons]
  exact ⟨hrow (by decide) (newline_not_mem_decimal _), hrow (by decide) hnonce, hrow (by decide) (hhex _),
    by decide, by decide, by decide, hrow (by decide) (hhex _), List.forall_mem_nil _⟩

/-- Requests to one place are different for different participants, if their nonces are lines. -/
theorem participantId_of_requestBytes (haddress : other.address = endpoint.address)
    (hport : other.port = endpoint.port) (hnonces : ∀ endpoint, '\n' ∉ c.nonce endpoint)
    (h : requestBytes P d.service c other = requestBytes P d.service c endpoint) :
    other.participantId = endpoint.participantId := by
  have htext := utf8_inj h
  rw [haddress, hport] at htext
  simp only [httpRequest, requestHeader, Framing.header, requestLines, List.flatMap_cons, List.flatMap_nil,
    List.append_assoc, List.append_cancel_left_eq, List.cons_append, List.nil_append, List.cons.injEq,
    true_and] at htext
  have hdigits (n : Nat) : '\r' ∉ decimal n := fun hmem => absurd (isDigit_of_mem_decimal hmem) (by decide)
  have hbody := (append_separator_inj (hdigits _) (hdigits _) htext).2
  simp only [List.cons.injEq, true_and, List.append_cancel_left_eq] at hbody
  have hcut (endpoint : PeerEndpoint) : keyRequest P d.service endpoint.participantId (c.now endpoint)
      (c.nonce endpoint) = Records.row ("sid".toList, d.service.sid) ++ '\n' :: ("sender_id=".toList ++
        (endpoint.participantId ++ '\n' :: Records.render ((envelopeRows (d.service.buildGetPublicKeyRequest P
          endpoint.participantId (c.now endpoint) (c.nonce endpoint))).drop 2))) := by
    simp only [keyRequest, serializeEnvelope, envelopeRows, Records.render, unlines, Records.row, List.map_cons,
      List.cons_append, List.nil_append, List.flatMap_cons, List.append_assoc, List.drop_succ_cons, List.drop_zero]
    rfl
  rw [hcut, hcut, List.append_cancel_left_eq, List.cons.injEq, List.append_cancel_left_eq] at hbody
  refine (append_separator_inj_of_count ?_ hbody.2).1
  rw [count_requestRows (hnonces other), count_requestRows (hnonces endpoint)]

private theorem responseTo_answerIn_of_ne (hne : other.participantId ≠ endpoint.participantId)
    (hnonces : ∀ endpoint, '\n' ∉ c.nonce endpoint) (response : Option Bytes) :
    responseTo P d.service (answerIn P d c endpoint response) other = responseTo P d.service c other :=
  if_neg fun ⟨haddress, hport, hbytes⟩ => hne (participantId_of_requestBytes haddress hport hnonces hbytes)

private theorem polls_concat (engine : DiscoveryEngine) (events : List Event) (e : Event) :
    polls P engine (events ++ [e]) =
      polls P engine events ++ (e.polled (engine.after P (events.filterMap Event.op))).toList := by
  induction events generalizing engine with
  | nil => exact List.append_nil _
  | cons first events ih =>
    have hafter : engine.after P ((first :: events).filterMap Event.op) = DiscoveryEngine.after P
        (first.op.elim engine fun op => (engine.perform P op).2) (events.filterMap Event.op) := by
      rw [List.filterMap_cons]
      cases first.op <;> rfl
    rw [List.cons_append, polls, polls, ih, hafter, List.append_assoc]

private theorem begun_concat (syncIntervalSecs nextSyncAt : UInt64) (seen : List Poll) (p : Poll) :
    begun syncIntervalSecs nextSyncAt (seen ++ [p]) = begun syncIntervalSecs nextSyncAt seen ++
      if (takePoll syncIntervalSecs (Transducer.after (takePoll syncIntervalSecs) nextSyncAt seen) p).1 then [p]
      else [] := by
  rw [begun, Transducer.trace_append, List.filter_append, List.map_append, ← begun, Transducer.trace,
    Transducer.trace]
  cases (takePoll syncIntervalSecs (Transducer.after (takePoll syncIntervalSecs) nextSyncAt seen) p).1 <;> rfl

/-- A cycle and its save leave the text that the daemon puts into the file. -/
theorem fst_writeCycle (managedKeys : HashMap Str Str) (save : Save) :
    (writeCycle P d managedKeys ({ c with keyOrder := save.keyOrder }, save)).1 =
      if d.config.dryRun then none
      else (d.applyManagedBlock (HashMap.iterate save.keyOrder (runSyncCycle P d.toProcess c managedKeys)) save.found
        save.saved).toOption := by
  cases hdryRun : d.config.dryRun with
  | true => exact if_neg fun hwet => Bool.false_ne_true (hwet.1.symm.trans hdryRun)
  | false =>
    have hstep (text content : Str) : (∃ s, syncStep P d.toProcess { c with keyOrder := save.keyOrder }
        ⟨managedKeys, text⟩ = .ok s ∧ s.content = content) ↔ upsertManagedBlock text (HashMap.iterate save.keyOrder
          (runSyncCycle P d.toProcess c managedKeys)) = .ok content := by
      simp only [syncStep, applyManagedKeys, if_neg (Bool.eq_false_iff.mp hdryRun), bind_eq_ok, mapErr_eq_ok]
      constructor
      · rintro ⟨s, ⟨written, hwritten, hs⟩, rfl⟩
        cases hs
        exact hwritten
      · intro hcontent
        exact ⟨_, ⟨content, hcontent, rfl⟩, rfl⟩
    refine Option.ext fun content => ?_
    rw [if_neg Bool.false_ne_true, toOption_eq_some_iff, Daemon.applyManagedBlock_eq_ok_iff, writeCycle,
      Option.ite_none_right_eq_some, Option.bind_eq_some_iff]
    simp only [Option.map_eq_some_iff, toOption_eq_some_iff, hstep, hdryRun, true_and]

/-- A further cycle adds the text that it and its save leave, if any. -/
theorem texts_concat {cycles : List Cycle} {saves : List Save} (hlength : cycles.length = saves.length)
    (save : Save) : texts P d ((cycles ++ [c]).zip (saves ++ [save])) = texts P d (cycles.zip saves) ++
      (writeCycle P d (managedKeysAfter P d.toProcess cycles) (c, save)).1.toList := by
  have hafter : Transducer.after (writeCycle P d) ∅ (cycles.zip saves) = managedKeysAfter P d.toProcess cycles := by
    rw [managedKeysAfter, ← List.map_fst_zip hlength.le, List.foldl_map, List.map_fst_zip hlength.le]
    rfl
  rw [List.zip_append hlength, texts, Transducer.trace_append, List.filterMap_append, ← texts, hafter]
  cases h : (writeCycle P d (managedKeysAfter P d.toProcess cycles) (c, save)).1 <;>
    simp [Transducer.trace, h]

end

section
variable (P : Primitives) (d : Daemon) (startedAt : UInt64) (events : List Event) (log : List Output) (s : State)

/-- The run has the requests, the responses, the saves and the written texts of the cycles, in order, with
requests and responses of one that goes on. -/
structure Logged (cycles : List Cycle) (sent : List (PeerEndpoint × SignedEnvelope)) (got : List (Option Bytes)) :
    Prop where
  posted : log.filterMap Output.posted = cycles.flatMap (fun c => (askedIn d c).map (requestIn P d c)) ++ sent
  answered : events.filterMap Event.response =
    cycles.flatMap (fun c => (askedIn d c).map (responseTo P d.service c)) ++ got
  keyOrders : cycles.map Cycle.keyOrder = (events.filterMap Event.saving).map Save.keyOrder
  installed : log.filterMap Output.installed = texts P d (cycles.zip (events.filterMap Event.saving))

/-- The timer has seen the polls, and the cycles are those of the polls that sync, in order. -/
structure Timed (seen : List Poll) (cycles : List Cycle) : Prop where
  nextSyncAt : s.nextSyncAt = Transducer.after (takePoll d.config.syncIntervalSecs) startedAt seen
  opened : cycles.map opening = (begun d.config.syncIntervalSecs startedAt seen).map Poll.opening

/-- The sync of the last poll has not come to its end. -/
def Due (began : UInt64) (cycles : List Cycle) (c : Cycle) : Prop := ∃ seen p,
  polls P (engineAfter P d.config []) events = seen ++ [p] ∧ p.turn.nowSecs = began ∧ opening c = p.opening ∧
  Timed d startedAt s seen cycles ∧ (s.nextSyncAt ≤ began ∨ p.turn.discoveryTrigger = true)

/-- A cycle of which some endpoints have answered. -/
structure Asking (began : UInt64) (cycles : List Cycle) (c : Cycle) (done remaining : List PeerEndpoint) : Prop where
  asked : askedIn d c = done ++ remaining
  nonces : ∀ endpoint, '\n' ∉ c.nonce endpoint
  managedKeys : s.managedKeys = collected P d c done (managedKeysAfter P d.toProcess cycles)
  due : Due P d startedAt events s began cycles c

/-- What the run amounts to between two syncs. -/
structure Cycled (cycles : List Cycle) : Prop where
  logged : Logged P d events log cycles [] []
  managedKeys : s.managedKeys = managedKeysAfter P d.toProcess cycles
  timed : Timed d startedAt s (polls P (engineAfter P d.config []) events) cycles

/-- All endpoints of a sync have answered or failed to, and the next one is not yet set. -/
def AskedAll (began : UInt64) : Prop := ∃ cycles c, Logged P d events log (cycles ++ [c]) [] [] ∧
  s.managedKeys = managedKeysAfter P d.toProcess (cycles ++ [c]) ∧ Due P d startedAt events s began cycles c

/-- Some endpoints of a sync have answered, and these are still to be asked. -/
def Resting (began : UInt64) (remaining : List PeerEndpoint) : Prop := ∃ cycles c done,
  Logged P d events log cycles (done.map (requestIn P d c)) (done.map (responseTo P d.service c)) ∧
    Asking P d startedAt events s began cycles c done remaining

/-- What the run amounts to where the daemon stands. -/
def Follows : Prop :=
  match s.stage with
  | .asking began endpoint endpoints => Resting P d startedAt events log s began (endpoint :: endpoints)
  | .awaiting began endpoint endpoints => ∃ cycles c done,
    Logged P d events log cycles ((done ++ [endpoint]).map (requestIn P d c))
      (done.map (responseTo P d.service c)) ∧
    Asking P d startedAt events s began cycles c done (endpoint :: endpoints)
  | .saving began => Resting P d startedAt events log s began []
  | .announcing began => AskedAll P d startedAt events log s began
  | .ended (.failed _) => ∃ began, AskedAll P d startedAt events log s began
  | _ => ∃ cycles, Cycled P d startedAt events log s cycles

end

section
variable {P : Primitives} {d : Daemon} {startedAt : UInt64} {events : List Event} {log out : List Output}
  {s s' : State} {e : Event} {cycles : List Cycle} {c c' : Cycle} {began : UInt64}
  {sent : List (PeerEndpoint × SignedEnvelope)} {got : List (Option Bytes)} {done remaining : List PeerEndpoint}

private theorem Logged.append (h : Logged P d events log cycles sent got) (e : Event) (out : List Output)
    (hsaving : e.saving = none) (hinstalled : out.filterMap Output.installed = []) :
    Logged P d (events ++ [e]) (log ++ out) cycles (sent ++ out.filterMap Output.posted)
      (got ++ e.response.toList) := by
  have hsaves : (events ++ [e]).filterMap Event.saving = events.filterMap Event.saving := by
    rw [List.filterMap_append, List.filterMap_cons_none hsaving, List.filterMap_nil, List.append_nil]
  refine ⟨?_, ?_, hsaves ▸ h.keyOrders, ?_⟩
  · rw [List.filterMap_append, h.posted, List.append_assoc]
  · rw [List.filterMap_append, h.answered, List.append_assoc]
    cases he : e.response <;> simp [he]
  · rw [List.filterMap_append, hinstalled, List.append_nil, h.installed, hsaves]

private theorem Due.mono (h : Due P d startedAt events s began cycles c) (hopening : opening c' = opening c)
    (hpolled : ∀ engine, e.polled engine = none) (hnext : s'.nextSyncAt = s.nextSyncAt) :
    Due P d startedAt (events ++ [e]) s' began cycles c' := by
  obtain ⟨seen, p, hpolls, hbegan, hopened, htimed, hdue⟩ := h
  refine ⟨seen, p, ?_, hbegan, hopening.trans hopened, ⟨hnext.trans htimed.nextSyncAt, htimed.opened⟩, hnext ▸ hdue⟩
  rw [polls_concat, hpolled, hpolls, Option.toList_none, List.append_nil]

private theorem cycled_idle (h : ∃ cycles, Cycled P d startedAt events log s cycles) (hsaving : e.saving = none)
    (hresponse : e.response = none) (hposted : out.filterMap Output.posted = [])
    (hinstalled : out.filterMap Output.installed = []) (hpolled : ∀ engine, e.polled engine = none)
    (hkeys : s'.managedKeys = s.managedKeys) (hnext : s'.nextSyncAt = s.nextSyncAt) :
    ∃ cycles, Cycled P d startedAt (events ++ [e]) (log ++ out) s' cycles := by
  obtain ⟨cycles, hcycled⟩ := h
  have hlogged := hcycled.logged.append _ _ hsaving hinstalled
  rw [hposted, hresponse] at hlogged
  have hpolls : polls P (engineAfter P d.config []) (events ++ [e]) = polls P (engineAfter P d.config []) events := by
    rw [polls_concat, hpolled, Option.toList_none, List.append_nil]
  refine ⟨cycles, hlogged, hkeys.trans hcycled.managedKeys, ?_, ?_⟩
  · rw [hpolls, hnext]
    exact hcycled.timed.nextSyncAt
  · rw [hpolls]
    exact hcycled.timed.opened

private theorem Timed.idle {seen : List Poll} {p : Poll} (h : Timed d startedAt s seen cycles)
    (hidle : ¬ (s.nextSyncAt ≤ p.turn.nowSecs ∨ p.turn.discoveryTrigger = true))
    (hnext : s'.nextSyncAt = s.nextSyncAt) : Timed d startedAt s' (seen ++ [p]) cycles := by
  refine ⟨?_, ?_⟩
  · rw [Transducer.after_append, Transducer.after_cons, Transducer.after_nil, ← h.nextSyncAt, takePoll, takeTurn,
      if_neg hidle]
    exact hnext
  · rw [begun_concat, ← h.nextSyncAt, takePoll, takeTurn, if_neg hidle]
    exact h.opened.trans (congrArg _ (List.append_nil _).symm)

private theorem Timed.sync {seen : List Poll} {p : Poll} (h : Timed d startedAt s seen cycles)
    (hdue : s.nextSyncAt ≤ p.turn.nowSecs ∨ p.turn.discoveryTrigger = true) (hopening : opening c = p.opening)
    (hnext : s'.nextSyncAt = p.turn.nowSecs + max d.config.syncIntervalSecs 1) :
    Timed d startedAt s' (seen ++ [p]) (cycles ++ [c]) := by
  refine ⟨?_, ?_⟩
  · rw [Transducer.after_append, Transducer.after_cons, Transducer.after_nil, ← h.nextSyncAt, takePoll, takeTurn,
      if_pos hdue]
    exact hnext
  · rw [begun_concat, ← h.nextSyncAt, takePoll, takeTurn, if_pos hdue, List.map_append, List.map_append, h.opened]
    exact congrArg (fun opened => _ ++ [opened]) hopening

private theorem Follows.resting (remaining : List PeerEndpoint)
    (h : Resting P d startedAt events log s began remaining) (hstage : s.stage = .ask began remaining) :
    Follows P d startedAt events log s := by
  unfold Follows
  cases remaining with
  | nil =>
    rw [hstage]
    exact h
  | cons endpoint endpoints =>
    rw [hstage]
    exact h

private theorem follows_polled {nowSecs : UInt64} {recordOrder : HashMap.Iteration PeerRecord}
    {endpointOrder : HashMap.Iteration PeerEndpoint}
    (hengine : s.discovery = engineAfter P d.config (events.filterMap Event.op))
    (h : Cycled P d startedAt events log s cycles) :
    Follows P d startedAt (events ++ [.noDatagram nowSecs recordOrder endpointOrder]) (log ++ [])
      (s.poll d nowSecs recordOrder endpointOrder) := by
  have hlogged := h.logged.append (.noDatagram nowSecs recordOrder endpointOrder) [] rfl rfl
  have hpolls : polls P (engineAfter P d.config []) (events ++ [.noDatagram nowSecs recordOrder endpointOrder]) =
      polls P (engineAfter P d.config []) events ++
        [⟨⟨nowSecs, s.discovery.takeSyncTrigger.1, nowSecs⟩, s.discovery.takeSyncTrigger.2, recordOrder,
          endpointOrder⟩] := by
    rw [polls_concat, hengine]
    rfl
  by_cases hsync : s.nextSyncAt ≤ nowSecs ∨ s.discovery.takeSyncTrigger.1 = true
  · have hstage : (s.poll d nowSecs recordOrder endpointOrder).stage =
        .ask nowSecs (d.endpointsToAsk s.discovery.takeSyncTrigger.2 recordOrder endpointOrder) := if_pos hsync
    exact Follows.resting _ ⟨cycles, cycleAt s.discovery.takeSyncTrigger.2 recordOrder endpointOrder, [], hlogged,
      rfl, fun endpoint => List.not_mem_nil, h.managedKeys,
      ⟨_, _, hpolls, rfl, rfl, ⟨h.timed.nextSyncAt, h.timed.opened⟩, hsync⟩⟩ hstage
  · have hstage : (s.poll d nowSecs recordOrder endpointOrder).stage = .pausing := if_neg hsync
    unfold Follows
    rw [hstage]
    refine ⟨cycles, hlogged, h.managedKeys, ?_⟩
    rw [hpolls]
    exact h.timed.idle hsync rfl

private theorem askedIn_apart {endpoint other : PeerEndpoint} {endpoints : List PeerEndpoint}
    (hasked : askedIn d c = done ++ endpoint :: endpoints) (h : other ∈ done) :
    other.participantId ≠ endpoint.participantId := by
  have hnodup : ((askedIn d c).map PeerEndpoint.participantId).Nodup :=
    (HashMap.nodup_iterate fun _ _ => participantId_of_lookup).sublist (List.filter_sublist.map _)
  rw [hasked, List.map_append, List.map_cons, List.nodup_append] at hnodup
  exact hnodup.2.2 _ (List.mem_map_of_mem h) _ List.mem_cons_self

private theorem follows_posted {endpoint : PeerEndpoint} {endpoints : List PeerEndpoint} {nowSecs : UInt64}
    {nanos : Nat} (h : Resting P d startedAt events log s began (endpoint :: endpoints)) :
    Follows P d startedAt (events ++ [.post nowSecs nanos])
      (log ++ [.post endpoint (d.keyRequestTo P endpoint nowSecs nanos)])
      { s with stage := .awaiting began endpoint endpoints } := by
  obtain ⟨cycles, c, done, hlogged, hasking⟩ := h
  have hne {other : PeerEndpoint} (hother : other ∈ done) : other ≠ endpoint :=
    fun h => askedIn_apart hasking.asked hother (congrArg PeerEndpoint.participantId h)
  have hrequests : (done ++ [endpoint]).map (requestIn P d (askIn c endpoint nowSecs nanos)) =
      done.map (requestIn P d c) ++ [(endpoint, d.keyRequestTo P endpoint nowSecs nanos)] := by
    rw [List.map_append]
    refine congrArg₂ _ (List.map_congr_left fun other hother => ?_) ?_
    · simp only [requestIn, askIn, Function.update_of_ne (hne hother)]
    · simp only [requestIn, askIn, Function.update_self, List.map_cons, List.map_nil, Daemon.keyRequestTo]
  have hresponses (other : PeerEndpoint) (hother : other ∈ done) :
      responseTo P d.service (askIn c endpoint nowSecs nanos) other = responseTo P d.service c other :=
    responseTo_askIn (hne hother) nowSecs nanos
  refine ⟨cycles, askIn c endpoint nowSecs nanos, done, ?_, hasking.asked, fun other => ?_, ?_,
    hasking.due.mono rfl (fun _ => rfl) rfl⟩
  · rw [hrequests, List.map_congr_left hresponses]
    have hlater := hlogged.append (.post nowSecs nanos) [.post endpoint (d.keyRequestTo P endpoint nowSecs nanos)]
      rfl rfl
    rwa [show (Event.post nowSecs nanos).response.toList = [] from rfl, List.append_nil] at hlater
  · by_cases hother : other = endpoint
    · simp only [askIn, hother, Function.update_self]
      exact (wireSafe_nextNonce nanos).1
    · simp only [askIn, Function.update_of_ne hother]
      exact hasking.nonces other
  · exact hasking.managedKeys.trans (collected_congr hresponses _).symm

private theorem follows_answered {endpoint : PeerEndpoint} {endpoints : List PeerEndpoint} {response : Option Bytes}
    (hlogged : Logged P d events log cycles ((done ++ [endpoint]).map (requestIn P d c))
      (done.map (responseTo P d.service c)))
    (hasking : Asking P d startedAt events s began cycles c done (endpoint :: endpoints)) :
    Follows P d startedAt (events ++ [.answer response]) (log ++ [])
      { s.answered P d endpoint response with stage := .ask began endpoints } := by
  have hresponses (other : PeerEndpoint) (hother : other ∈ done) :
      responseTo P d.service (answerIn P d c endpoint response) other = responseTo P d.service c other :=
    responseTo_answerIn_of_ne (askedIn_apart hasking.asked hother) hasking.nonces response
  have hkept : collected P d (answerIn P d c endpoint response) done (managedKeysAfter P d.toProcess cycles) =
      s.managedKeys := (collected_congr hresponses _).trans hasking.managedKeys.symm
  refine Follows.resting endpoints ⟨cycles, answerIn P d c endpoint response, done ++ [endpoint], ?_, ?_,
    hasking.nonces, ?_, hasking.due.mono rfl (fun _ => rfl) rfl⟩ rfl
  · have hlater := hlogged.append (.answer response) [] rfl rfl
    rw [show [].filterMap Output.posted = [] from rfl, List.append_nil (List.map ..)] at hlater
    rw [List.map_append (f := responseTo P d.service (answerIn P d c endpoint response)),
      List.map_congr_left hresponses, List.map_singleton, responseTo_answerIn]
    exact hlater
  · rw [List.append_assoc]
    exact hasking.asked
  · rw [collected_append, requestPublicKey_eq_readAnswer, responseTo_answerIn, hkept, State.answered]
    cases readAnswer P d.service response <;> rfl

private theorem askedAll_of_resting {keyOrder : HashMap.Iteration Str} {found : Option Bytes} {saved : Bool}
    (h : Resting P d startedAt events log s began []) (hkeys : s'.managedKeys = s.managedKeys)
    (hnext : s'.nextSyncAt = s.nextSyncAt) (hposted : out.filterMap Output.posted = [])
    (hinstalled : out.filterMap Output.installed = Option.toList (if d.config.dryRun then none
      else (d.applyManagedBlock (HashMap.iterate keyOrder s.managedKeys) found saved).toOption)) :
    AskedAll P d startedAt (events ++ [.save keyOrder found saved]) (log ++ out) s' began := by
  obtain ⟨cycles, c, done, hlogged, hasking⟩ := h
  have hasked : askedIn d c = done := hasking.asked.trans (List.append_nil done)
  have hcycle : runSyncCycle P d.toProcess c (managedKeysAfter P d.toProcess cycles) = s.managedKeys := by
    rw [runSyncCycle_eq_collected]
    exact (hasking.managedKeys.trans (congrArg (collected P d c · _) hasked.symm)).symm
  have hsaves : (events ++ [Event.save keyOrder found saved]).filterMap Event.saving =
      events.filterMap Event.saving ++ [⟨keyOrder, found, saved⟩] := by
    rw [List.filterMap_append]
    rfl
  have hlength : cycles.length = (events.filterMap Event.saving).length := by
    have hsame := congrArg List.length hlogged.keyOrders
    rwa [List.length_map, List.length_map] at hsame
  refine ⟨cycles, { c with keyOrder }, ⟨?_, ?_, ?_, ?_⟩, ?_, hasking.due.mono rfl (fun _ => rfl) hnext⟩
  · rw [List.filterMap_append, hlogged.posted, hposted, List.flatMap_append, ← hasked]
    simp only [List.flatMap_cons, List.flatMap_nil, List.append_nil]
    rfl
  · rw [List.filterMap_append, hlogged.answered, List.flatMap_append, ← hasked]
    simp only [List.flatMap_cons, List.flatMap_nil, List.append_nil]
    exact List.append_nil _
  · rw [hsaves, List.map_append, List.map_append, hlogged.keyOrders]
    rfl
  · rw [hsaves, texts_concat hlength, List.filterMap_append, hlogged.installed, hinstalled,
      fst_writeCycle _ ⟨keyOrder, found, saved⟩, hcycle]
  · rw [hkeys, managedKeysAfter, List.foldl_append, ← managedKeysAfter]
    exact hcycle.symm

private theorem follows_announced {nowSecs : UInt64} {nanos : Nat} {envelope : SignedEnvelope}
    (h : AskedAll P d startedAt events log s began) :
    Follows P d startedAt (events ++ [.announce nowSecs nanos]) (log ++ [.broadcast envelope])
      { s with nextSyncAt := began + max d.config.syncIntervalSecs 1, stage := .pausing } := by
  obtain ⟨cycles, c, hlogged, hkeys, seen, p, hpolls, rfl, hopening, htimed, hdue⟩ := h
  have hpolls' : polls P (engineAfter P d.config []) (events ++ [.announce nowSecs nanos]) = seen ++ [p] := by
    rw [polls_concat, hpolls]
    exact List.append_nil _
  refine ⟨cycles ++ [c], hlogged.append _ _ rfl rfl, hkeys, ?_⟩
  rw [hpolls']
  exact htimed.sync hdue hopening rfl

private theorem follows_step (hengine : s.discovery = engineAfter P d.config (events.filterMap Event.op))
    (h : Follows P d startedAt events log s) (hsteps : Steps P d s e out s') :
    Follows P d startedAt (events ++ [e]) (log ++ out) s' := by
  unfold Follows at h
  cases hsteps with
  | start hstage | panicked hstage hreply | served hstage =>
    rw [hstage] at h
    exact cycled_idle h rfl rfl rfl rfl (fun _ => rfl) rfl rfl
  | replied hstage hreply | dropped hstage hreply =>
    rw [hstage] at h
    unfold Follows
    rw [hstage]
    exact cycled_idle h rfl rfl rfl rfl (fun _ => rfl) rfl rfl
  | @received bytes nowSecs hstage =>
    rw [hstage] at h
    unfold Follows
    rw [show (s.received P bytes nowSecs).stage = .receiving from hstage]
    exact cycled_idle h rfl rfl rfl rfl (fun _ => rfl) rfl rfl
  | polled hstage =>
    rw [hstage] at h
    obtain ⟨cycles, hcycled⟩ := h
    exact follows_polled hengine hcycled
  | posted hstage =>
    rw [hstage] at h
    exact follows_posted h
  | answered hstage =>
    rw [hstage] at h
    obtain ⟨cycles, c, done, hlogged, hasking⟩ := h
    exact follows_answered hlogged hasking
  | unwritten hstage hdryRun =>
    rw [hstage] at h
    refine askedAll_of_resting h rfl rfl rfl ?_
    rw [if_pos hdryRun]
    rfl
  | written hstage hdryRun hfile =>
    rw [hstage] at h
    refine askedAll_of_resting h rfl rfl rfl ?_
    rw [if_neg (Bool.eq_false_iff.mp hdryRun), hfile]
    rfl
  | @refused began keyOrder found saved hstage hdryRun hfile =>
    rw [hstage] at h
    refine ⟨began, askedAll_of_resting h rfl rfl rfl ?_⟩
    rw [if_neg (Bool.eq_false_iff.mp hdryRun)]
    cases hresult : d.applyManagedBlock (HashMap.iterate keyOrder s.managedKeys) found saved with
    | ok content => exact absurd hresult (hfile content)
    | error error => rfl
  | announced hstage =>
    rw [hstage] at h
    exact follows_announced h
  | @paused stopRequested hstage =>
    rw [hstage] at h
    cases stopRequested with
    | true => exact cycled_idle h rfl rfl rfl rfl (fun _ => rfl) rfl rfl
    | false => exact cycled_idle h rfl rfl rfl rfl (fun _ => rfl) rfl rfl

/-- In any run the requests, the responses, the written texts and the map are those of a list of cycles, one for
each poll that syncs and in their order, with the endpoints asked so far of the one that goes on. The timer is
that of the polls. -/
theorem daemon_follows_cycles (hrun : runFrom P d startedAt events = some (log, s)) :
    Follows P d startedAt events log s := by
  induction events using List.reverseRecOn generalizing log s with
  | nil =>
    cases hrun
    exact ⟨[], ⟨rfl, rfl, rfl, rfl⟩, rfl, rfl, rfl⟩
  | append_singleton events e ih =>
    obtain ⟨earlier, mid, out, hmid, hsteps, rfl⟩ := runFrom_concat hrun
    exact follows_step (discovery_of_run hmid) (ih hmid) hsteps

private def silentRun : List Event := .announce 1000 1 :: (askingTurn none none ++ [.announce 1000 3])

/-- A turn in which a peer of the bootstrap list is asked and does not answer is a run of one cycle, and
its save leaves the bare block. -/
theorem daemon_follows_cycles_bootstrap : ∃ log s cycles,
    runFrom .standard (daemonA ["node-b@10.0.0.2:2222".toList]) 1000 silentRun = some (log, s) ∧
    log.filterMap Output.installed = ["# ssh-key-sync begin\n# ssh-key-sync end".toList] ∧ cycles.length = 1 ∧
    Cycled .standard (daemonA ["node-b@10.0.0.2:2222".toList]) 1000 silentRun log s cycles := by
  obtain ⟨log, s, hrun, hinstalled, hstage⟩ : ∃ log s,
      runFrom .standard (daemonA ["node-b@10.0.0.2:2222".toList]) 1000 silentRun = some (log, s) ∧
      log.filterMap Output.installed = ["# ssh-key-sync begin\n# ssh-key-sync end".toList] ∧ s.stage = .pausing :=
    ⟨_, _, rfl, rfl, rfl⟩
  have hfollows := daemon_follows_cycles hrun
  unfold Follows at hfollows
  rw [hstage] at hfollows
  obtain ⟨cycles, hcycled⟩ := hfollows
  have hlength := congrArg List.length hcycled.timed.opened
  rw [List.length_map, List.length_map] at hlength
  exact ⟨log, s, cycles, hrun, hinstalled, hlength, hcycled⟩

end
end SshKeySync.Runtime.DaemonProcess
