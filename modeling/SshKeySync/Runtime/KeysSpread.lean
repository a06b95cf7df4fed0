import SshKeySync.Auth.NonceKeys
import SshKeySync.Runtime.KeysGranted

/-! From an announcement to a granted key. A member that was announced once, in time, is known from
then on: whatever was delivered before, no nonce of a member stays in the replay cache unless
the member is known. -/
namespace SshKeySync.Runtime.DaemonProcess
open RustStd Auth Transport Discovery Config AuthorizedKeys Keys Parties

def Knows (engine : DiscoveryEngine) (member : Daemon) : Prop :=
  engine.peers.lookup member.config.participantId = some member.record

/-- A nonce of the member is remembered only if the member is known. -/
def Learnt (engine : DiscoveryEngine) (member : Daemon) : Prop := ∀ nanos seenAt,
  engine.verifier.seenNonces.lookup (member.config.participantId ++ ':' :: nextNonce nanos) = some seenAt →
    Knows engine member

section
variable {ι : Type} (d : ι → Daemon)

/-- All members of a group can be discovered, and no other has this one's name. -/
structure Distinct (i j : ι) : Prop where
  sid : Records.WireSafe (d i).config.sid ∧ (d i).config.sid ≠ []
  discoverable : ∀ k, SameGroup d i k → Discoverable (d k).config
  own : ∀ k, SameGroup d i k → (d k).config.participantId = (d j).config.participantId → k = j

end

private theorem participantId_of_key {p q : Str} {nanos nanos' : Nat}
    (h : p ++ ':' :: nextNonce nanos = q ++ ':' :: nextNonce nanos') : p = q := by
  have hcolon (n : Nat) : ':' ∉ nextNonce n := by
    intro hmem
    rcases List.mem_cons.mp hmem with hc | hmem
    · cases hc
    · rcases List.mem_cons.mp hmem with hc | hmem
      · cases hc
      · exact absurd (isDigit_of_mem_decimal hmem) (by decide)
  rcases append_separator_eq_iff.mp h with ⟨hp, -⟩ | ⟨mid, -, hnonce⟩ | ⟨mid, -, hnonce⟩
  · exact hp
  · exact absurd (hnonce ▸ List.mem_append_right mid List.mem_cons_self) (hcolon nanos)
  · exact absurd (hnonce ▸ List.mem_append_right mid List.mem_cons_self) (hcolon nanos')

private theorem lookup_processAnnouncement {P : Primitives} {engine : DiscoveryEngine} {envelope : SignedEnvelope}
    {nowSecs seenAt : UInt64} {key : Str}
    (h : (engine.processAnnouncement P envelope nowSecs).2.verifier.seenNonces.lookup key = some seenAt) :
    engine.verifier.seenNonces.lookup key = some seenAt ∨
      engine.Admits P envelope nowSecs ∧ key = nonceKey envelope := by
  by_cases hadmits : engine.Admits P envelope nowSecs
  · rcases (DiscoveryEngine.processAnnouncement_group (P := P) engine envelope nowSecs).2 with hv | hv
    · rw [hv] at h
      exact Or.inl h
    · rw [hv] at h
      exact (EnvelopeVerifier.lookup_verify P h).imp_right fun hkey => ⟨hadmits, hkey.2⟩
  · obtain ⟨v, hv, heq⟩ := DiscoveryEngine.processAnnouncement_of_not_admits hadmits
    rw [heq] at h
    rcases hv with rfl | ⟨hrefused, rfl⟩
    · exact Or.inl h
    · exact Or.inl ((EnvelopeVerifier.lookup_verify P h).resolve_right fun hkey => hrefused hkey.1)

private theorem discovery_of_steps {P : Primitives} {d : Daemon} {s s' : State} {e : Event} {out : List Output}
    (h : Steps P d s e out s') :
    (s'.discovery.peers = s.discovery.peers ∧ s'.discovery.verifier = s.discovery.verifier) ∨
      ∃ bytes nowSecs, e = .datagram bytes nowSecs ∧ s' = s.received P bytes nowSecs := by
  cases h with
  | received hstage => exact Or.inr ⟨_, _, rfl, rfl⟩
  | _ => exact Or.inl ⟨rfl, rfl⟩

section
variable {ι : Type} {P : Primitives} {d : ι → Daemon} {sent : List (ι × Output)} {i j k : ι} {s : State}
  {bytes : Bytes} {nowSecs : UInt64}

private theorem heard_of_admitted {engine : DiscoveryEngine} {envelope : SignedEnvelope}
    (hdistinct : Distinct d i j) (hgroup : SameGroup d i k)
    (hmember : engine.Member (d i).config.sid (d i).config.sidToken timestampSkewSecs)
    (hadmits : engine.Admits P envelope nowSecs) (hbody : envelope.body = announcementBody (d k).config.sid
      (d k).config.participantId (d k).advertised (d k).httpPort (d k).service.publicKey) :
    engine.heard P envelope nowSecs = some (d k).record := by
  have hplain := hdistinct.discoverable k hgroup
  have hannounceable : Announceable (d k).config.sid (d k).config.participantId (d k).advertised :=
    ⟨hgroup.1 ▸ hdistinct.sid, hplain.participantId, hplain.address⟩
  have hparticipant : trim (d k).config.participantId ≠ [] := by
    rw [trim_eq_self hplain.participantId.1.2]
    exact hplain.participantId.2
  rw [DiscoveryEngine.heard, if_pos hadmits, hbody, readAnnouncement,
    parseAnnouncementPayload_announcementBody hannounceable _ (d k).service.normalized]
  dsimp only
  rw [if_neg (not_not.mpr (hgroup.1.trans hmember.sid_eq.symm)), if_neg hparticipant]
  rfl

private theorem knows_received (hsent : ∀ m ∈ sent, Proper P d m.1 m.2)
    (hexplained : Unforged P d sent i (.datagram bytes nowSecs)) (howned : Owned d i s)
    (hdistinct : Distinct d i j) (h : Knows s.discovery (d j)) :
    Knows (s.received P bytes nowSecs).discovery (d j) := by
  unfold Knows at h ⊢
  rw [State.received, handleUdpAnnouncement]
  cases hread : receivedEnvelope bytes with
  | none => exact h
  | some envelope =>
    dsimp only
    cases hheard : s.discovery.heard P envelope nowSecs with
    | none =>
      rw [(DiscoveryEngine.processAnnouncement_of_not_heard hheard).2.1]
      exact h
    | some r =>
      obtain ⟨k, hgroup, -, hrecord⟩ := heard_origin hsent hexplained hread howned.member hheard
      obtain rfl := hrecord (hdistinct.discoverable k hgroup)
      rcases DiscoveryEngine.processAnnouncement_of_heard hheard with ⟨-, -, hpeers, -⟩ | ⟨-, -, hpeers, -⟩
      · rw [hpeers]
        exact h
      · rw [hpeers, HashMap.lookup_insert]
        split
        · rename_i hp
          obtain rfl := hdistinct.own k hgroup hp.symm
          rfl
        · exact h

private theorem learnt_received (hsent : ∀ m ∈ sent, Proper P d m.1 m.2)
    (hexplained : Unforged P d sent i (.datagram bytes nowSecs)) (howned : Owned d i s)
    (hdistinct : Distinct d i j) (h : Learnt s.discovery (d j)) :
    Learnt (s.received P bytes nowSecs).discovery (d j) := by
  intro nanos seenAt hseen
  have hkept (hold : Knows s.discovery (d j)) : Knows (s.received P bytes nowSecs).discovery (d j) :=
    knows_received hsent hexplained howned hdistinct hold
  unfold Knows at hkept ⊢
  rw [State.received, handleUdpAnnouncement] at hseen hkept ⊢
  cases hread : receivedEnvelope bytes with
  | none =>
    rw [hread] at hseen
    exact h nanos seenAt hseen
  | some envelope =>
    rw [hread] at hseen hkept
    rcases lookup_processAnnouncement hseen with hold | ⟨hadmits, hkey⟩
    · exact hkept (h nanos seenAt hold)
    · obtain ⟨k, nanos', hgroup, hsender, hnonce, hbody⟩ :=
        admitted_origin hsent hexplained hread howned.member hadmits
      rw [nonceKey, hsender, hnonce] at hkey
      obtain rfl := hdistinct.own k hgroup (participantId_of_key hkey).symm
      exact (lookup_of_heard (heard_of_admitted hdistinct hgroup howned.member hadmits hbody)).2

variable [DecidableEq ι] {w w' : World ι State Output}

private theorem learnt_act {e : ι × Event} (hsound : w.Sound (Owned d) (Proper P d))
    (hexplained : Unforged P d w.sent e.1 e.2) (hdistinct : Distinct d i j)
    (hact : act (fun i => step P (d i)) w e = some w') :
    (Knows (w.state i).discovery (d j) → Knows (w'.state i).discovery (d j)) ∧
      (Learnt (w.state i).discovery (d j) → Learnt (w'.state i).discovery (d j)) := by
  obtain ⟨k, e⟩ := e
  obtain ⟨⟨out, s'⟩, hstep, rfl⟩ := Option.map_eq_some_iff.mp hact
  by_cases hk : i = k
  · subst hk
    rw [World.set_state_self]
    rcases discovery_of_steps (steps_of_step hstep) with ⟨hpeers, hverifier⟩ | ⟨bytes, nowSecs, rfl, rfl⟩
    · unfold Learnt Knows
      rw [show (out, s').2.discovery.peers = _ from hpeers, show (out, s').2.discovery.verifier = _ from hverifier]
      exact ⟨id, id⟩
    · exact ⟨knows_received hsound.sent hexplained (hsound.state i) hdistinct,
        learnt_received hsound.sent hexplained (hsound.state i) hdistinct⟩
  · rw [World.set_state_of_ne hk]
    exact ⟨id, id⟩

private theorem kept_run (kept : DiscoveryEngine → Prop) {events : List (ι × Event)}
    {guard : World ι State Output → ι × Event → Prop}
    (hact : ∀ w w' e, w.Sound (Owned d) (Proper P d) → guard w e → act (fun i => step P (d i)) w e = some w' →
      kept (w.state i).discovery → kept (w'.state i).discovery)
    (hunforged : ∀ w e, guard w e → Unforged P d w.sent e.1 e.2) (hsound : w.Sound (Owned d) (Proper P d))
    (h : kept (w.state i).discovery) (hguard : Runs.Guarded (act fun i => step P (d i)) guard w events)
    (hrun : Runs.run (act fun i => step P (d i)) w events = some w') :
    w'.Sound (Owned d) (Proper P d) ∧ kept (w'.state i).discovery := by
  refine @Runs.invariant_run _ _ (act fun i => step P (d i)) guard
    (fun w => w.Sound (Owned d) (Proper P d) ∧ kept (w.state i).discovery) w w' events ?_ ⟨hsound, h⟩ hguard hrun
  intro w e w' hw hguard hstep
  exact ⟨sound_act hw.1 (hunforged w e hguard) hstep, hact w w' e hw.1 hguard hstep hw.2⟩

private theorem learnt_start (startedAt : UInt64) (member : Daemon) (d : Daemon) :
    Learnt (d.start startedAt).discovery member := by
  intro nanos seenAt hseen
  rw [Daemon.start, (DiscoveryEngine.addBootstrapPeers_group _ _).2] at hseen
  cases hseen

private theorem knows_of_announced {envelope : SignedEnvelope} (hsound : w.Sound (Owned d) (Proper P d))
    (hlearnt : Learnt (w.state i).discovery (d j)) (hdistinct : Distinct d i j) (hgroup : SameGroup d i j)
    (hsent : (j, Output.broadcast envelope) ∈ w.sent)
    (hwindow : EnvelopeVerifier.inWindow timestampSkewSecs envelope.timestampSecs nowSecs)
    (hfits : (announcementDatagram envelope).length ≤ udpBufferSize)
    (hexplained : Unforged P d w.sent i (.datagram (announcementDatagram envelope) nowSecs))
    (hact : act (fun i => step P (d i)) w (i, .datagram (announcementDatagram envelope) nowSecs) = some w') :
    Knows (w'.state i).discovery (d j) := by
  have hproper := hsound.sent _ hsent
  have hcontext := hproper.announces envelope rfl
  have hsame : SameContext envelope.context .udpAnnouncement := by
    rw [hcontext]
    trivial
  obtain ⟨sentSecs, nanos, hannounced⟩ := (hproper.signed envelope rfl).announced hsame
  by_cases hremembers : (w.state i).discovery.verifier.Remembers envelope nowSecs
  · obtain ⟨seenAt, hseen, -⟩ := EnvelopeVerifier.remembers_iff.mp hremembers
    rw [hannounced] at hseen
    exact (learnt_act hsound hexplained hdistinct hact).1 (hlearnt nanos seenAt hseen)
  · have hmember := (hsound.state i).member
    have hplain := hdistinct.discoverable j hgroup
    have hread : receivedEnvelope (announcementDatagram envelope) = some envelope := by
      refine receivedEnvelope_announcementDatagram ?_ hfits
      rw [hannounced]
      exact wireEnvelope_signEnvelope P _ _ _ (hgroup.1 ▸ hdistinct.sid.1) hplain.participantId.1
        (wireSafe_nextNonce nanos) trivial
    have hauth : verifyEnvelope P envelope (w.state i).discovery.verifier.sidToken
        (w.state i).discovery.verifier.expectedSid = .ok () := by
      rw [hmember.token_eq, hmember.expectedSid_eq, ← hgroup.1, ← hgroup.2, hannounced]
      exact verifyEnvelope_signEnvelope ..
    have hadmits : (w.state i).discovery.Admits P envelope nowSecs := by
      refine ⟨hcontext, ?_⟩
      rw [EnvelopeVerifier.verify_of_authentic P hauth (hmember.skew_eq ▸ hwindow), if_neg hremembers]
    have hheard := heard_of_admitted hdistinct hgroup hmember hadmits (hannounced ▸ rfl)
    obtain ⟨⟨out, s'⟩, hstep, rfl⟩ := Option.map_eq_some_iff.mp hact
    rw [World.set_state_self]
    cases steps_of_step hstep with
    | received hstage =>
      rw [Knows, State.received, handleUdpAnnouncement, hread]
      exact (lookup_of_heard hheard).2

/-- Once a daemon has received an announcement of a member in its window, be it for the first time or
again, then at the end of every later turn it has granted access to the member that answers. -/
theorem announced_members_granted {startedAt : ι → UInt64} {earlier later : List (ι × Event)}
    {envelope : SignedEnvelope}
    (hguard : Runs.Guarded (act fun i => step P (d i))
      (fun w e => Unforged P d w.sent e.1 e.2 ∧ Answering P d i j (recordEndpoint (d j).record) w e)
      (groupStart d startedAt)
      (earlier ++ (i, .datagram (announcementDatagram envelope) nowSecs) :: later))
    (hearlier : Runs.run (act fun i => step P (d i)) (groupStart d startedAt) earlier = some w)
    (hsent : (j, Output.broadcast envelope) ∈ w.sent)
    (hwindow : EnvelopeVerifier.inWindow timestampSkewSecs envelope.timestampSecs nowSecs)
    (hfits : (announcementDatagram envelope).length ≤ udpBufferSize)
    (hrun : Runs.run (act fun i => step P (d i)) (groupStart d startedAt)
      (earlier ++ (i, .datagram (announcementDatagram envelope) nowSecs) :: later) = some w')
    (hturn : (w'.state i).stage = .pausing) (hdryRun : (d i).config.dryRun = false) (hne : i ≠ j)
    (hgroup : SameGroup d i j) (hdistinct : Distinct d i j) :
    ∃ content, lastInstalled (w'.sentBy i) = some content ∧ (d j).service.publicKey ∈ lines content ∧
      BlockOwned d i content := by
  have hself : (d j).config.participantId ≠ (d i).config.participantId :=
    fun h => hne (hdistinct.own i ⟨rfl, rfl⟩ h.symm)
  have hplain := hdistinct.discoverable j hgroup
  have hserved := guarded_of_party
    (fun w e h => served_of_answering hgroup (hgroup.1 ▸ hdistinct.sid.1) hplain.participantId.1 h.2) hguard hrun
  obtain ⟨hbefore, hafter⟩ := Runs.guarded_append.mp hguard
  obtain ⟨hnow, hlater⟩ := hafter w hearlier
  obtain ⟨hsound, hlearnt⟩ := kept_run (Learnt · (d j))
    (fun _ _ _ hw hg hact => (learnt_act hw hg.1 hdistinct hact).2) (fun _ _ hg => hg.1)
    (sound_groupStart startedAt) (learnt_start (startedAt i) (d j) (d i)) hbefore hearlier
  have hrest := hrun
  rw [Runs.run_append, hearlier, Option.bind_some, Runs.run_cons, Option.bind_eq_some_iff] at hrest
  obtain ⟨next, hnext, hrest⟩ := hrest
  have hknown := knows_of_announced hsound hlearnt hdistinct hgroup hsent hwindow hfits hnow.1 hnext
  obtain ⟨hsound', hknown'⟩ := kept_run (Knows · (d j))
    (fun _ _ _ hw hg hact => (learnt_act hw hg.1 hdistinct hact).1) (fun _ _ hg => hg.1)
    (sound_act hsound hnow.1 hnext) hknown (hlater next hnext) hrest
  exact granted_of_located hserved hsound' hrun hturn hdryRun hknown' hself ⟨rfl, rfl⟩

end

private def announcing : List (Bool × Event) :=
  [(true, .announce 1000 1), (false, .announce 1000 2), (false, .noConnection)]

private def asking : List (Bool × Event) :=
  [(false, .noDatagram 1000 (.identity _) (.identity _)), (false, .post 1000 3)]

private theorem heard_announcedB :
    ((daemonA []).start 1000).discovery.heard .standard announcedB 1000 = some daemonB.record := by
  refine DiscoveryEngine.heard_signEnvelope (DiscoveryEngine.member_new _ _ timestampSkewSecs _)
    ⟨by decide, by decide, by decide⟩ daemonB.service.normalized (by decide) ?_
  exact (show ¬ ((daemonA []).start 1000).discovery.verifier.Remembers announcedB 1000 by decide)

private theorem stage_poll {s : State} (hpeers : s.discovery.peers = AList.insert "node-b".toList daemonB.record ∅)
    (hdue : s.nextSyncAt ≤ 1000) :
    (s.poll (daemonA []) 1000 (.identity _) (.identity _)).stage = .asking 1000 endpointB [] := by
  have hasked : (daemonA []).endpointsToAsk s.discovery.takeSyncTrigger.2 (.identity _) (.identity _) =
      [endpointB] := by
    rw [Daemon.endpointsToAsk, show s.discovery.takeSyncTrigger.2.peers = s.discovery.peers from rfl, hpeers]
    rfl
  rw [State.poll]
  dsimp only
  rw [if_pos (Or.inl hdue), hasked]
  rfl

private theorem run_asking {w : World Bool State Output} (hreceiving : (w.state false).stage = .receiving)
    (hpeers : (w.state false).discovery.peers = AList.insert "node-b".toList daemonB.record ∅)
    (hdue : (w.state false).nextSyncAt ≤ 1000) :
    ∃ w', Runs.run (act fun i => step .standard (pair [] i)) w asking = some w' ∧
      (false, Output.post endpointB requestToB) ∈ w'.sent ∧ w'.state true = w.state true ∧
      (w'.state false).stage = .awaiting 1000 endpointB [] := by
  have hpoll : act (fun i => step .standard (pair [] i)) w (false, .noDatagram 1000 (.identity _) (.identity _)) =
    some (w.set false ([], (w.state false).poll (daemonA []) 1000 (.identity _) (.identity _))) :=
    act_of_steps (.polled hreceiving)
  have hstage : ((w.set false ([], (w.state false).poll (daemonA []) 1000 (.identity _) (.identity _))).state
      false).stage = .asking 1000 endpointB [] := by
    rw [World.set_state_self]
    exact stage_poll hpeers hdue
  rw [asking, Runs.run_cons, hpoll, Option.bind_some, Runs.run_cons, act_of_steps (.posted hstage)]
  exact ⟨_, rfl, List.mem_append_right _ (List.mem_singleton_self _), rfl, rfl⟩

private theorem received_other (P : Primitives) (s : State) (bytes : Bytes) (nowSecs : UInt64) :
    (s.received P bytes nowSecs).stage = s.stage ∧ (s.received P bytes nowSecs).nextSyncAt = s.nextSyncAt :=
  ⟨rfl, rfl⟩

private theorem run_hearing {w : World Bool State Output} (hreceiving : (w.state false).stage = .receiving)
    (hdiscovery : (w.state false).discovery = ((daemonA []).start 1000).discovery) :
    ∃ w', act (fun i => step .standard (pair [] i)) w (false, .datagram (announcementDatagram announcedB) 1000) =
        some w' ∧ (w'.state false).stage = .receiving ∧ (w'.state false).nextSyncAt = (w.state false).nextSyncAt ∧
      (w'.state false).discovery.peers = AList.insert "node-b".toList daemonB.record ∅ ∧
      w'.state true = w.state true := by
  have hact : act (fun i => step .standard (pair [] i)) w (false, .datagram (announcementDatagram announcedB) 1000) =
    some (w.set false ([], (w.state false).received .standard (announcementDatagram announcedB) 1000)) :=
    act_of_steps (.received hreceiving)
  obtain ⟨hstage, hnext⟩ := received_other .standard (w.state false) (announcementDatagram announcedB) 1000
  refine ⟨_, hact, ?_, ?_, ?_, World.set_state_of_ne (Bool.false_ne_true ∘ Eq.symm)⟩
  · rw [World.set_state_self]
    exact hstage.trans hreceiving
  · rw [World.set_state_self]
    exact hnext
  · rw [World.set_state_self, State.received, handleUdpAnnouncement, receivedEnvelope_announcedB]
    dsimp only
    rw [hdiscovery]
    rcases DiscoveryEngine.processAnnouncement_of_heard heard_announcedB with ⟨hknown, -⟩ | ⟨-, -, hpeers, -⟩
    · cases hknown
    · exact hpeers

private theorem run_announcing : ∃ w,
    Runs.run (act fun i => step .standard (pair [] i)) (groupStart (pair []) fun _ => 1000) announcing = some w ∧
    (true, Output.broadcast announcedB) ∈ w.sent ∧ (w.state true).stage = .serving ∧
    (w.state false).stage = .receiving ∧ (w.state false).discovery = ((daemonA []).start 1000).discovery ∧
    (w.state false).nextSyncAt = 1000 := by
  rw [announcing, Runs.run_cons, act_of_steps (.start rfl), Option.bind_some, Runs.run_cons,
    act_of_steps (.start rfl), Option.bind_some, Runs.run_cons, act_of_steps (.served rfl)]
  refine ⟨_, rfl, ?_, rfl, rfl, rfl, rfl⟩
  exact List.mem_append_left _ (List.mem_append_left _ (List.mem_append_right _ (List.mem_singleton_self _)))

/-- A member that was in no bootstrap list has announced itself, and is granted access. -/
theorem announced_members_granted_pair : ∃ w content, Runs.run (act fun i => step .standard (pair [] i))
      (groupStart (pair []) fun _ => 1000)
      (announcing ++ (false, .datagram (announcementDatagram announcedB) 1000) :: (asking ++ exchangeB)) = some w ∧
    lastInstalled (w.sentBy false) = some content ∧ nodeB.publicKey ∈ lines content ∧
    BlockOwned (pair []) false content := by
  obtain ⟨w, hrun, hsent, hserving, hreceiving, hdiscovery, hdue⟩ := run_announcing
  obtain ⟨w₁, hheard, hreceiving₁, hnext, hpeers, hsame₁⟩ := run_hearing hreceiving hdiscovery
  obtain ⟨w₂, hasked, hposted, hsame₂, hawaiting⟩ := run_asking hreceiving₁ hpeers (by rw [hnext, hdue]; decide)
  have hrun₂ : Runs.run (act fun i => step .standard (pair [] i)) (groupStart (pair []) fun _ => 1000)
      (announcing ++ (false, .datagram (announcementDatagram announcedB) 1000) :: asking) = some w₂ := by
    rw [Runs.run_append, hrun, Option.bind_some, Runs.run_cons, hheard, Option.bind_some, hasked]
  obtain ⟨w₃, hexchange, hturn, -⟩ := run_exchangeB hrun₂ (by rw [hsame₂, hsame₁, hserving]) hawaiting
  have hrun₃ : Runs.run (act fun i => step .standard (pair [] i)) (groupStart (pair []) fun _ => 1000)
      (announcing ++ (false, .datagram (announcementDatagram announcedB) 1000) :: (asking ++ exchangeB)) =
        some w₃ := by
    rw [← List.cons_append, ← List.append_assoc, Runs.run_append, hrun₂, Option.bind_some, hexchange]
  have hguard : Runs.Guarded (act fun i => step .standard (pair [] i)) (PairGuard [])
      (groupStart (pair []) fun _ => 1000)
      (announcing ++ (false, .datagram (announcementDatagram announcedB) 1000) :: (asking ++ exchangeB)) := by
    refine Runs.guarded_append.mpr ⟨guarded_of_quiet ?_ _, fun v hv => ?_⟩
    · simp only [announcing, List.forall_mem_cons]
      refine ⟨⟨rfl, ?_⟩, ⟨rfl, ?_⟩, ⟨rfl, ?_⟩, List.forall_mem_nil _⟩ <;> exact fun _ h => by cases h
    · obtain rfl := Option.some.inj (hrun.symm.trans hv)
      have htoken := (sameGroup_pair [] false true).2
      have hunforged := unforged_of_sent (P := .standard) (d := pair []) (i := false)
        (e := .datagram (announcementDatagram announcedB) 1000) receivedEnvelope_announcedB hsent rfl htoken
      refine Runs.guarded_cons hheard ⟨hunforged, fun _ _ _ h => by cases h⟩ ?_
      refine Runs.guarded_append.mpr ⟨guarded_of_quiet ?_ _, fun v hv => ?_⟩
      · simp only [asking, List.forall_mem_cons]
        refine ⟨⟨rfl, ?_⟩, ⟨rfl, ?_⟩, List.forall_mem_nil _⟩ <;> exact nofun
      · obtain rfl := Option.some.inj (hasked.symm.trans hv)
        exact guarded_exchangeB hposted
  have hdistinct : Distinct (pair []) false true := by
    refine ⟨by decide, fun k _ => ?_, fun k _ hname => ?_⟩
    · cases k <;> decide
    · cases k
      · exact absurd hname (by decide)
      · rfl
  obtain ⟨content, hlast, hmem, hblock⟩ := announced_members_granted (j := true) hguard hrun hsent (by decide)
    announcedB_fits hrun₃ hturn rfl Bool.false_ne_true (sameGroup_pair [] false true) hdistinct
  exact ⟨w₃, content, hrun₃, hlast, hmem, hblock⟩

end SshKeySync.Runtime.DaemonProcess
