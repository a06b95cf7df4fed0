import SshKeySync.Auth.Verifier
import SshKeySync.Theory.Transducer

/-! What one message does to another through the replay cache. The cache key joins sender and
nonce by a colon that both may contain, so a message can stand in the way of one that has
another sender and another nonce. -/
namespace SshKeySync.Auth
open RustStd AdmissionLog Transducer

def SameNonce (e e' : SignedEnvelope) : Prop := e.senderId = e'.senderId ∧ e.nonce = e'.nonce

/-- One sender continues the other by a colon and a text, and the other's nonce starts with that
text and a colon. -/
def Confusable (e e' : SignedEnvelope) : Prop :=
  (∃ mid, e'.senderId = e.senderId ++ ':' :: mid ∧ e.nonce = mid ++ ':' :: e'.nonce) ∨
    ∃ mid, e.senderId = e'.senderId ++ ':' :: mid ∧ e'.nonce = mid ++ ':' :: e.nonce

private theorem nonceKey_eq_iff {e e' : SignedEnvelope} : nonceKey e = nonceKey e' ↔
    SameNonce e e' ∨ Confusable e e' :=
  append_separator_eq_iff

private theorem Confusable.not_sameNonce {e e' : SignedEnvelope} (h : Confusable e e') : ¬ SameNonce e e' := by
  rintro ⟨hsender, -⟩
  rcases h with ⟨mid, h, -⟩ | ⟨mid, h, -⟩
  · simp [hsender] at h
  · simp [hsender] at h

namespace EnvelopeVerifier
variable (P : Primitives)

/-- What the cache holds after a call it held before, or it is the key that was accepted. -/
theorem lookup_verify {v : EnvelopeVerifier} {envelope : SignedEnvelope} {nowSecs seenAt : UInt64} {key : Str}
    (h : (v.verify P envelope nowSecs).2.seenNonces.lookup key = some seenAt) :
    v.seenNonces.lookup key = some seenAt ∨ (v.verify P envelope nowSecs).1 = .ok () ∧ key = nonceKey envelope := by
  have hpruned {seenAt : UInt64} (h : (v.pruneNonces nowSecs).seenNonces.lookup key = some seenAt) :
      v.seenNonces.lookup key = some seenAt := by
    rw [pruneNonces, HashMap.lookup_retain] at h
    exact (Option.filter_eq_some_iff.mp h).1
  unfold verify at h ⊢
  split at h
  · exact Or.inl h
  · split at h
    · exact Or.inl h
    · rename_i hwindow
      dsimp only at h ⊢
      rw [if_neg hwindow]
      split at h
      · exact Or.inl (hpruned h)
      · rename_i hfresh
        rw [if_neg hfresh]
        rw [HashMap.lookup_insert] at h
        split at h
        · rename_i hkey
          exact Or.inr ⟨rfl, hkey⟩
        · exact Or.inl (hpruned h)

private theorem ne_replayNonce_of_verifyEnvelope {e : SignedEnvelope} {sidToken expectedSid : Str} :
    verifyEnvelope P e sidToken expectedSid ≠ .error .replayNonce := by
  rw [verifyEnvelope]
  intro h
  split at h
  · cases h
  · cases hsignature : decodeHex e.signatureHex with
    | none =>
      rw [hsignature] at h
      cases h
    | some signature =>
      rw [hsignature, okOr_some, ok_bind] at h
      dsimp only at h
      split at h
      · cases h
      · cases h

private theorem verify_eq_replayNonce_iff {v : EnvelopeVerifier} {envelope : SignedEnvelope} {nowSecs : UInt64} :
    (v.verify P envelope nowSecs).1 = .error .replayNonce ↔
      verifyEnvelope P envelope v.sidToken v.expectedSid = .ok () ∧
      inWindow v.timestampSkewSecs envelope.timestampSecs nowSecs ∧ v.Remembers envelope nowSecs := by
  unfold verify Remembers
  split
  · rename_i err herr
    refine iff_of_false (fun h => ?_) fun h => nomatch herr.symm.trans h.1
    cases h
    exact ne_replayNonce_of_verifyEnvelope P herr
  · rename_i hauth
    split
    · rename_i hwindow
      exact iff_of_false nofun fun h => hwindow h.2.1
    · rename_i hwindow
      dsimp only
      split
      · rename_i hseen
        exact iff_of_true rfl ⟨hauth, not_not.mp hwindow, hseen⟩
      · rename_i habsent
        exact iff_of_false nofun fun h => habsent h.2.2

def receive (v : EnvelopeVerifier) (call : Call) : Except AuthError Unit × EnvelopeVerifier :=
  v.verify P call.1 call.2

/-- Calls change the cache alone. -/
theorem after_receive (v : EnvelopeVerifier) (calls : List Call) :
    after (receive P) v calls = { v with seenNonces := (after (receive P) v calls).seenNonces } := by
  refine invariant_after (fun w : EnvelopeVerifier => w = { v with seenNonces := w.seenNonces })
    (fun w call hw => ?_) rfl calls
  rw [receive, verify_snd, hw]

private theorem mem_of_mem_accepted {v : EnvelopeVerifier} {calls : List Call} {c : Call}
    (h : c ∈ v.accepted P calls) : c ∈ calls := by
  induction calls generalizing v with
  | nil => exact h
  | cons call calls ih =>
    rw [accepted] at h
    split at h
    · rcases List.mem_cons.mp h with rfl | h
      · exact List.mem_cons_self
      · exact List.mem_cons_of_mem _ (ih h)
    · exact List.mem_cons_of_mem _ (ih h)

def admissions (v : EnvelopeVerifier) (calls : List Call) : List (Str × Nat) :=
  ((v.accepted P calls).map fun call => (nonceKey call.1, call.2.toNat)).reverse

private theorem tracks_after {v : EnvelopeVerifier} {log : List (Str × Nat)} {now later : Nat} (ht : v.Tracks log now)
    {calls : List Call} (hc : Chronological calls) (hfrom : ∀ c ∈ calls, now ≤ c.2.toNat)
    (hnow : now ≤ later) (hlater : ∀ c ∈ calls, c.2.toNat ≤ later) :
    (after (receive P) v calls).Tracks (v.admissions P calls ++ log) later := by
  induction calls generalizing v log now with
  | nil => exact ht.mono hnow
  | cons call calls ih =>
    obtain ⟨hrest, hc⟩ := List.pairwise_cons.mp hc
    obtain ⟨hcall, hlater⟩ := List.forall_mem_cons.mp hlater
    obtain ⟨result, v', hv, -, -, -, -, hcase⟩ := verify_cases P ht call.1 (hfrom call List.mem_cons_self)
    have hnext : (receive P v call).2 = v' := congrArg Prod.snd hv
    rw [after_cons, hnext, admissions, accepted, hv]
    rcases hcase with ⟨rfl, -, -, -, ht'⟩ | ⟨⟨err, rfl⟩, -, ht'⟩
    · have htracks := ih ht' hc (fun c hm => UInt64.le_iff_toNat_le.mp (hrest c hm)) hcall hlater
      simpa [admissions] using htracks
    · exact ih ht' hc (fun c hm => UInt64.le_iff_toNat_le.mp (hrest c hm)) hcall hlater

/-- Every verdict of replay answers a repetition: a message of the same sender with the same nonce
was accepted at most the time-to-live before. -/
def Justified (v : EnvelopeVerifier) (calls : List Call) : Prop :=
  ∀ before call later, calls = before ++ call :: later →
    (receive P (after (receive P) v before) call).1 = .error .replayNonce →
    ∃ earlier ∈ v.accepted P before, SameNonce earlier.1 call.1 ∧
      call.2.toNat - earlier.2.toNat ≤ v.nonceTtlSecs.toNat

/-- No authentic message inside its window arrives within the time-to-live of an accepted one that
has another sender and nonce around the same colon. -/
def Unconfused (v : EnvelopeVerifier) (calls : List Call) : Prop :=
  ∀ before call later, calls = before ++ call :: later →
    verifyEnvelope P call.1 v.sidToken v.expectedSid = .ok () →
    inWindow v.timestampSkewSecs call.1.timestampSecs call.2 →
    ∀ earlier ∈ v.accepted P before, call.2.toNat - earlier.2.toNat ≤ v.nonceTtlSecs.toNat →
      ¬ Confusable earlier.1 call.1

section
variable {P} {sidToken expectedSid : Str} {skew ttl : UInt64} {before later : List Call} {call : Call}

private theorem before_call (hc : Chronological (before ++ call :: later)) :
    Chronological before ∧ ∀ c ∈ before, c.2.toNat ≤ call.2.toNat := by
  obtain ⟨hbefore, -, hle⟩ := List.pairwise_append.mp hc
  exact ⟨hbefore, fun c hm => UInt64.le_iff_toNat_le.mp (hle c hm call List.mem_cons_self)⟩

/-- After a run a call is taken for a replay exactly when an accepted one with its key is not yet
expired. -/
theorem replay_iff (hc : Chronological (before ++ call :: later)) :
    (receive P (after (receive P) (new sidToken expectedSid skew ttl) before) call).1 = .error .replayNonce ↔
      verifyEnvelope P call.1 sidToken expectedSid = .ok () ∧ inWindow skew call.1.timestampSecs call.2 ∧
      ∃ earlier ∈ (new sidToken expectedSid skew ttl).accepted P before,
        nonceKey earlier.1 = nonceKey call.1 ∧ call.2.toNat - earlier.2.toNat ≤ ttl.toNat := by
  obtain ⟨hbefore, hle⟩ := before_call hc
  have htracks := tracks_after P (tracks_new sidToken expectedSid skew ttl 0) hbefore (fun _ _ => Nat.zero_le _)
    (Nat.zero_le _) hle
  have hfresh := htracks.not_remembers_iff call.1 (Nat.le_refl _)
  rw [receive, verify_eq_replayNonce_iff, ← not_not (a := Remembers ..), hfresh, after_receive]
  refine and_congr_right fun _ => and_congr_right fun _ => ?_
  rw [not_fresh_iff, List.append_nil]
  constructor
  · rintro ⟨t, hm, hclose⟩
    obtain ⟨earlier, hearlier, heq⟩ := List.mem_map.mp (List.mem_reverse.mp hm)
    obtain ⟨hkey, rfl⟩ := Prod.mk.inj heq
    exact ⟨earlier, hearlier, hkey, hclose⟩
  · rintro ⟨earlier, hearlier, hkey, hclose⟩
    refine ⟨earlier.2.toNat, List.mem_reverse.mpr (List.mem_map.mpr ⟨earlier, hearlier, ?_⟩), hclose⟩
    rw [hkey]

/-- Of one key at most one acceptance is not yet expired. -/
theorem live_unique (hc : Chronological (before ++ call :: later)) {a b : Call}
    (ha : a ∈ (new sidToken expectedSid skew ttl).accepted P before)
    (hb : b ∈ (new sidToken expectedSid skew ttl).accepted P before)
    (hkey : nonceKey a.1 = nonceKey b.1) (hlivea : call.2.toNat - a.2.toNat ≤ ttl.toNat)
    (hliveb : call.2.toNat - b.2.toNat ≤ ttl.toNat) : a = b := by
  obtain ⟨hbefore, hle⟩ := before_call hc
  have hpair := (accepted_spec P (tracks_new sidToken expectedSid skew ttl 0) hbefore fun _ _ => Nat.zero_le _).2
  let Apart (a b : Call) : Prop :=
    nonceKey a.1 = nonceKey b.1 → a.2.toNat + ttl.toNat < b.2.toNat ∨ b.2.toNat + ttl.toNat < a.2.toNat
  have : Std.Symm Apart := ⟨fun a b h hkey => (h hkey.symm).symm⟩
  have happart : ((new sidToken expectedSid skew ttl).accepted P before).Pairwise Apart :=
    hpair.imp fun h hkey => Or.inl (h hkey)
  by_contra hne
  have hlea := hle a (mem_of_mem_accepted P ha)
  have hleb := hle b (mem_of_mem_accepted P hb)
  have := happart.forall ha hb hne hkey
  omega

end

/-- Fresh messages are told from replays exactly while no message confusable with a live one arrives. -/
theorem justified_iff (sidToken expectedSid : Str) (skew ttl : UInt64) (calls : List Call)
    (hc : Chronological calls) : (new sidToken expectedSid skew ttl).Justified P calls ↔
      (new sidToken expectedSid skew ttl).Unconfused P calls := by
  constructor
  · rintro hjust before call later rfl hauth hwindow earlier hearlier hclose hconfusable
    have hkey := nonceKey_eq_iff.mpr (Or.inr hconfusable)
    obtain ⟨same, hsame, hpair, hlive⟩ := hjust before call later rfl
      ((replay_iff hc).mpr ⟨hauth, hwindow, earlier, hearlier, hkey, hclose⟩)
    have hsameKey := nonceKey_eq_iff.mpr (Or.inl hpair)
    obtain rfl := live_unique hc hearlier hsame (hkey.trans hsameKey.symm) hclose hlive
    exact hconfusable.not_sameNonce hpair
  · rintro hunconfused before call later rfl hreplay
    obtain ⟨hauth, hwindow, earlier, hearlier, hkey, hclose⟩ := (replay_iff hc).mp hreplay
    refine ⟨earlier, hearlier, (nonceKey_eq_iff.mp hkey).resolve_right fun hconfusable => ?_, hclose⟩
    exact hunconfused before call later rfl hauth hwindow earlier hearlier hclose hconfusable

/-- A message and its replay a minute later. -/
theorem justified_replay :
    let e := signEnvelope .standard "group-a".toList "secret-token".toList "10.0.0.2:9922".toList 1000
      "n-1".toList .udpAnnouncement []
    (new "secret-token".toList "group-a".toList 60 120).Justified .standard [(e, 1000), (e, 1060)] := by
  intro e
  refine (justified_iff .standard _ _ 60 120 _ (by simp [Chronological])).mpr ?_
  intro before call later hcalls _ _ earlier hearlier _ hconfusable
  have hone : ∀ c ∈ before ++ call :: later, c.1 = e := by simp [← hcalls]
  have hfirst := hone earlier (List.mem_append_left _ (mem_of_mem_accepted _ hearlier))
  have hsecond := hone call (by simp)
  exact hconfusable.not_sameNonce (by rw [hfirst, hsecond]; exact ⟨rfl, rfl⟩)

private theorem accepted_singleton {v : EnvelopeVerifier} {envelope : SignedEnvelope} {nowSecs : UInt64}
    (hauth : verifyEnvelope P envelope v.sidToken v.expectedSid = .ok ())
    (hwindow : inWindow v.timestampSkewSecs envelope.timestampSecs nowSecs)
    (hfresh : ¬ v.Remembers envelope nowSecs) : v.accepted P [(envelope, nowSecs)] = [(envelope, nowSecs)] := by
  rw [accepted, verify_of_authentic P hauth hwindow, if_neg hfresh]
  rfl

/-- A host that names its port is refused, although that sender was never heard before. -/
theorem host_and_port_mistaken :
    let first := signEnvelope .standard "group-a".toList "secret-token".toList "10.0.0.2".toList 1000
      "9922:n-1".toList .udpAnnouncement []
    let second := signEnvelope .standard "group-a".toList "secret-token".toList "10.0.0.2:9922".toList 1000
      "n-1".toList .udpAnnouncement []
    ¬ (new "secret-token".toList "group-a".toList 60 120).Justified .standard [(first, 1000), (second, 1000)] := by
  intro first second hjust
  have haccepted : (new "secret-token".toList "group-a".toList 60 120).accepted .standard [(first, 1000)] =
      [(first, 1000)] :=
    accepted_singleton .standard (verifyEnvelope_signEnvelope ..) (by decide) (by decide)
  have hchronological : Chronological ([(first, 1000)] ++ (second, 1000) :: []) := by simp [Chronological]
  have hconfusable : Confusable first second := Or.inl ⟨"9922".toList, by decide, by decide⟩
  obtain ⟨earlier, hearlier, hsame, -⟩ := hjust [(first, 1000)] (second, 1000) [] rfl
    ((replay_iff hchronological).mpr ⟨verifyEnvelope_signEnvelope .., by decide, (first, 1000),
      by rw [haccepted]; exact List.mem_cons_self, nonceKey_eq_iff.mpr (Or.inr hconfusable), by decide⟩)
  rw [haccepted, List.mem_singleton] at hearlier
  obtain rfl := hearlier
  exact absurd hsame.1 (by decide)

end EnvelopeVerifier
end SshKeySync.Auth
