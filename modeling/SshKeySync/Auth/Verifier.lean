import SshKeySync.Auth.Envelope
import SshKeySync.Std.HashMap
import SshKeySync.Theory.AdmissionLog

/-! The replay cache of `EnvelopeVerifier`. Over a run it decides as the unpruned log
of all accepted nonce keys, whatever was rejected in between. -/
namespace SshKeySync.Auth
open RustStd AdmissionLog

structure EnvelopeVerifier where
  sidToken : Str
  expectedSid : Str
  timestampSkewSecs : UInt64
  nonceTtlSecs : UInt64
  seenNonces : HashMap Str UInt64

def timestampSkewSecs : UInt64 := 60
def nonceTtlSecs : UInt64 := 120

/-- The cache key is the plain concatenation around a colon. -/
def nonceKey (envelope : SignedEnvelope) : Str := envelope.senderId ++ ':' :: envelope.nonce

namespace EnvelopeVerifier

def new (sidToken expectedSid : Str) (timestampSkewSecs nonceTtlSecs : UInt64) :
    EnvelopeVerifier :=
  ⟨sidToken, expectedSid, timestampSkewSecs, nonceTtlSecs, ∅⟩

def pruneNonces (v : EnvelopeVerifier) (nowSecs : UInt64) : EnvelopeVerifier :=
  { v with seenNonces := v.seenNonces.retain fun _ seenAt =>
      saturatingSub nowSecs seenAt ≤ v.nonceTtlSecs }

/-- The clamped window around the receive time. -/
def inWindow (timestampSkewSecs timestampSecs nowSecs : UInt64) : Prop :=
  saturatingSub nowSecs timestampSkewSecs ≤ timestampSecs ∧
    timestampSecs ≤ saturatingAdd nowSecs timestampSkewSecs

instance (skew timestamp now : UInt64) : Decidable (inWindow skew timestamp now) :=
  inferInstanceAs (Decidable (_ ∧ _))

variable (P : Primitives)

/-- The result and the verifier left behind: pruning is kept on a replay. -/
def verify (v : EnvelopeVerifier) (envelope : SignedEnvelope) (nowSecs : UInt64) :
    Except AuthError Unit × EnvelopeVerifier :=
  match verifyEnvelope P envelope v.sidToken v.expectedSid with
  | .error err => (.error err, v)
  | .ok () =>
    if ¬ inWindow v.timestampSkewSecs envelope.timestampSecs nowSecs then
      (.error .timestampOutsideWindow, v)
    else
      let v := v.pruneNonces nowSecs
      if (v.seenNonces.lookup (nonceKey envelope)).isSome then (.error .replayNonce, v)
      else (.ok (), { v with seenNonces := v.seenNonces.insert (nonceKey envelope) nowSecs })

/-- The cache still holds the envelope's nonce at this time. -/
def Remembers (v : EnvelopeVerifier) (envelope : SignedEnvelope) (nowSecs : UInt64) : Prop :=
  ((v.pruneNonces nowSecs).seenNonces.lookup (nonceKey envelope)).isSome

instance (v : EnvelopeVerifier) (envelope : SignedEnvelope) (nowSecs : UInt64) :
    Decidable (v.Remembers envelope nowSecs) := inferInstanceAs (Decidable (_ = true))

/-- A call changes the cache alone. -/
theorem verify_snd (v : EnvelopeVerifier) (envelope : SignedEnvelope) (nowSecs : UInt64) :
    (v.verify P envelope nowSecs).2 =
      { v with seenNonces := (v.verify P envelope nowSecs).2.seenNonces } := by
  unfold verify
  split
  · rfl
  · split
    · rfl
    · dsimp only
      split <;> rfl

/-- What is accepted is authentic. -/
theorem authentic_of_verify {v : EnvelopeVerifier} {envelope : SignedEnvelope} {nowSecs : UInt64}
    (h : (v.verify P envelope nowSecs).1 = .ok ()) :
    verifyEnvelope P envelope v.sidToken v.expectedSid = .ok () := by
  cases hauth : verifyEnvelope P envelope v.sidToken v.expectedSid with
  | ok u => rfl
  | error err =>
    rw [verify, hauth] at h
    cases h

/-- An authentic envelope inside the window is refused only as a replay. -/
theorem verify_of_authentic {v : EnvelopeVerifier} {envelope : SignedEnvelope} {nowSecs : UInt64}
    (hauth : verifyEnvelope P envelope v.sidToken v.expectedSid = .ok ())
    (hwindow : inWindow v.timestampSkewSecs envelope.timestampSecs nowSecs) :
    v.verify P envelope nowSecs = if v.Remembers envelope nowSecs then
      (.error .replayNonce, v.pruneNonces nowSecs) else (.ok (), { v.pruneNonces nowSecs with
        seenNonces := (v.pruneNonces nowSecs).seenNonces.insert (nonceKey envelope) nowSecs }) := by
  rw [verify, hauth]
  dsimp only
  rw [if_neg (not_not.mpr hwindow)]
  rfl

/-- A nonce is remembered while its entry is within the lifetime. -/
theorem remembers_iff {v : EnvelopeVerifier} {envelope : SignedEnvelope} {nowSecs : UInt64} :
    v.Remembers envelope nowSecs ↔ ∃ seenAt, v.seenNonces.lookup (nonceKey envelope) = some seenAt ∧
      saturatingSub nowSecs seenAt ≤ v.nonceTtlSecs := by
  rw [Remembers, pruneNonces, HashMap.lookup_retain]
  cases v.seenNonces.lookup (nonceKey envelope) with
  | none => simp
  | some seenAt => simp [Option.isSome_filter]

/-- A call about another nonce does not change what is remembered later. -/
theorem remembers_verify {v : EnvelopeVerifier} {envelope other : SignedEnvelope} {nowSecs laterSecs : UInt64}
    (hle : nowSecs ≤ laterSecs) (hkey : nonceKey other ≠ nonceKey envelope) :
    (v.verify P envelope nowSecs).2.Remembers other laterSecs ↔ v.Remembers other laterSecs := by
  have hpruned : (v.pruneNonces nowSecs).Remembers other laterSecs ↔ v.Remembers other laterSecs := by
    have hmono (seenAt : UInt64) : saturatingSub nowSecs seenAt ≤ saturatingSub laterSecs seenAt := by
      rw [UInt64.le_iff_toNat_le, toNat_saturatingSub, toNat_saturatingSub]
      have := UInt64.le_iff_toNat_le.mp hle
      omega
    rw [remembers_iff, remembers_iff]
    refine exists_congr fun seenAt => and_congr_left fun hlater => ?_
    rw [pruneNonces, HashMap.lookup_retain, Option.filter_eq_some_iff, decide_eq_true_iff]
    exact and_iff_left (UInt64.le_trans (hmono seenAt) hlater)
  unfold verify
  split
  · rfl
  · split
    · rfl
    · dsimp only
      split
      · exact hpruned
      · refine Iff.trans ?_ hpruned
        rw [remembers_iff, remembers_iff]
        refine exists_congr fun seenAt => and_congr_left fun _ => ?_
        rw [HashMap.lookup_insert, if_neg hkey]

abbrev Call := SignedEnvelope × UInt64

/-- The calls of a run that return `Ok`, in order. -/
def accepted (v : EnvelopeVerifier) : List Call → List Call
  | [] => []
  | call :: calls => match v.verify P call.1 call.2 with
    | (.ok (), v') => call :: v'.accepted calls
    | (.error _, v') => v'.accepted calls

/-- Receive times never decrease along the run. -/
def Chronological (calls : List Call) : Prop := calls.Pairwise fun a b => a.2 ≤ b.2

def seen (v : EnvelopeVerifier) (key : Str) : Option Nat :=
  (v.seenNonces.lookup key).map UInt64.toNat

/-- The cache agrees at `now` with the log of accepted keys. -/
def Tracks (v : EnvelopeVerifier) (log : List (Str × Nat)) (now : Nat) : Prop :=
  Represents v.nonceTtlSecs.toNat log now v.seen

private theorem seen_pruneNonces (v : EnvelopeVerifier) (nowSecs : UInt64) :
    (v.pruneNonces nowSecs).seen = pruned v.nonceTtlSecs.toNat nowSecs.toNat v.seen := by
  funext key
  rw [seen, pruneNonces, HashMap.lookup_retain, pruned, seen]
  cases v.seenNonces.lookup key with
  | none => rfl
  | some t =>
    simp only [Option.filter_some, Option.map_some, UInt64.le_iff_toNat_le, toNat_saturatingSub]
    split <;> rfl

private theorem seen_insert (v : EnvelopeVerifier) (key : Str) (nowSecs : UInt64) :
    seen { v with seenNonces := v.seenNonces.insert key nowSecs } =
      Function.update v.seen key (some nowSecs.toNat) := by
  funext key'
  rw [seen, HashMap.lookup_insert, Function.update_apply]
  split <;> rfl

/-- A new verifier has accepted nothing. -/
theorem tracks_new (sidToken expectedSid : Str) (skew ttl : UInt64) (now : Nat) :
    (new sidToken expectedSid skew ttl).Tracks [] now := Represents.empty _ now

/-- What the cache still holds is what the log does not admit. -/
theorem Tracks.not_remembers_iff {v : EnvelopeVerifier} {log : List (Str × Nat)} {now : Nat}
    (ht : v.Tracks log now) (envelope : SignedEnvelope) {nowSecs : UInt64} (hle : now ≤ nowSecs.toNat) :
    ¬ v.Remembers envelope nowSecs ↔ Fresh v.nonceTtlSecs.toNat log (nonceKey envelope) nowSecs.toNat := by
  rw [← (Represents.mono ht hle).absent_iff, ← seen_pruneNonces, seen, Option.map_eq_none_iff, Remembers,
    Option.not_isSome_iff_eq_none]

/-- Everything a call can do. Only an acceptance enters the log, and what is accepted is an
authentic envelope inside the window whose key the log admits. -/
theorem verify_cases {v : EnvelopeVerifier} {log : List (Str × Nat)} {now : Nat}
    (ht : v.Tracks log now) (envelope : SignedEnvelope) {nowSecs : UInt64}
    (hle : now ≤ nowSecs.toNat) :
    ∃ result v', v.verify P envelope nowSecs = (result, v') ∧
      v'.sidToken = v.sidToken ∧ v'.expectedSid = v.expectedSid ∧
      v'.timestampSkewSecs = v.timestampSkewSecs ∧ v'.nonceTtlSecs = v.nonceTtlSecs ∧
      ((result = .ok () ∧ verifyEnvelope P envelope v.sidToken v.expectedSid = .ok () ∧
          inWindow v.timestampSkewSecs envelope.timestampSecs nowSecs ∧
          Fresh v.nonceTtlSecs.toNat log (nonceKey envelope) nowSecs.toNat ∧
          v'.Tracks ((nonceKey envelope, nowSecs.toNat) :: log) nowSecs.toNat) ∨
        (∃ err, result = .error err) ∧
          ¬ (verifyEnvelope P envelope v.sidToken v.expectedSid = .ok () ∧
            inWindow v.timestampSkewSecs envelope.timestampSecs nowSecs ∧
            Fresh v.nonceTtlSecs.toNat log (nonceKey envelope) nowSecs.toNat) ∧
          v'.Tracks log nowSecs.toNat) := by
  have hpruned : (v.pruneNonces nowSecs).Tracks log nowSecs.toNat := by
    rw [Tracks, seen_pruneNonces]
    exact ht.prune hle
  unfold verify
  split
  · rename_i hauth
    refine ⟨_, _, rfl, rfl, rfl, rfl, rfl, Or.inr ⟨⟨_, rfl⟩, fun h => ?_, ht.mono hle⟩⟩
    rw [hauth] at h
    cases h.1
  · rename_i hauth
    split
    · rename_i hwindow
      exact ⟨_, _, rfl, rfl, rfl, rfl, rfl, Or.inr ⟨⟨_, rfl⟩, fun h => hwindow h.2.1, ht.mono hle⟩⟩
    · rename_i hwindow
      dsimp only
      split
      · rename_i hseen
        exact ⟨_, _, rfl, rfl, rfl, rfl, rfl,
          Or.inr ⟨⟨_, rfl⟩, fun h => (ht.not_remembers_iff envelope hle).mpr h.2.2 hseen, hpruned⟩⟩
      · rename_i habsent
        have hfresh := (ht.not_remembers_iff envelope hle).mp habsent
        refine ⟨_, _, rfl, rfl, rfl, rfl, rfl,
          Or.inl ⟨rfl, hauth, not_not.mp hwindow, hfresh, ?_⟩⟩
        rw [Tracks, seen_insert]
        exact hpruned.admit hfresh

/-- The log alone decides what is accepted. -/
theorem verify_eq_ok_iff {v : EnvelopeVerifier} {log : List (Str × Nat)} {now : Nat}
    (ht : v.Tracks log now) (envelope : SignedEnvelope) {nowSecs : UInt64}
    (hle : now ≤ nowSecs.toNat) : (v.verify P envelope nowSecs).1 = .ok () ↔
      verifyEnvelope P envelope v.sidToken v.expectedSid = .ok () ∧
      inWindow v.timestampSkewSecs envelope.timestampSecs nowSecs ∧
      Fresh v.nonceTtlSecs.toNat log (nonceKey envelope) nowSecs.toNat := by
  obtain ⟨result, v', hv, -, -, -, -, hcase⟩ := verify_cases P ht envelope hle
  rw [hv]
  rcases hcase with ⟨rfl, hauth, hwindow, hfresh, -⟩ | ⟨⟨err, rfl⟩, hnot, -⟩
  · exact iff_of_true rfl ⟨hauth, hwindow, hfresh⟩
  · exact iff_of_false nofun hnot

/-- Along a run every accepted call is inside its window and fresh for the log so far,
and equal keys are accepted more than the time-to-live apart. -/
theorem accepted_spec {v : EnvelopeVerifier} {log : List (Str × Nat)} {now : Nat}
    (ht : v.Tracks log now) {calls : List Call} (hc : Chronological calls)
    (hfrom : ∀ c ∈ calls, now ≤ c.2.toNat) :
    (∀ c ∈ v.accepted P calls, inWindow v.timestampSkewSecs c.1.timestampSecs c.2 ∧
      Fresh v.nonceTtlSecs.toNat log (nonceKey c.1) c.2.toNat) ∧
    (v.accepted P calls).Pairwise fun a b => nonceKey a.1 = nonceKey b.1 →
      a.2.toNat + v.nonceTtlSecs.toNat < b.2.toNat := by
  induction calls generalizing v log now with
  | nil => exact ⟨nofun, List.Pairwise.nil⟩
  | cons call calls ih =>
    obtain ⟨hlater, hc⟩ := List.pairwise_cons.mp hc
    have hnext : ∀ c ∈ calls, call.2.toNat ≤ c.2.toNat :=
      fun c hm => UInt64.le_iff_toNat_le.mp (hlater c hm)
    obtain ⟨result, v', hv, -, -, hskew, httl, hcase⟩ :=
      verify_cases P ht call.1 (hfrom call List.mem_cons_self)
    rw [accepted, hv]
    rcases hcase with ⟨rfl, -, hwindow, hfresh, ht'⟩ | ⟨⟨err, rfl⟩, -, ht'⟩
    · obtain ⟨hall, hpair⟩ := ih ht' hc hnext
      rw [hskew, httl] at hall
      rw [httl] at hpair
      refine ⟨?_, List.pairwise_cons.mpr ⟨?_, hpair⟩⟩
      · intro c hm
        rcases List.mem_cons.mp hm with rfl | hm
        · exact ⟨hwindow, hfresh⟩
        · exact ⟨(hall c hm).1, (hall c hm).2.of_cons.1⟩
      · exact fun c hm hkey => (hall c hm).2.of_cons.2 hkey.symm
    · have := ih ht' hc hnext
      rwa [hskew, httl] at this

private theorem inWindow_spread {skew timestamp now now' : UInt64}
    (h : inWindow skew timestamp now) (h' : inWindow skew timestamp now') :
    now'.toNat ≤ now.toNat + 2 * skew.toNat := by
  have hlate := UInt64.le_iff_toNat_le.mp h.2
  have hearly := UInt64.le_iff_toNat_le.mp h'.1
  rw [toNat_saturatingAdd] at hlate
  rw [toNat_saturatingSub] at hearly
  omega

/-- Two acceptances of one sender and nonce lie more than the time-to-live apart, and if
that covers two skews no signed envelope is accepted twice in the whole run. -/
theorem replay_safety (sidToken expectedSid : Str) (skew ttl : UInt64) (calls : List Call)
    (hc : Chronological calls) :
    (((new sidToken expectedSid skew ttl).accepted P calls).Pairwise fun a b =>
      a.1.senderId = b.1.senderId → a.1.nonce = b.1.nonce →
        b.2.toNat - a.2.toNat > ttl.toNat) ∧
    (2 * skew.toNat ≤ ttl.toNat →
      ((new sidToken expectedSid skew ttl).accepted P calls).Pairwise fun a b =>
        ¬ (a.1.senderId = b.1.senderId ∧ a.1.nonce = b.1.nonce ∧
          a.1.timestampSecs = b.1.timestampSecs)) := by
  obtain ⟨hall, hpair⟩ := accepted_spec P (tracks_new sidToken expectedSid skew ttl 0) hc
    fun _ _ => Nat.zero_le _
  have hkey {a b : Call} (hs : a.1.senderId = b.1.senderId) (hn : a.1.nonce = b.1.nonce) :
      nonceKey a.1 = nonceKey b.1 := by rw [nonceKey, nonceKey, hs, hn]
  have httl : (new sidToken expectedSid skew ttl).nonceTtlSecs = ttl := rfl
  refine ⟨hpair.imp fun h hs hn => ?_, fun hcover => ?_⟩
  · have hlt := h (hkey hs hn)
    rw [httl] at hlt
    omega
  · refine (List.Pairwise.and_mem.mp hpair).imp ?_
    rintro a b ⟨ha, hb, h⟩ ⟨hs, hn, hts⟩
    have hlt := h (hkey hs hn)
    rw [httl] at hlt
    have hspread := inWindow_spread (hall a ha).1 (hts ▸ (hall b hb).1)
    rw [show (new sidToken expectedSid skew ttl).timestampSkewSecs = skew from rfl] at hspread
    omega

private theorem accepted_once {v : EnvelopeVerifier} {envelope : SignedEnvelope} {first second : UInt64}
    (hauth : verifyEnvelope P envelope v.sidToken v.expectedSid = .ok ())
    (hfirst : inWindow v.timestampSkewSecs envelope.timestampSecs first)
    (hsecond : inWindow v.timestampSkewSecs envelope.timestampSecs second)
    (hfresh : ¬ v.Remembers envelope first) (hclose : saturatingSub second first ≤ v.nonceTtlSecs) :
    v.accepted P [(envelope, first), (envelope, second)] = [(envelope, first)] := by
  let v' : EnvelopeVerifier := { v.pruneNonces first with
    seenNonces := (v.pruneNonces first).seenNonces.insert (nonceKey envelope) first }
  have hremembers : v'.Remembers envelope second :=
    remembers_iff.mpr ⟨first, (HashMap.lookup_insert ..).trans (if_pos rfl), hclose⟩
  have hok : v.verify P envelope first = (.ok (), v') := (verify_of_authentic P hauth hfirst).trans (if_neg hfresh)
  have hreplay : v'.verify P envelope second = (.error .replayNonce, v'.pruneNonces second) :=
    (verify_of_authentic (v := v') P hauth hsecond).trans (if_pos hremembers)
  rw [accepted, hok]
  dsimp only
  rw [accepted, hreplay]
  rfl

/-- An announcement and its replay at the far end of the window: only the first is accepted. -/
theorem replay_safety_announcement :
    let e := signEnvelope .standard "group-a".toList "secret-token".toList "node-a".toList 1000
      "n-1".toList .udpAnnouncement []
    let run := (new "secret-token".toList "group-a".toList 60 120).accepted .standard
      [(e, 940), (e, 1060)]
    run = [(e, 940)] ∧ run.Pairwise fun a b => ¬ (a.1.senderId = b.1.senderId ∧
      a.1.nonce = b.1.nonce ∧ a.1.timestampSecs = b.1.timestampSecs) :=
  ⟨accepted_once .standard (verifyEnvelope_signEnvelope ..) (by decide) (by decide) (by decide) (by decide),
    (replay_safety .standard _ _ 60 120 _ (by simp [Chronological])).2 (by decide)⟩

end EnvelopeVerifier
end SshKeySync.Auth
