import SshKeySync.Runtime.Announce

/-! The announced address against the one that is listened on. The port is cut off at the last colon
and the host at the first, so that a host with colons of its own is announced in part. -/
namespace SshKeySync.Runtime
open RustStd

/-- The addresses that stand for every interface. -/
def Wildcard (host : Str) : Prop := host = "0.0.0.0".toList ∨ host = "::".toList ∨ host = "[::]".toList

instance (host : Str) : Decidable (Wildcard host) := inferInstanceAs (Decidable (_ ∨ _ ∨ _))

/-- What stands before the separator that `parsePort` uses. -/
def listenHost (address : Str) : Str := ((rsplitOnce ':' address).map Prod.fst).getD []

/-- Host and port make up the listen address, and the host is announced, or the participant in the
place of a wildcard. -/
def AdvertisesListened (address participantId : Str) (port : UInt16) : Prop :=
  (∃ portText, address = listenHost address ++ ':' :: portText ∧ parseU16 portText = some port) ∧
    advertisedAddress address participantId =
      if Wildcard (listenHost address) then participantId else listenHost address

/-- The participant is by chance what the cut at the first colon gives. -/
def Coincides (host participantId : Str) : Prop :=
  host = "::".toList ∧ participantId = [] ∨ host = "[::]".toList ∧ participantId = "[".toList ∨
    "0.0.0.0:".toList <+: host ∧ participantId = host

private theorem parsePort_eq_ok_iff {address : Str} {port : UInt16} : parsePort address = .ok port ↔
    ∃ host portText, address = host ++ ':' :: portText ∧ ':' ∉ portText ∧ parseU16 portText = some port := by
  rw [parsePort, okOr_eq_ok, Option.bind_eq_some_iff]
  constructor
  · rintro ⟨⟨host, portText⟩, hcut, hport⟩
    obtain ⟨rfl, hcolon⟩ := rsplitOnce_eq_some_iff.mp hcut
    exact ⟨host, portText, rfl, hcolon, hport⟩
  · rintro ⟨host, portText, rfl, hcolon, hport⟩
    exact ⟨(host, portText), rsplitOnce_eq_some_iff.mpr ⟨rfl, hcolon⟩, hport⟩

private theorem listenHost_append {host portText : Str} (h : ':' ∉ portText) :
    listenHost (host ++ ':' :: portText) = host := by
  rw [listenHost, rsplitOnce_eq_some_iff.mpr ⟨rfl, h⟩]
  rfl

/-- The second comparison never holds, for a text cut at its first colon. -/
theorem advertisedAddress_append {first rest participantId : Str} (h : ':' ∉ first) :
    advertisedAddress (first ++ ':' :: rest) participantId =
      if first = "0.0.0.0".toList then participantId else first := by
  have hne : first ≠ "::".toList := by
    rintro rfl
    exact h (by decide)
  rw [advertisedAddress, splitOnce_append rest h]
  simp only [Option.map_some, Option.getD_some, hne, or_false]

/-- A host without colons is cut alike at either end. -/
theorem advertised_of_colon_free {host portText participantId : Str} (h : ':' ∉ host) :
    advertisedAddress (host ++ ':' :: portText) participantId =
      if Wildcard host then participantId else host := by
  rw [advertisedAddress_append h]
  refine if_congr ⟨Or.inl, fun hwild => ?_⟩ rfl rfl
  rcases hwild with hany | rfl | rfl
  · exact hany
  · exact absurd (by decide) h
  · exact absurd (by decide) h

/-- The cut at the first colon is the only one whose left part has none. -/
theorem first_cut_eq_iff {first rest left right : Str} (h : ':' ∉ first) (hleft : ':' ∉ left) :
    first ++ ':' :: rest = left ++ ':' :: right ↔ first = left ∧ rest = right :=
  ⟨append_separator_inj h hleft, fun ⟨hl, hr⟩ => by rw [hl, hr]⟩

private theorem eq_all_iff {first rest : Str} (h : ':' ∉ first) :
    first ++ ':' :: rest = "::".toList ↔ first = [] ∧ rest = ":".toList :=
  first_cut_eq_iff h (by decide : ':' ∉ [])

private theorem eq_bracketed_iff {first rest : Str} (h : ':' ∉ first) :
    first ++ ':' :: rest = "[::]".toList ↔ first = "[".toList ∧ rest = ":]".toList :=
  first_cut_eq_iff h (by decide : ':' ∉ "[".toList)

private theorem wildcard_of_colon {first rest : Str} (h : ':' ∉ first) : Wildcard (first ++ ':' :: rest) ↔
    first = [] ∧ rest = ":".toList ∨ first = "[".toList ∧ rest = ":]".toList := by
  have hany : first ++ ':' :: rest ≠ "0.0.0.0".toList := by
    intro heq
    exact absurd (heq ▸ List.mem_append_right _ List.mem_cons_self) (by decide : ':' ∉ "0.0.0.0".toList)
  rw [Wildcard, or_iff_right hany, eq_all_iff h, eq_bracketed_iff h]

/-- The cut gives the participant in the place of a wildcard, or the host in the place of the participant. -/
theorem coincides_of_colon {first rest participantId : Str} (h : ':' ∉ first) :
    Coincides (first ++ ':' :: rest) participantId ↔ Wildcard (first ++ ':' :: rest) ∧ participantId = first ∨
      first = "0.0.0.0".toList ∧ participantId = first ++ ':' :: rest := by
  have hprefix : "0.0.0.0:".toList <+: first ++ ':' :: rest ↔ first = "0.0.0.0".toList := by
    constructor
    · rintro ⟨right, heq⟩
      exact (append_separator_inj (by decide : ':' ∉ "0.0.0.0".toList) h heq).1.symm
    · rintro rfl
      exact ⟨rest, rfl⟩
  rw [Coincides, hprefix, wildcard_of_colon h, eq_all_iff h, eq_bracketed_iff h, or_and_right, or_assoc]
  refine or_congr (and_congr_right fun hall => ?_) (or_congr (and_congr_right fun hbracketed => ?_) Iff.rfl)
  · rw [hall.1]
  · rw [hbracketed.1]

/-- Of a host with colons the part before the first one is announced, unless that part is 0.0.0.0. -/
theorem advertised_of_colon {first rest portText participantId : Str} (h : ':' ∉ first) :
    (advertisedAddress (first ++ ':' :: rest ++ ':' :: portText) participantId =
      if Wildcard (first ++ ':' :: rest) then participantId else first ++ ':' :: rest) ↔
        Coincides (first ++ ':' :: rest) participantId := by
  rw [List.append_assoc, List.cons_append, advertisedAddress_append h, coincides_of_colon h]
  by_cases hwild : Wildcard (first ++ ':' :: rest)
  · have hany : first ≠ "0.0.0.0".toList := by
      rcases (wildcard_of_colon h).mp hwild with ⟨rfl, -⟩ | ⟨rfl, -⟩
      · decide
      · decide
    rw [if_pos hwild, if_neg hany, and_iff_right hwild, or_iff_left fun hc => hany hc.1, eq_comm]
  · rw [if_neg hwild, or_iff_right fun hc => hwild hc.1]
    split
    · rename_i hany
      rw [and_iff_right hany]
    · rename_i hany
      refine iff_of_false (fun heq => ?_) fun hc => hany hc.1
      have hlength := congrArg List.length heq
      simp at hlength

/-- The announced address and port are the listen address when the host has no colon, and otherwise
only by chance. -/
theorem advertised_iff {address participantId : Str} {port : UInt16} (hport : parsePort address = .ok port) :
    AdvertisesListened address participantId port ↔
      ':' ∉ listenHost address ∨ Coincides (listenHost address) participantId := by
  obtain ⟨host, portText, rfl, hcut, hparse⟩ := parsePort_eq_ok_iff.mp hport
  rw [AdvertisesListened, listenHost_append hcut, and_iff_right ⟨portText, rfl, hparse⟩]
  by_cases hcolon : ':' ∈ host
  · obtain ⟨first, rest, rfl, hfirst⟩ := List.eq_append_cons_of_mem hcolon
    rw [advertised_of_colon hfirst, or_iff_right (not_not.mpr hcolon)]
  · exact iff_of_true (advertised_of_colon_free hcolon) (.inl hcolon)

/-- A host name with its port. -/
theorem advertised_iff_host_name : AdvertisesListened "node-a.local:9922".toList "node-a".toList 9922 :=
  (advertised_iff (by decide : parsePort "node-a.local:9922".toList = .ok 9922)).mpr (.inl (by decide))

/-- Listening on every IPv6 interface, a bracket is announced. -/
theorem ipv6_wildcard_cut : parsePort "[::]:9922".toList = .ok 9922 ∧
    advertisedAddress "[::]:9922".toList "node-a".toList = "[".toList ∧
      ¬AdvertisesListened "[::]:9922".toList "node-a".toList 9922 := by
  refine ⟨by decide, by decide, fun h => ?_⟩
  exact absurd h.2 (by decide)

end SshKeySync.Runtime
