import SshKeySync.Auth.Envelope

/-! What the canonical string determines. It is an unescaped join by newlines and colons,
so a field is recovered only where no field before it holds its separator. -/
namespace SshKeySync.Auth
open RustStd

/-- Method and path are single lines. -/
def ContextLine : MessageContext → Prop
  | .httpRequest method path => '\n' ∉ method ∧ '\n' ∉ path
  | .httpResponse _ path => '\n' ∉ path
  | .udpAnnouncement => True

/-- Every text field that is signed is a single line. -/
structure SignedLines (e : SignedEnvelope) : Prop where
  sid : '\n' ∉ e.sid
  senderId : '\n' ∉ e.senderId
  nonce : '\n' ∉ e.nonce
  context : ContextLine e.context

/-- Equal up to the letter case of a method. -/
def SameContext : MessageContext → MessageContext → Prop
  | .httpRequest method path, .httpRequest method' path' =>
    toUppercase method = toUppercase method' ∧ path = path'
  | .httpResponse statusCode path, .httpResponse statusCode' path' =>
    statusCode = statusCode' ∧ path = path'
  | .udpAnnouncement, .udpAnnouncement => True
  | _, _ => False

/-- The one colon of this context's string is the separator. -/
def ColonFree : MessageContext → Prop
  | .httpRequest method path => ':' ∉ toUppercase method ∧ ':' ∉ path
  | _ => True

private theorem newline_not_mem_separated {a b s : Str} (ha : '\n' ∉ a) (hb : '\n' ∉ b)
    (hs : '\n' ∉ s) : '\n' ∉ a ++ (b ++ ':' :: s) := by
  simp [ha, hb, hs]

private theorem newline_not_mem_canonicalContext {context : MessageContext}
    (h : ContextLine context) : '\n' ∉ canonicalContext context := by
  cases context with
  | httpRequest method path =>
    rw [canonicalContext_httpRequest]
    exact newline_not_mem_separated (by decide) (newline_not_mem_toUppercase h.1) h.2
  | httpResponse statusCode path =>
    rw [canonicalContext_httpResponse]
    exact newline_not_mem_separated (by decide) (newline_not_mem_decimal _) h
  | udpAnnouncement =>
    rw [canonicalContext_udpAnnouncement]
    decide

/-- Between single lines the newlines of the canonical string are its own separators. -/
theorem canonical_fields {P : Primitives} {e e' : SignedEnvelope} (h : SignedLines e)
    (h' : SignedLines e') (heq : e'.canonical P = e.canonical P) :
    e'.sid = e.sid ∧ e'.senderId = e.senderId ∧ e'.timestampSecs = e.timestampSecs ∧
      e'.nonce = e.nonce ∧ canonicalContext e'.context = canonicalContext e.context ∧
      P.sha256 e'.body = P.sha256 e.body := by
  simp only [SignedEnvelope.canonical, canonicalPayload, List.append_assoc, List.cons_append] at heq
  obtain ⟨hsid, heq⟩ := append_separator_inj h'.sid h.sid heq
  obtain ⟨hsender, heq⟩ := append_separator_inj h'.senderId h.senderId heq
  obtain ⟨htime, heq⟩ := append_separator_inj (newline_not_mem_decimal _)
    (newline_not_mem_decimal _) heq
  obtain ⟨hnonce, heq⟩ := append_separator_inj h'.nonce h.nonce heq
  obtain ⟨hcontext, hhash⟩ := append_separator_inj (newline_not_mem_canonicalContext h'.context)
    (newline_not_mem_canonicalContext h.context) heq
  exact ⟨hsid, hsender, UInt64.toNat_inj.mp (decimal_injective htime), hnonce, hcontext,
    Hex.encode_injective hhash⟩

/-- With the string of an envelope of single lines, the texts before the context are single lines. -/
theorem signedLines_of_canonical {P : Primitives} {e e' : SignedEnvelope} (h : SignedLines e)
    (hcontext : ContextLine e'.context) (heq : e'.canonical P = e.canonical P) : SignedLines e' := by
  have hzero {s : Str} (hs : '\n' ∉ s) : s.count '\n' = 0 := List.count_eq_zero.mpr hs
  have hdecimal (n : Nat) : (decimal n).count '\n' = 0 := hzero (newline_not_mem_decimal n)
  have hhash (body : Bytes) : (hashBodyHex P body).count '\n' = 0 :=
    hzero fun hm => absurd (Hex.encode_whitespace_free _ _ hm) (by decide)
  have hcount := congrArg (List.count '\n') heq
  simp only [SignedEnvelope.canonical, canonicalPayload, List.count_append, List.count_cons_self, hdecimal, hhash,
    hzero h.sid, hzero h.senderId, hzero h.nonce, hzero (newline_not_mem_canonicalContext h.context),
    hzero (newline_not_mem_canonicalContext hcontext)] at hcount
  exact ⟨List.count_eq_zero.mp (by omega), List.count_eq_zero.mp (by omega), List.count_eq_zero.mp (by omega),
    hcontext⟩

private theorem colon_not_mem_decimal (n : Nat) : ':' ∉ decimal n :=
  fun h => absurd (isDigit_of_mem_decimal h) (by decide)

private theorem single_colon_inj {a b s t : Str} (ha : ':' ∉ a) (hs : ':' ∉ s)
    (h : b ++ ':' :: t = a ++ ':' :: s) : b = a ∧ t = s := by
  have hcount := congrArg (List.count ':') h
  simp only [List.count_append, List.count_cons_self, List.count_eq_zero.mpr ha,
    List.count_eq_zero.mpr hs] at hcount
  exact append_separator_inj (List.count_eq_zero.mp (by omega)) ha h

private theorem ne_of_head {s t u v : Str} (h : s.head? ≠ t.head?) (hs : s ≠ []) (ht : t ≠ []) :
    s ++ u ≠ t ++ v := fun he => h <| by
  rw [← List.head?_append_of_ne_nil s hs, he, List.head?_append_of_ne_nil t ht]

private theorem request_ne_response (s t : Str) :
    "http_request:".toList ++ s ≠ "http_response:".toList ++ t := by
  have hcut : "http_request:".toList = "http_re".toList ++ "quest:".toList ∧
    "http_response:".toList = "http_re".toList ++ "sponse:".toList := by decide
  rw [hcut.1, hcut.2, List.append_assoc, List.append_assoc]
  exact fun he => ne_of_head (by decide) (by decide) (by decide) (List.append_cancel_left he)

private theorem announcement_ne (s : Str) :
    "udp_announcement".toList ≠ "http_request:".toList ++ s ∧
      "udp_announcement".toList ≠ "http_response:".toList ++ s := by
  rw [← List.append_nil "udp_announcement".toList]
  exact ⟨ne_of_head (by decide) (by decide) (by decide), ne_of_head (by decide) (by decide) (by decide)⟩

/-- The kinds of context differ in their first characters. -/
theorem sameContext_of_canonicalContext {context context' : MessageContext}
    (hcolon : ColonFree context) (h : canonicalContext context' = canonicalContext context) :
    SameContext context' context := by
  cases context with
  | httpRequest method path =>
    rw [canonicalContext_httpRequest] at h
    cases context' with
    | httpRequest method' path' =>
      rw [canonicalContext_httpRequest] at h
      exact single_colon_inj hcolon.1 hcolon.2 (List.append_cancel_left h)
    | httpResponse statusCode path' =>
      rw [canonicalContext_httpResponse] at h
      exact absurd h.symm (request_ne_response _ _)
    | udpAnnouncement => exact absurd h (announcement_ne _).1
  | httpResponse statusCode path =>
    rw [canonicalContext_httpResponse] at h
    cases context' with
    | httpRequest method' path' =>
      rw [canonicalContext_httpRequest] at h
      exact absurd h (request_ne_response _ _)
    | httpResponse statusCode' path' =>
      rw [canonicalContext_httpResponse] at h
      obtain ⟨hstatus, hpath⟩ := append_separator_inj (colon_not_mem_decimal _)
        (colon_not_mem_decimal _) (List.append_cancel_left h)
      exact ⟨UInt16.toNat_inj.mp (decimal_injective hstatus), hpath⟩
    | udpAnnouncement => exact absurd h (announcement_ne _).2
  | udpAnnouncement =>
    rw [canonicalContext_udpAnnouncement] at h
    cases context' with
    | httpRequest method' path' =>
      rw [canonicalContext_httpRequest] at h
      exact absurd h.symm (announcement_ne _).1
    | httpResponse statusCode path' =>
      rw [canonicalContext_httpResponse] at h
      exact absurd h.symm (announcement_ne _).2
    | udpAnnouncement => trivial

end SshKeySync.Auth
