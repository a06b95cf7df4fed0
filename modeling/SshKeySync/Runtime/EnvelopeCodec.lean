import Mathlib.Algebra.GroupWithZero.Nat
import SshKeySync.Auth.Envelope
import SshKeySync.Theory.Records

/-! The wire form of an envelope: one `key=value` line a field, the body in hexadecimal.
It carries exactly the envelopes whose text fields are single unpadded lines. -/
namespace SshKeySync.Runtime
open RustStd Auth Records

inductive RuntimeError where
  | readLocalPublicKey (path : Str)
  | bindHttp (address : Str)
  | bindUdp (address : Str)
  | parseListenAddress (address : Str)
  | buildAnnouncement
  | parseEnvelope
  | httpRequest
  | verifyOrParseResponse
  | writeAuthorizedKeys (path : Str)
  | controlFile (path : Str)
  | runtimeDirectory (path : Str)
  | missingHomeDir
  | killProcess (pid : UInt32)
  | missingTlsConfig (name : Str)
  | invalidTlsConfig (message : Str)
  deriving DecidableEq

def toHex (bytes : Bytes) : Str := Hex.encode bytes

def decodeNibble (value : UInt8) : Option UInt8 := Hex.nibble value.toNat

/-- The loop of `from_hex`. Its caller has checked that the length is even. -/
def fromHexPairs : Bytes → Option Bytes
  | high :: low :: rest => do
    let high ← decodeNibble high
    let low ← decodeNibble low
    let output ← fromHexPairs rest
    some (Hex.join high low :: output)
  | _ => some []

def fromHex (value : Str) : Option Bytes :=
  if (utf8 value).length % 2 ≠ 0 then none else fromHexPairs (utf8 value)

def contextRows : MessageContext → List (Str × Str)
  | .httpRequest method path =>
    [("context".toList, "http_request".toList), ("method".toList, method), ("path".toList, path)]
  | .httpResponse statusCode path =>
    [("context".toList, "http_response".toList),
      ("status_code".toList, decimal statusCode.toNat), ("path".toList, path)]
  | .udpAnnouncement => [("context".toList, "udp_announcement".toList)]

def envelopeRows (e : SignedEnvelope) : List (Str × Str) :=
  [("sid".toList, e.sid), ("sender_id".toList, e.senderId),
    ("timestamp_secs".toList, decimal e.timestampSecs.toNat), ("nonce".toList, e.nonce),
    ("signature_hex".toList, e.signatureHex)] ++
  contextRows e.context ++ [("body_hex".toList, toHex e.body)]

def serializeEnvelope (e : SignedEnvelope) : Str := render (envelopeRows e)

/-- `values.remove(key).ok_or(..)`. No key is asked for twice, so nothing need be removed. -/
def required (values : HashMap Str Str) (key : Str) : Except RuntimeError Str :=
  okOr (values.lookup key) .parseEnvelope

def parseContext (values : HashMap Str Str) : Except RuntimeError MessageContext := do
  let contextKind ← required values "context".toList
  if contextKind = "http_request".toList then
    let method ← required values "method".toList
    let path ← required values "path".toList
    .ok (.httpRequest method path)
  else if contextKind = "http_response".toList then
    let statusText ← required values "status_code".toList
    let statusCode ← okOr (parseU16 statusText) .parseEnvelope
    let path ← required values "path".toList
    .ok (.httpResponse statusCode path)
  else if contextKind = "udp_announcement".toList then .ok .udpAnnouncement
  else .error .parseEnvelope

def envelopeOfValues (values : HashMap Str Str) : Except RuntimeError SignedEnvelope := do
  let sid ← required values "sid".toList
  let senderId ← required values "sender_id".toList
  let timestampText ← required values "timestamp_secs".toList
  let timestampSecs ← okOr (parseU64 timestampText) .parseEnvelope
  let nonce ← required values "nonce".toList
  let signatureHex ← required values "signature_hex".toList
  let context ← parseContext values
  let bodyHex ← required values "body_hex".toList
  let body ← okOr (fromHex bodyHex) .parseEnvelope
  .ok ⟨sid, senderId, timestampSecs, nonce, context, body, signatureHex⟩

def parseEnvelope (text : Str) : Except RuntimeError SignedEnvelope :=
  envelopeOfValues (Records.parse text)

def WireContext : MessageContext → Prop
  | .httpRequest method path => WireSafe method ∧ WireSafe path
  | .httpResponse _ path => WireSafe path
  | .udpAnnouncement => True

/-- Every text field is one line without surrounding whitespace. -/
structure WireEnvelope (e : SignedEnvelope) : Prop where
  sid : WireSafe e.sid
  senderId : WireSafe e.senderId
  nonce : WireSafe e.nonce
  signatureHex : WireSafe e.signatureHex
  context : WireContext e.context

/-- An even number of bytes is walked to its end. -/
theorem decodePairs_of_even {bytes : Bytes} (h : bytes.length % 2 = 0) :
    Hex.decodePairs UInt8.toNat bytes = some (fromHexPairs bytes) := by
  fun_induction fromHexPairs bytes with
  | case1 high low rest ih =>
    rw [List.length_cons, List.length_cons] at h
    rw [Hex.decodePairs, decodeNibble, decodeNibble]
    cases Hex.nibble high.toNat with
    | none => rfl
    | some high =>
      dsimp only
      cases Hex.nibble low.toNat with
      | none => rfl
      | some low =>
        rw [ih (by omega)]
        cases fromHexPairs rest <;> rfl
  | case2 bytes hshort =>
    cases bytes with
    | nil => rfl
    | cons b rest =>
      cases rest with
      | nil => cases h
      | cons b' rest => exact absurd rfl (hshort b b' rest)

private theorem fromHex_toHex (bytes : Bytes) : fromHex (toHex bytes) = some bytes := by
  have heven : (utf8 (toHex bytes)).length % 2 = 0 := by
    rw [toHex, utf8_length_ascii fun c => Hex.encode_ascii, Hex.length_encode, Nat.mul_mod_right]
  have hpairs := decodePairs_of_even heven
  rw [toHex, Hex.decodePairs_utf8, Hex.decodePairs_encode] at hpairs
  rw [fromHex, if_neg (not_not.mpr heven), toHex, ← Option.some.inj hpairs]

def Holds (values : HashMap Str Str) (rows : List (Str × Str)) : Prop :=
  ∀ kv ∈ rows, values.lookup kv.1 = some kv.2

private theorem parseContext_of_holds {values : HashMap Str Str} {context : MessageContext}
    (h : Holds values (contextRows context)) : parseContext values = .ok context := by
  cases context with
  | httpRequest method path =>
    simp only [Holds, contextRows, List.forall_mem_cons] at h
    obtain ⟨hkind, hmethod, hpath, -⟩ := h
    simp only [parseContext, required, hkind, hmethod, hpath, okOr_some, ok_bind, if_true]
  | httpResponse statusCode path =>
    simp only [Holds, contextRows, List.forall_mem_cons] at h
    obtain ⟨hkind, hstatus, hpath, -⟩ := h
    simp only [parseContext, required, hkind, hstatus, hpath, parseU16_decimal, okOr_some, ok_bind]
    rw [if_neg (by decide), if_pos trivial]
  | udpAnnouncement =>
    simp only [Holds, contextRows, List.forall_mem_cons] at h
    simp only [parseContext, required, h.1, okOr_some, ok_bind]
    rw [if_neg (by decide), if_neg (by decide), if_pos trivial]

/-- A map that holds an envelope's rows is read as that envelope. -/
theorem envelopeOfValues_of_holds {values : HashMap Str Str} {e : SignedEnvelope}
    (h : Holds values (envelopeRows e)) : envelopeOfValues values = .ok e := by
  simp only [Holds, envelopeRows, List.forall_mem_append, List.forall_mem_cons] at h
  obtain ⟨⟨⟨hsid, hsender, htime, hnonce, hsignature, -⟩, hcontext⟩, hbody, -⟩ := h
  simp only [envelopeOfValues, required, hsid, hsender, htime, hnonce, hsignature, hbody,
    parseContext_of_holds hcontext, parseU64_decimal, fromHex_toHex, okOr_some, ok_bind]

private theorem nodup_envelopeRows (e : SignedEnvelope) :
    ((envelopeRows e).map Prod.fst).Nodup := by
  have hrequest : ["sid".toList, "sender_id".toList, "timestamp_secs".toList, "nonce".toList,
    "signature_hex".toList, "context".toList, "method".toList, "path".toList,
    "body_hex".toList].Nodup := by decide
  have hresponse : ["sid".toList, "sender_id".toList, "timestamp_secs".toList, "nonce".toList,
    "signature_hex".toList, "context".toList, "status_code".toList, "path".toList,
    "body_hex".toList].Nodup := by decide
  rw [envelopeRows]
  cases e.context with
  | httpRequest method path => exact hrequest
  | httpResponse statusCode path => exact hresponse
  | udpAnnouncement => exact hrequest.sublist (by simp [contextRows])

private theorem safeRow_envelopeRows {e : SignedEnvelope} (h : WireEnvelope e) :
    ∀ kv ∈ envelopeRows e, SafeRow kv := by
  have hdecimal (n : Nat) : WireSafe (decimal n) :=
    wireSafe_of_whitespace_free (decimal_whitespace_free n)
  have hhex : WireSafe (toHex e.body) := wireSafe_of_whitespace_free (Hex.encode_whitespace_free _)
  have hcontext : ∀ kv ∈ contextRows e.context, SafeRow kv := by
    have hc := h.context
    cases hctx : e.context with
    | httpRequest method path =>
      rw [hctx] at hc
      simp only [contextRows, List.forall_mem_cons]
      exact ⟨safeRow (by decide) (by decide), safeRow (by decide) hc.1, safeRow (by decide) hc.2, nofun⟩
    | httpResponse statusCode path =>
      rw [hctx] at hc
      simp only [contextRows, List.forall_mem_cons]
      exact ⟨safeRow (by decide) (by decide), safeRow (by decide) (hdecimal _), safeRow (by decide) hc, nofun⟩
    | udpAnnouncement =>
      simp only [contextRows, List.forall_mem_cons]
      exact ⟨safeRow (by decide) (by decide), nofun⟩
  simp only [envelopeRows, List.forall_mem_append, List.forall_mem_cons]
  exact ⟨⟨⟨safeRow (by decide) h.sid, safeRow (by decide) h.senderId, safeRow (by decide) (hdecimal _),
    safeRow (by decide) h.nonce, safeRow (by decide) h.signatureHex, nofun⟩, hcontext⟩,
    safeRow (by decide) hhex, nofun⟩

/-- An envelope of safe texts is read back from its rows. -/
theorem parseEnvelope_serializeEnvelope {e : SignedEnvelope} (h : WireEnvelope e) :
    parseEnvelope (serializeEnvelope e) = .ok e := by
  rw [parseEnvelope, serializeEnvelope, parse_render (safeRow_envelopeRows h)]
  exact envelopeOfValues_of_holds fun kv hkv =>
    HashMap.lookup_collect_of_mem (nodup_envelopeRows e) hkv

private theorem length_utf8_render (rows : List (Str × Str)) : (utf8 (render rows)).length =
    (rows.map fun kv => (utf8 kv.1).length + (utf8 kv.2).length + 2).sum := by
  induction rows with
  | nil => rfl
  | cons kv rows ih =>
    rw [List.map_cons, List.sum_cons, ← ih, render, List.map_cons, unlines, List.flatMap_cons, row]
    simp only [utf8_append, utf8_cons, List.length_append]
    rw [show (utf8 []).length = 0 from rfl, show (String.utf8EncodeChar '=').length = 1 by decide,
      show (String.utf8EncodeChar '\n').length = 1 by decide, render, unlines]
    omega

/-- A signature has 64 hex digits. -/
theorem length_signatureHex (sid sidToken senderId : Str) (timestampSecs : UInt64) (nonce : Str)
    (context : MessageContext) (body : Bytes) : (utf8 (signEnvelope .standard sid sidToken senderId timestampSecs
      nonce context body).signatureHex).length = 64 := by
  rw [signEnvelope, hmacSignatureHex, encodeHex, utf8_length_ascii fun c => Hex.encode_ascii, Hex.length_encode,
    Primitives.standard, Sha256.length_hmac]

/-- The signature takes its own size, whatever it is. -/
theorem length_of_signature {e : SignedEnvelope} {size : Nat} (h : (utf8 e.signatureHex).length = size) :
    (utf8 (serializeEnvelope e)).length = (utf8 (serializeEnvelope { e with signatureHex := [] })).length + size := by
  have hempty : (utf8 []).length = 0 := rfl
  rw [serializeEnvelope, serializeEnvelope, length_utf8_render, length_utf8_render, envelopeRows, envelopeRows]
  simp only [List.map_append, List.map_cons, List.sum_append, List.sum_cons, h, hempty]
  omega

private theorem wireContext_of_parseContext {values : HashMap Str Str} {context : MessageContext}
    (hv : SafeValues values) (h : parseContext values = .ok context) : WireContext context := by
  simp only [parseContext, required, bind_eq_ok, okOr_eq_ok] at h
  obtain ⟨kind, -, h⟩ := h
  split at h
  · simp only [bind_eq_ok, okOr_eq_ok] at h
    obtain ⟨method, hm, path, hp, he⟩ := h
    cases he
    exact ⟨hv _ _ hm, hv _ _ hp⟩
  · split at h
    · simp only [bind_eq_ok, okOr_eq_ok] at h
      obtain ⟨text, -, code, -, path, hp, he⟩ := h
      cases he
      exact hv _ _ hp
    · split at h
      · cases h
        trivial
      · cases h

/-- Whatever the text, only such envelopes are read from it. -/
theorem wireEnvelope_of_parseEnvelope {text : Str} {e : SignedEnvelope}
    (h : parseEnvelope text = .ok e) : WireEnvelope e := by
  have hv := safeValues_parse text
  simp only [parseEnvelope, envelopeOfValues, required, bind_eq_ok, okOr_eq_ok] at h
  obtain ⟨sid, hsid, senderId, hsender, timeText, -, timestampSecs, -, nonce, hnonce, signatureHex,
    hsignature, context, hcontext, bodyHex, -, body, -, he⟩ := h
  cases he
  exact ⟨hv _ _ hsid, hv _ _ hsender, hv _ _ hnonce, hv _ _ hsignature,
    wireContext_of_parseContext hv hcontext⟩

/-- The codec is lossless on the wire-safe envelopes, and everything it reads is one. -/
theorem envelope_codec_lossless :
    (∀ e, WireEnvelope e → parseEnvelope (serializeEnvelope e) = .ok e) ∧
    ∀ text e, parseEnvelope text = .ok e →
      WireEnvelope e ∧ parseEnvelope (serializeEnvelope e) = .ok e :=
  ⟨fun _ => parseEnvelope_serializeEnvelope, fun _ _ h =>
    have hw := wireEnvelope_of_parseEnvelope h
    ⟨hw, parseEnvelope_serializeEnvelope hw⟩⟩

end SshKeySync.Runtime
