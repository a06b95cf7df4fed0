import SshKeySync.Std.CaseMapping
import SshKeySync.Std.Number
import SshKeySync.Std.Result
import SshKeySync.Std.Sha256
import SshKeySync.Theory.Hex

/-! Signed envelopes: the canonical string, its HMAC, and verification against a group. -/
namespace SshKeySync.Auth
open RustStd

/-- The primitives taken from the `hmac` and `sha2` crates. -/
structure Primitives where
  /-- HMAC-SHA256 tag of a message under a key. -/
  hmacSha256 : Bytes → Bytes → Bytes
  sha256 : Bytes → Bytes

/-- The functions those crates compute, for runs of the model on real digests. -/
def Primitives.standard : Primitives := ⟨Sha256.hmac, Sha256.digest⟩

inductive MessageContext where
  | httpRequest (method path : Str)
  | httpResponse (statusCode : UInt16) (path : Str)
  | udpAnnouncement
  deriving DecidableEq

structure SignedEnvelope where
  sid : Str
  senderId : Str
  timestampSecs : UInt64
  nonce : Str
  context : MessageContext
  body : Bytes
  signatureHex : Str
  deriving DecidableEq

inductive AuthError where
  | sidMismatch
  | invalidSignatureEncoding
  | invalidSignature
  | timestampOutsideWindow
  | replayNonce
  deriving DecidableEq

def encodeHex (bytes : Bytes) : Str := Hex.encode bytes

def decodeNibble (value : Char) : Option UInt8 := Hex.nibble value.toNat

/-- The loop of `decode_hex`. The outer `none` is the index `chars[index + 1]` past
the end; the inner one is the early return on a character that is not a digit. -/
def decodeHexPairs : Str → Option (Option Bytes)
  | [] => some (some [])
  | c :: rest => match decodeNibble c with
    | none => some none
    | some high => match rest with
      | [] => none
      | d :: rest => match decodeNibble d with
        | none => some none
        | some low => (decodeHexPairs rest).map (·.map (Hex.join high low :: ·))

/-- The byte length is checked although characters are indexed. -/
def decodeHexChecked (value : Str) : Option (Option Bytes) :=
  if (utf8 value).length % 2 ≠ 0 then some none else decodeHexPairs value

/-- The loop is the general one, over characters. -/
theorem decodeHexPairs_eq (value : Str) : decodeHexPairs value = Hex.decodePairs Char.toNat value := by
  fun_induction decodeHexPairs value with
  | case1 => rfl
  | case2 c rest hc => rw [Hex.decodePairs, show Hex.nibble c.toNat = none from hc]
  | case3 c high hc => rw [Hex.decodePairs, show Hex.nibble c.toNat = some high from hc]
  | case4 c high hc d rest hd =>
    rw [Hex.decodePairs, show Hex.nibble c.toNat = some high from hc]
    dsimp only
    rw [show Hex.nibble d.toNat = none from hd]
  | case5 c high hc d rest low hd ih =>
    rw [Hex.decodePairs, show Hex.nibble c.toNat = some high from hc]
    dsimp only
    rw [show Hex.nibble d.toNat = some low from hd, ih]

/-- No index is out of range: running off the end needs an odd number of ASCII
characters, which the byte-length check has excluded. -/
theorem decodeHexChecked_isSome (value : Str) : (decodeHexChecked value).isSome := by
  rw [decodeHexChecked]
  split
  · rfl
  · rename_i heven
    cases hp : decodeHexPairs value with
    | some r => rfl
    | none =>
      obtain ⟨hodd, hascii⟩ := Hex.decodePairs_overrun ((decodeHexPairs_eq value).symm.trans hp)
      rw [utf8_length_ascii hascii] at heven
      omega

def decodeHex (value : Str) : Option Bytes :=
  (decodeHexChecked value).get (decodeHexChecked_isSome value)

/-- What was written in hex is read back. -/
theorem decodeHex_encodeHex (bytes : Bytes) : decodeHex (encodeHex bytes) = some bytes := by
  have hchecked : decodeHexChecked (encodeHex bytes) = some (some bytes) := by
    rw [decodeHexChecked, encodeHex, utf8_length_ascii fun c => Hex.encode_ascii,
      Hex.length_encode, if_neg (by omega), decodeHexPairs_eq, Hex.decodePairs_encode]
  simp only [decodeHex, hchecked, Option.get_some]

def canonicalContext : MessageContext → Str
  | .httpRequest method path =>
    "http_request:".toList ++ toUppercase method ++ ':' :: path
  | .httpResponse statusCode path =>
    "http_response:".toList ++ decimal statusCode.toNat ++ ':' :: path
  | .udpAnnouncement => "udp_announcement".toList

theorem canonicalContext_httpRequest (method path : Str) :
    canonicalContext (.httpRequest method path) =
      "http_request:".toList ++ (toUppercase method ++ ':' :: path) := List.append_assoc ..

theorem canonicalContext_httpResponse (statusCode : UInt16) (path : Str) :
    canonicalContext (.httpResponse statusCode path) =
      "http_response:".toList ++ (decimal statusCode.toNat ++ ':' :: path) := List.append_assoc ..

theorem canonicalContext_udpAnnouncement :
    canonicalContext .udpAnnouncement = "udp_announcement".toList := rfl

section
variable (P : Primitives)

def hashBodyHex (body : Bytes) : Str := encodeHex (P.sha256 body)

def canonicalPayload (sid senderId : Str) (timestampSecs : UInt64) (nonce : Str)
    (context : MessageContext) (body : Bytes) : Str :=
  sid ++ '\n' :: senderId ++ '\n' :: decimal timestampSecs.toNat ++ '\n' :: nonce ++
    '\n' :: canonicalContext context ++ '\n' :: hashBodyHex P body

def SignedEnvelope.canonical (e : SignedEnvelope) : Str :=
  canonicalPayload P e.sid e.senderId e.timestampSecs e.nonce e.context e.body

def hmacSignatureHex (sidToken : Str) (payload : Bytes) : Str :=
  encodeHex (P.hmacSha256 (utf8 sidToken) payload)

def signEnvelope (sid sidToken senderId : Str) (timestampSecs : UInt64) (nonce : Str)
    (context : MessageContext) (body : Bytes) : SignedEnvelope where
  sid := sid
  senderId := senderId
  timestampSecs := timestampSecs
  nonce := nonce
  context := context
  body := body
  signatureHex := hmacSignatureHex P sidToken
    (utf8 (canonicalPayload P sid senderId timestampSecs nonce context body))

/-- `verify_slice` accepts the tag of the same key and message and nothing else. -/
def verifyEnvelope (envelope : SignedEnvelope) (sidToken expectedSid : Str) :
    Except AuthError Unit :=
  if envelope.sid ≠ expectedSid then .error .sidMismatch
  else do
    let signature ← okOr (decodeHex envelope.signatureHex) .invalidSignatureEncoding
    let canonical := canonicalPayload P envelope.sid envelope.senderId envelope.timestampSecs
      envelope.nonce envelope.context envelope.body
    if signature = P.hmacSha256 (utf8 sidToken) (utf8 canonical) then .ok ()
    else .error .invalidSignature

/-- Acceptance by a group: the right SID, and the tag of exactly this canonical string. -/
theorem verifyEnvelope_ok_iff {e : SignedEnvelope} {sidToken expectedSid : Str} :
    verifyEnvelope P e sidToken expectedSid = .ok () ↔ e.sid = expectedSid ∧
      decodeHex e.signatureHex = some (P.hmacSha256 (utf8 sidToken) (utf8 (e.canonical P))) := by
  rw [verifyEnvelope, SignedEnvelope.canonical]
  split
  · rename_i hsid
    exact iff_of_false nofun fun h => hsid h.1
  · rename_i hsid
    rw [bind_eq_ok]
    constructor
    · rintro ⟨signature, hdecode, htag⟩
      dsimp only at htag
      split at htag
      · rename_i htag'
        exact ⟨not_not.mp hsid, by rw [okOr_eq_ok.mp hdecode, htag']⟩
      · cases htag
    · rintro ⟨-, hdecode⟩
      exact ⟨_, okOr_eq_ok.mpr hdecode, if_pos rfl⟩

/-- What a group member signs, the group accepts. -/
theorem verifyEnvelope_signEnvelope (sid sidToken senderId : Str) (timestampSecs : UInt64)
    (nonce : Str) (context : MessageContext) (body : Bytes) :
    verifyEnvelope P (signEnvelope P sid sidToken senderId timestampSecs nonce context body)
      sidToken sid = .ok () :=
  (verifyEnvelope_ok_iff P).mpr ⟨rfl, decodeHex_encodeHex _⟩
end

end SshKeySync.Auth
