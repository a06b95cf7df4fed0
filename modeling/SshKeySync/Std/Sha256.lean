import SshKeySync.Std.Text

/-! SHA-256 and HMAC-SHA256 over byte lists, for running the model on real digests.
No proof about the model depends on which functions these are. -/
namespace Sha256
open RustStd

private def roundConstants : List UInt32 := [
  0x428a2f98, 0x71374491, 0xb5c0fbcf, 0xe9b5dba5, 0x3956c25b, 0x59f111f1, 0x923f82a4, 0xab1c5ed5,
  0xd807aa98, 0x12835b01, 0x243185be, 0x550c7dc3, 0x72be5d74, 0x80deb1fe, 0x9bdc06a7, 0xc19bf174,
  0xe49b69c1, 0xefbe4786, 0x0fc19dc6, 0x240ca1cc, 0x2de92c6f, 0x4a7484aa, 0x5cb0a9dc, 0x76f988da,
  0x983e5152, 0xa831c66d, 0xb00327c8, 0xbf597fc7, 0xc6e00bf3, 0xd5a79147, 0x06ca6351, 0x14292967,
  0x27b70a85, 0x2e1b2138, 0x4d2c6dfc, 0x53380d13, 0x650a7354, 0x766a0abb, 0x81c2c92e, 0x92722c85,
  0xa2bfe8a1, 0xa81a664b, 0xc24b8b70, 0xc76c51a3, 0xd192e819, 0xd6990624, 0xf40e3585, 0x106aa070,
  0x19a4c116, 0x1e376c08, 0x2748774c, 0x34b0bcb5, 0x391c0cb3, 0x4ed8aa4a, 0x5b9cca4f, 0x682e6ff3,
  0x748f82ee, 0x78a5636f, 0x84c87814, 0x8cc70208, 0x90befffa, 0xa4506ceb, 0xbef9a3f7, 0xc67178f2]

private structure State where
  (a b c d e f g h : UInt32)

private def State.words (s : State) : List UInt32 := [s.a, s.b, s.c, s.d, s.e, s.f, s.g, s.h]

private def initial : State :=
  ⟨0x6a09e667, 0xbb67ae85, 0x3c6ef372, 0xa54ff53a, 0x510e527f, 0x9b05688c,
    0x1f83d9ab, 0x5be0cd19⟩

private def rotr (x n : UInt32) : UInt32 := (x >>> n) ||| (x <<< (32 - n))

private def bigEndian (width : Nat) (n : Nat) : Bytes :=
  (List.range width).map fun i => UInt8.ofNat (n >>> (8 * (width - 1 - i)))

private def word (bytes : Bytes) : UInt32 :=
  bytes.foldl (fun w b => (w <<< 8) ||| b.toUInt32) 0

private def padded (message : Bytes) : Bytes :=
  message ++ 0x80 :: List.replicate ((55 + 64 - message.length % 64) % 64) 0 ++
    bigEndian 8 (8 * message.length)

private def extend (words : List UInt32) : List UInt32 :=
  let w15 := words.getD 14 0
  let w2 := words.getD 1 0
  let s0 := rotr w15 7 ^^^ rotr w15 18 ^^^ (w15 >>> 3)
  let s1 := rotr w2 17 ^^^ rotr w2 19 ^^^ (w2 >>> 10)
  (words.getD 15 0 + s0 + words.getD 6 0 + s1) :: words

private def round (s : State) (kw : UInt32 × UInt32) : State :=
  let s1 := rotr s.e 6 ^^^ rotr s.e 11 ^^^ rotr s.e 25
  let ch := (s.e &&& s.f) ^^^ ((~~~s.e) &&& s.g)
  let t1 := s.h + s1 + ch + kw.1 + kw.2
  let s0 := rotr s.a 2 ^^^ rotr s.a 13 ^^^ rotr s.a 22
  let maj := (s.a &&& s.b) ^^^ (s.a &&& s.c) ^^^ (s.b &&& s.c)
  ⟨t1 + s0 + maj, s.a, s.b, s.c, s.d + t1, s.e, s.f, s.g⟩

private def compress (s : State) (block : Bytes) : State :=
  let words := (List.range 16).map fun i => word ((block.drop (4 * i)).take 4)
  let schedule := ((List.range 48).foldl (fun ws _ => extend ws) words.reverse).reverse
  let t := (roundConstants.zip schedule).foldl round s
  ⟨s.a + t.a, s.b + t.b, s.c + t.c, s.d + t.d, s.e + t.e, s.f + t.f, s.g + t.g, s.h + t.h⟩

def digest (message : Bytes) : Bytes :=
  let data := padded message
  let blocks := (List.range (data.length / 64)).map fun i => (data.drop (64 * i)).take 64
  (blocks.foldl compress initial).words.flatMap fun w => bigEndian 4 w.toNat

/-- A digest has 32 bytes. -/
theorem length_digest (message : Bytes) : (digest message).length = 32 := by
  simp [digest, State.words, bigEndian]

/-- HMAC with SHA-256; keys longer than a block are hashed first. -/
def hmac (key message : Bytes) : Bytes :=
  let short := if 64 < key.length then digest key else key
  let block := short ++ List.replicate (64 - short.length) 0
  digest (block.map (· ^^^ 0x5c) ++ digest (block.map (· ^^^ 0x36) ++ message))

/-- A tag has 32 bytes. -/
theorem length_hmac (key message : Bytes) : (hmac key message).length = 32 := length_digest _

end Sha256
