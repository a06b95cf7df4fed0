import SshKeySync.Runtime.EnvelopeCodec

/-! The two hex decoders. One walks characters and the other bytes, under the same check of the
byte length, and they are one function on every text. -/
namespace SshKeySync.Runtime
open RustStd Auth

/-- `from_hex` with its indices: the outer `none` is `bytes[idx + 1]` past the end. -/
def fromHexChecked (value : Str) : Option (Option Bytes) :=
  if (utf8 value).length % 2 ≠ 0 then some none else Hex.decodePairs UInt8.toNat (utf8 value)

private theorem fromHexChecked_eq (value : Str) : fromHexChecked value = some (fromHex value) := by
  rw [fromHexChecked, fromHex]
  split
  · rfl
  · rename_i heven
    exact decodePairs_of_even (not_not.mp heven)

/-- Walking characters under the byte check never runs off the end either, and comes to the same. -/
theorem decodeHexChecked_eq (value : Str) : decodeHexChecked value = some (fromHex value) := by
  rw [← fromHexChecked_eq, decodeHexChecked, fromHexChecked, decodeHexPairs_eq, Hex.decodePairs_utf8]

private theorem decodeHex_eq_fromHex (value : Str) : decodeHex value = fromHex value := by
  simp only [decodeHex, decodeHexChecked_eq, Option.get_some]

/-- The text of bytes in either case has two characters of one byte each for every byte. -/
theorem length_utf8_of_map_lowercase {value : Str} {bytes : Bytes} (h : value.map Hex.lowercase = Hex.encode bytes) :
    (utf8 value).length = 2 * bytes.length := by
  have hascii : ∀ c ∈ value, c.toNat < 128 := fun c hc =>
    Hex.lt_of_lowercase_lt (Hex.encode_ascii (h ▸ List.mem_map_of_mem hc))
  rw [utf8_length_ascii hascii, ← Hex.length_encode, ← h, List.length_map]

private theorem fromHex_eq_some_iff {value : Str} {bytes : Bytes} :
    fromHex value = some bytes ↔ value.map Hex.lowercase = Hex.encode bytes := by
  rw [← Hex.decodePairs_eq_some_iff]
  have hchecked := fromHexChecked_eq value
  rw [fromHexChecked, Hex.decodePairs_utf8] at hchecked
  split at hchecked
  · rename_i hodd
    refine iff_of_false (fun h => ?_) fun h => hodd ?_
    · rw [h] at hchecked
      cases hchecked
    · rw [length_utf8_of_map_lowercase (Hex.decodePairs_eq_some_iff.mp h), Nat.mul_mod_right]
  · rw [hchecked, Option.some.injEq]

/-- Neither decoder runs off its end, both are the same function, and what they decode is exactly the
text of bytes, in either case of its letters. -/
theorem hex_decoders_agree (value : Str) :
    decodeHexChecked value = some (fromHex value) ∧ fromHexChecked value = some (fromHex value) ∧
    decodeHex value = fromHex value ∧
    (∀ bytes, encodeHex bytes = toHex bytes ∧ decodeHex (encodeHex bytes) = some bytes ∧
      (decodeHex value = some bytes ↔ value.map Hex.lowercase = encodeHex bytes)) ∧
    (decodeHex value = none ↔ ∀ bytes, value.map Hex.lowercase ≠ encodeHex bytes) := by
  have hiff (bytes : Bytes) : decodeHex value = some bytes ↔ value.map Hex.lowercase = encodeHex bytes := by
    rw [decodeHex_eq_fromHex]
    exact fromHex_eq_some_iff
  refine ⟨decodeHexChecked_eq value, fromHexChecked_eq value, decodeHex_eq_fromHex value, fun bytes => ?_, ?_⟩
  · exact ⟨rfl, decodeHex_encodeHex bytes, hiff bytes⟩
  · rw [Option.eq_none_iff_forall_ne_some]
    exact forall_congr' fun bytes => not_congr (hiff bytes)

end SshKeySync.Runtime
