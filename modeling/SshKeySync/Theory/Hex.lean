import SshKeySync.Std.Lines
import SshKeySync.Std.Utf8

/-! Lowercase hexadecimal text of bytes. The value of a digit is given by its code, so
that decoders over characters and over bytes share it. -/
namespace Hex
open RustStd

def digits : Str := "0123456789abcdef".toList

def digit (nibble : UInt8) : Char := digits.getD nibble.toNat '0'

def encode (bytes : Bytes) : Str := bytes.flatMap fun b : UInt8 => [digit (b >>> 4), digit (b &&& 0x0f)]

/-- Value of the hexadecimal digit with a given code, in either case. -/
def nibble (code : Nat) : Option UInt8 :=
  if 48 ≤ code ∧ code ≤ 57 then some (UInt8.ofNat (code - 48))
  else if 97 ≤ code ∧ code ≤ 102 then some (UInt8.ofNat (code - 97 + 10))
  else if 65 ≤ code ∧ code ≤ 70 then some (UInt8.ofNat (code - 65 + 10))
  else none

def join (high low : UInt8) : UInt8 := (high <<< 4) ||| low

theorem encode_cons (b : UInt8) (bytes : Bytes) :
    encode (b :: bytes) = digit (b >>> 4) :: digit (b &&& 0x0f) :: encode bytes := rfl

/-- Only ASCII characters are digits. -/
theorem nibble_lt {code : Nat} {n : UInt8} (h : nibble code = some n) : code < 128 := by
  unfold nibble at h
  split_ifs at h <;> omega

/-- A digit has four bits. -/
theorem nibble_lt_sixteen {code : Nat} {n : UInt8} (h : nibble code = some n) : n < 16 := by
  unfold nibble at h
  rw [UInt8.lt_iff_toNat_lt, show (16 : UInt8).toNat = 16 from rfl]
  split_ifs at h
  all_goals
    obtain rfl := Option.some.inj h
    rw [UInt8.toNat_ofNat']
    omega

/-- Both digits of a byte have ASCII codes and give the byte back. -/
theorem nibble_digits (b : UInt8) : ∃ high low, nibble (digit (b >>> 4)).toNat = some high ∧
    nibble (digit (b &&& 0x0f)).toNat = some low ∧ join high low = b := by
  have hall : ∀ n < 256, nibble (digit (UInt8.ofNat n >>> 4)).toNat = some (UInt8.ofNat n >>> 4) ∧
      nibble (digit (UInt8.ofNat n &&& 0x0f)).toNat = some (UInt8.ofNat n &&& 0x0f) ∧
      join (UInt8.ofNat n >>> 4) (UInt8.ofNat n &&& 0x0f) = UInt8.ofNat n := by decide +kernel
  have hb := hall b.toNat b.toNat_lt
  rw [UInt8.ofNat_toNat] at hb
  exact ⟨_, _, hb⟩

/-- Hexadecimal text is ASCII without whitespace or separators. -/
theorem mem_encode {bytes : Bytes} {c : Char} (h : c ∈ encode bytes) : c ∈ digits := by
  obtain ⟨b, -, hc⟩ := List.mem_flatMap.mp h
  have hdigit : ∀ n : UInt8, digit n ∈ digits := by
    intro n
    rw [digit, List.getD_eq_getElem?_getD]
    rcases hn : digits[n.toNat]? with - | d
    · decide
    · exact List.mem_of_getElem? hn
  rcases List.mem_pair.mp hc with rfl | rfl <;> exact hdigit _

/-- Hex is ASCII. -/
theorem encode_ascii {bytes : Bytes} {c : Char} (h : c ∈ encode bytes) : c.toNat < 128 := by
  have hall : isAscii digits := by decide
  exact lt_of_isAscii hall c (mem_encode h)

/-- A byte takes two digits. -/
theorem length_encode (bytes : Bytes) : (encode bytes).length = 2 * bytes.length := by
  induction bytes with
  | nil => rfl
  | cons b bytes ih => simp only [encode_cons, List.length_cons, ih]; omega

/-- Hex has no whitespace. -/
theorem encode_whitespace_free (bytes : Bytes) : ∀ c ∈ encode bytes, isWhitespace c = false := by
  intro c hc
  have hall : Word digits := by decide
  exact hall.2 c (mem_encode hc)

/-- Different bytes have different digits. -/
theorem encode_injective {a b : Bytes} (h : encode a = encode b) : a = b := by
  induction a generalizing b with
  | nil => cases b with
    | nil => rfl
    | cons y b => cases h
  | cons x a ih => cases b with
    | nil => cases h
    | cons y b =>
      rw [encode_cons, encode_cons, List.cons.injEq, List.cons.injEq] at h
      obtain ⟨hh, hl, hrest⟩ := h
      obtain ⟨p, q, hp, hq, hx⟩ := nibble_digits x
      obtain ⟨p', q', hp', hq', hy⟩ := nibble_digits y
      rw [hh, hp'] at hp
      rw [hl, hq'] at hq
      cases hp
      cases hq
      rw [ih hrest, ← hx, hy]

def lowercase (c : Char) : Char := if 65 ≤ c.toNat ∧ c.toNat ≤ 70 then Char.ofNat (c.toNat + 32) else c

theorem lt_of_lowercase_lt {c : Char} (h : (lowercase c).toNat < 128) : c.toNat < 128 := by
  unfold lowercase at h
  split at h
  · omega
  · exact h

/-- Upper case digits are read as lower case ones. -/
theorem nibble_lowercase (c : Char) : nibble (lowercase c).toNat = nibble c.toNat := by
  by_cases hc : c.toNat < 128
  · have hall : ∀ code < 128, nibble (lowercase (Char.ofNat code)).toNat = nibble code := by decide +kernel
    have hcode := hall c.toNat hc
    rwa [Char.ofNat_toNat] at hcode
  · rw [lowercase, if_neg (by omega)]

/-- A digit that is read is the digit that would be written, in lower case. -/
theorem digit_of_nibble {c : Char} {n : UInt8} (h : nibble c.toNat = some n) : digit n = lowercase c := by
  have hall : ∀ code < 128, ∀ n ∈ nibble code, digit n = lowercase (Char.ofNat code) := by decide +kernel
  have hc := hall c.toNat (nibble_lt h) n h
  rwa [Char.ofNat_toNat] at hc

/-- A byte of two nibbles is written with their digits. -/
theorem encode_join {high low : UInt8} (hhigh : high < 16) (hlow : low < 16) (bytes : Bytes) :
    encode (join high low :: bytes) = digit high :: digit low :: encode bytes := by
  have hall : ∀ h < 16, ∀ l < 16, join (UInt8.ofNat h) (UInt8.ofNat l) >>> 4 = UInt8.ofNat h ∧
      join (UInt8.ofNat h) (UInt8.ofNat l) &&& 0x0f = UInt8.ofNat l := by decide +kernel
  have hjoin := hall high.toNat (UInt8.lt_iff_toNat_lt.mp hhigh) low.toNat (UInt8.lt_iff_toNat_lt.mp hlow)
  rw [UInt8.ofNat_toNat, UInt8.ofNat_toNat] at hjoin
  rw [encode_cons, hjoin.1, hjoin.2]

section
variable {α : Type} (code : α → Nat)

/-- A decoder that walks by two over symbols with codes. The outer `none` is an index past the end,
the inner one a symbol that is no digit. -/
def decodePairs : List α → Option (Option Bytes)
  | [] => some (some [])
  | c :: rest => match nibble (code c) with
    | none => some none
    | some high => match rest with
      | [] => none
      | d :: rest => match nibble (code d) with
        | none => some none
        | some low => (decodePairs rest).map (·.map (join high low :: ·))

variable {code}

/-- Running off the end takes an odd number of digits. -/
theorem decodePairs_overrun {value : List α} (h : decodePairs code value = none) :
    value.length % 2 = 1 ∧ ∀ c ∈ value, code c < 128 := by
  fun_induction decodePairs code value with
  | case1 => cases h
  | case2 => cases h
  | case3 c high hc =>
    exact ⟨rfl, fun x hx => by rw [List.mem_singleton.mp hx]; exact nibble_lt hc⟩
  | case4 => cases h
  | case5 c high hc d rest low hd ih =>
    obtain ⟨hodd, hascii⟩ := ih (by simpa using h)
    refine ⟨by simp only [List.length_cons]; omega, fun x hx => ?_⟩
    rcases List.mem_cons.mp hx with rfl | hx
    · exact nibble_lt hc
    · rcases List.mem_cons.mp hx with rfl | hx
      · exact nibble_lt hd
      · exact hascii x hx

end

/-- What was written is read back. -/
theorem decodePairs_encode (bytes : Bytes) : decodePairs Char.toNat (encode bytes) = some (some bytes) := by
  induction bytes with
  | nil => rfl
  | cons b bytes ih =>
    obtain ⟨high, low, hhigh, hlow, hb⟩ := nibble_digits b
    rw [encode_cons, decodePairs, hhigh]
    dsimp only
    rw [hlow, ih, ← hb]
    rfl

/-- The first byte of a character is a digit exactly when the character is, and then it is the
whole character. -/
theorem nibble_utf8 (c : Char) (s : Str) : ∃ b bytes, utf8 (c :: s) = b :: bytes ∧ nibble b.toNat = nibble c.toNat ∧
    ((nibble c.toNat).isSome → bytes = utf8 s) := by
  by_cases hc : c.toNat < 128
  · obtain ⟨b, hb, hcode⟩ := utf8_cons_ascii (s := s) hc
    exact ⟨b, utf8 s, hb, by rw [hcode], fun _ => rfl⟩
  · have hnone : nibble c.toNat = none := by
      by_contra hsome
      obtain ⟨n, hn⟩ := Option.ne_none_iff_exists'.mp hsome
      exact hc (nibble_lt hn)
    obtain ⟨b, bytes, hb⟩ : ∃ b bytes, String.utf8EncodeChar c = b :: bytes :=
      List.exists_cons_of_ne_nil fun hnil => by
        have hlength := c.utf8Size_pos
        rw [← String.length_utf8EncodeChar, hnil] at hlength
        exact Nat.lt_irrefl _ hlength
    have hmem : b ∈ utf8 [c] := by simp [utf8, hb]
    refine ⟨b, bytes ++ utf8 s, by rw [utf8_cons, hb]; rfl, ?_, fun hsome => by simp [hnone] at hsome⟩
    rw [hnone]
    by_contra hsome
    obtain ⟨n, hn⟩ := Option.ne_none_iff_exists'.mp hsome
    obtain ⟨c', hc', hcode⟩ := mem_utf8_ascii (UInt8.lt_iff_toNat_lt.mpr (nibble_lt hn)) hmem
    rw [List.mem_singleton.mp hc'] at hcode
    exact hc (hcode ▸ nibble_lt hn)

/-- Walking the bytes of a text and walking its characters come to the same. -/
theorem decodePairs_utf8 (value : Str) :
    decodePairs UInt8.toNat (utf8 value) = decodePairs Char.toNat value := by
  fun_induction decodePairs Char.toNat value with
  | case1 => rfl
  | case2 c rest hc =>
    obtain ⟨b, bytes, hb, hcode, -⟩ := nibble_utf8 c rest
    rw [hb, decodePairs, hcode, hc]
  | case3 c high hc =>
    obtain ⟨b, bytes, hb, hcode, hrest⟩ := nibble_utf8 c []
    rw [hb, decodePairs, hcode, hc, hrest (hc ▸ rfl)]
    rfl
  | case4 c high hc d rest hd =>
    obtain ⟨b, bytes, hb, hcode, hrest⟩ := nibble_utf8 c (d :: rest)
    obtain ⟨b', bytes', hb', hcode', -⟩ := nibble_utf8 d rest
    rw [hb, hrest (hc ▸ rfl), hb', decodePairs, hcode, hc]
    dsimp only
    rw [hcode', hd]
  | case5 c high hc d rest low hd ih =>
    obtain ⟨b, bytes, hb, hcode, hrest⟩ := nibble_utf8 c (d :: rest)
    obtain ⟨b', bytes', hb', hcode', hrest'⟩ := nibble_utf8 d rest
    rw [hb, hrest (hc ▸ rfl), hb', hrest' (hd ▸ rfl), decodePairs, hcode, hc]
    dsimp only
    rw [hcode', hd]
    dsimp only
    rw [ih]

/-- What is in lower case the text of bytes starts with the two digits of the first byte. -/
theorem digits_of_map_lowercase {c : Char} {rest : Str} {bytes : Bytes}
    (h : (c :: rest).map lowercase = encode bytes) : ∃ high d rest' low bytes', nibble c.toNat = some high ∧
      rest = d :: rest' ∧ nibble d.toNat = some low ∧ bytes = join high low :: bytes' ∧
      rest'.map lowercase = encode bytes' := by
  cases bytes with
  | nil => cases h
  | cons b bytes =>
    obtain ⟨high, low, hhigh, hlow, rfl⟩ := nibble_digits b
    rw [encode_cons, List.map_cons, List.cons.injEq] at h
    obtain ⟨hc, hrest⟩ := h
    obtain ⟨d, rest', rfl, hd, hrest'⟩ := List.map_eq_cons_iff.mp hrest
    rw [← hc, nibble_lowercase] at hhigh
    rw [← hd, nibble_lowercase] at hlow
    exact ⟨high, d, rest', low, bytes, hhigh, rfl, hlow, rfl, hrest'⟩

/-- Nothing decodes to bytes but their text, in either case of its letters. -/
theorem decodePairs_eq_some_iff {value : Str} {bytes : Bytes} :
    decodePairs Char.toNat value = some (some bytes) ↔ value.map lowercase = encode bytes := by
  fun_induction decodePairs Char.toNat value generalizing bytes with
  | case1 =>
    cases bytes with
    | nil => exact iff_of_true rfl rfl
    | cons b bytes => exact iff_of_false (fun h => by cases h) fun h => by cases h
  | case2 c rest hc =>
    refine iff_of_false (fun h => by cases h) fun h => ?_
    obtain ⟨high, d, rest', low, bytes', hhigh, -⟩ := digits_of_map_lowercase h
    cases hc.symm.trans hhigh
  | case3 c high hc =>
    refine iff_of_false (fun h => by cases h) fun h => ?_
    obtain ⟨high, d, rest', low, bytes', -, hrest, -⟩ := digits_of_map_lowercase h
    cases hrest
  | case4 c high hc d rest hd =>
    refine iff_of_false (fun h => by cases h) fun h => ?_
    obtain ⟨high, d', rest', low, bytes', -, hrest, hlow, -⟩ := digits_of_map_lowercase h
    cases hrest
    cases hd.symm.trans hlow
  | case5 c high hc d rest low hd ih =>
    constructor
    · intro h
      obtain ⟨decoded, hdecoded, hbytes⟩ := Option.map_eq_some_iff.mp h
      obtain ⟨bytes', rfl, rfl⟩ := Option.map_eq_some_iff.mp hbytes
      rw [List.map_cons, List.map_cons, ih.mp hdecoded, encode_join (nibble_lt_sixteen hc) (nibble_lt_sixteen hd),
        digit_of_nibble hc, digit_of_nibble hd]
    · intro h
      obtain ⟨high', d', rest', low', bytes', hhigh, hrest, hlow, rfl, htail⟩ := digits_of_map_lowercase h
      cases hrest
      cases hc.symm.trans hhigh
      cases hd.symm.trans hlow
      rw [ih.mpr htail]
      rfl

end Hex
