import SshKeySync.Std.Text

/-! UTF-8 bytes of a string, and the strict and the lossy decoder. Decoding of one
character is the core library's; the lossy decoder replaces each maximal ill-formed
prefix by one replacement character, as `Utf8Chunks` cuts them. -/
namespace RustStd

/-- `str::as_bytes`. -/
def utf8 (s : Str) : Bytes := s.flatMap String.utf8EncodeChar

/-- No allocation, and so no `String`, has more bytes. -/
def isizeMax : Nat := 0x7FFFFFFFFFFFFFFF

/-- `str::from_utf8`. -/
def fromUtf8 (b : Bytes) : Option Str := b.toByteArray.utf8Decode?.map Array.toList

private def continuation (b : UInt8) : Bool := 0x80 ≤ b && b ≤ 0xBF

private def secondByteOk (lead b : UInt8) : Bool :=
  (lead == 0xE0 && 0xA0 ≤ b && b ≤ 0xBF) || (0xE1 ≤ lead && lead ≤ 0xEC && continuation b) ||
  (lead == 0xED && 0x80 ≤ b && b ≤ 0x9F) || (0xEE ≤ lead && lead ≤ 0xEF && continuation b) ||
  (lead == 0xF0 && 0x90 ≤ b && b ≤ 0xBF) || (0xF1 ≤ lead && lead ≤ 0xF3 && continuation b) ||
  (lead == 0xF4 && 0x80 ≤ b && b ≤ 0x8F)

/-- Length of the ill-formed sequence at the front of bytes that do not start with a character. -/
def illFormedLength : Bytes → Nat
  | lead :: b :: rest =>
    if secondByteOk lead b then
      if 0xF0 ≤ lead && (rest.head?.map continuation).getD false then 3 else 2
    else 1
  | _ => 1

private def lossyFrom : Nat → Bytes → Str
  | 0, _ => []
  | _, [] => []
  | fuel+1, b => match b.toByteArray.utf8DecodeChar? 0 with
    | some c => c :: lossyFrom fuel (b.drop c.utf8Size)
    | none => '\uFFFD' :: lossyFrom fuel (b.drop (illFormedLength b))

/-- `String::from_utf8_lossy`. Each step consumes a byte, so the length is enough fuel. -/
def fromUtf8Lossy (b : Bytes) : Str := lossyFrom b.length b

theorem utf8_cons (c : Char) (s : Str) : utf8 (c :: s) = String.utf8EncodeChar c ++ utf8 s := rfl

@[simp] theorem utf8_append (s t : Str) : utf8 (s ++ t) = utf8 s ++ utf8 t := List.flatMap_append

/-- The bytes of a text are decoded to it. -/
theorem fromUtf8_utf8 (s : Str) : fromUtf8 (utf8 s) = some s := by
  have h : (utf8 s).toByteArray.utf8Decode? = some s.toArray := List.utf8Decode?_utf8Encode
  simp [fromUtf8, h]

/-- Different texts have different bytes. -/
theorem utf8_inj {s t : Str} (h : utf8 s = utf8 t) : s = t :=
  Option.some.inj ((fromUtf8_utf8 s).symm.trans (h ▸ fromUtf8_utf8 t))

private theorem decode_utf8_cons (c : Char) (s : Str) (rest : Bytes) :
    (utf8 (c :: s) ++ rest).toByteArray.utf8DecodeChar? 0 = some c := by
  rw [utf8_cons, List.append_assoc, List.toByteArray_append]
  exact ByteArray.utf8DecodeChar?_utf8EncodeChar_append

private theorem lossyFrom_utf8 (s : Str) (fuel : Nat) (h : (utf8 s).length ≤ fuel) :
    lossyFrom fuel (utf8 s) = s := by
  induction s generalizing fuel with
  | nil => cases fuel <;> rfl
  | cons c s ih =>
    have hc : 0 < (String.utf8EncodeChar c).length := by
      rw [String.length_utf8EncodeChar]; exact c.utf8Size_pos
    rw [utf8_cons, List.length_append] at h
    obtain ⟨fuel, rfl⟩ : ∃ n, fuel = n + 1 := ⟨fuel - 1, by omega⟩
    have hdecode := decode_utf8_cons c s []
    rw [List.append_nil] at hdecode
    have hdrop : (utf8 (c :: s)).drop c.utf8Size = utf8 s := by
      rw [utf8_cons, ← String.length_utf8EncodeChar, List.drop_left]
    obtain ⟨x, xs, hx⟩ : ∃ x xs, utf8 (c :: s) = x :: xs :=
      List.exists_cons_of_ne_nil fun he => by
        have hl := congrArg List.length he
        rw [utf8_cons, List.length_append, List.length_nil] at hl
        omega
    rw [hx] at hdecode hdrop ⊢
    simp only [lossyFrom, hdecode, hdrop]
    rw [ih fuel (by omega)]

/-- Well-formed bytes are decoded without replacement. -/
theorem fromUtf8Lossy_utf8 (s : Str) : fromUtf8Lossy (utf8 s) = s := lossyFrom_utf8 s _ le_rfl

/-- Only ASCII characters contribute bytes below 128, each its own code. -/
theorem mem_utf8_ascii {s : Str} {b : UInt8} (hb : b < 128) (h : b ∈ utf8 s) :
    ∃ c ∈ s, c.toNat = b.toNat := by
  obtain ⟨c, hc, hbc⟩ := List.mem_flatMap.mp h
  refine ⟨c, hc, ?_⟩
  have hlt := UInt8.lt_iff_toNat_lt.mp hb
  rw [show (128 : UInt8).toNat = 128 from rfl] at hlt
  unfold String.utf8EncodeChar at hbc
  have hv : c.val.toNat = c.toNat := rfl
  simp only [hv] at hbc
  split_ifs at hbc with h1 h2 h3
  · rw [List.mem_singleton.mp hbc, UInt8.toNat_ofNat']
    omega
  all_goals
    simp only [List.mem_cons, List.not_mem_nil, or_false] at hbc
    rcases hbc with rfl | rfl | rfl | rfl <;> simp only [UInt8.toNat_ofNat'] at hlt <;> omega

/-- An ASCII character is encoded by its own code. -/
theorem utf8_cons_ascii {c : Char} {s : Str} (h : c.toNat < 128) :
    ∃ b : UInt8, utf8 (c :: s) = b :: utf8 s ∧ b.toNat = c.toNat := by
  have hv : c.val.toNat = c.toNat := rfl
  refine ⟨c.toNat.toUInt8, ?_, ?_⟩
  · rw [utf8_cons, String.utf8EncodeChar]
    simp only [hv]
    rw [if_pos (by omega)]
    rfl
  · exact UInt8.toNat_ofNat_of_lt' (Nat.lt_trans h (by decide))

/-- ASCII text has one byte per character. -/
theorem utf8_length_ascii {s : Str} (h : ∀ c ∈ s, c.toNat < 128) : (utf8 s).length = s.length := by
  induction s with
  | nil => rfl
  | cons c s ih =>
    obtain ⟨hc, hs⟩ := List.forall_mem_cons.mp h
    have hv : c.val ≤ 127 := UInt32.le_iff_toNat_le.mpr (Nat.le_of_lt_succ hc)
    rw [utf8_cons, List.length_append, String.length_utf8EncodeChar,
      Char.utf8Size_eq_one_iff.mpr hv, ih hs, List.length_cons, Nat.add_comm]

end RustStd
