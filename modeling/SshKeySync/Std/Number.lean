import SshKeySync.Std.Lines

/-! Decimal text of the unsigned integer types, and their saturating arithmetic. -/
namespace RustStd

def digitValue (c : Char) : Option Nat := if c.isDigit then some (c.toNat - 48) else none

def parseDigits (s : Str) : Option Nat := s.foldlM (fun n c => (digitValue c).map (10 * n + ·)) 0

def stripPlus : Str → Str
  | '+' :: rest => rest
  | s => s

/-- `from_str` of an unsigned type with `size` values: one optional plus sign,
at least one digit, no overflow. Leading zeros are accepted. -/
def parseUnsigned (size : Nat) (s : Str) : Option Nat :=
  if stripPlus s = [] then none else (parseDigits (stripPlus s)).filter (· < size)

def parseU64 (s : Str) : Option UInt64 := (parseUnsigned UInt64.size s).map UInt64.ofNat
def parseU16 (s : Str) : Option UInt16 := (parseUnsigned UInt16.size s).map UInt16.ofNat

/-- `to_string` of an unsigned integer. -/
def decimal (n : Nat) : Str := Nat.toDigits 10 n

/-- The last digit of a number stands after those of its tenth part. -/
theorem decimal_step (n : Nat) :
    decimal n = (if n < 10 then [] else decimal (n / 10)) ++ [(n % 10).digitChar] := by
  split
  · rename_i h
    rw [decimal, Nat.toDigits_of_lt_base h, Nat.mod_eq_of_lt h]
    rfl
  · have hd : 10 * (n / 10) + n % 10 = n := Nat.div_add_mod n 10
    have hm : n % 10 < 10 := Nat.mod_lt n (by decide)
    have happ := Nat.toDigits_append_toDigits (b := 10) (by decide) (n := n / 10) (by omega) hm
    rw [hd, Nat.toDigits_of_lt_base hm] at happ
    exact happ.symm

/-- A number is written in digits. -/
theorem isDigit_of_mem_decimal {n : Nat} {c : Char} (h : c ∈ decimal n) : c.isDigit :=
  Nat.isDigit_of_mem_toDigits (by decide) (by decide) h

/-- There is at least one digit. -/
theorem decimal_ne_nil (n : Nat) : decimal n ≠ [] := by
  rw [decimal_step]
  simp

private theorem digitValue_digitChar {d : Nat} (h : d < 10) : digitValue d.digitChar = some d := by
  have hd : d.digitChar.isDigit := by rw [Nat.isDigit_digitChar]; simpa using h
  rw [digitValue, if_pos hd, Nat.toNat_digitChar_of_lt_ten h]
  simp

private theorem parseDigits_concat (s : Str) (c : Char) :
    parseDigits (s ++ [c]) = (parseDigits s).bind fun n => (digitValue c).map (10 * n + ·) := by
  simp [parseDigits, List.foldlM_append]

/-- Written digits are read back. -/
theorem parseDigits_decimal (n : Nat) : parseDigits (decimal n) = some n := by
  induction n using Nat.strong_induction_on with
  | _ n ih =>
    rw [decimal_step, parseDigits_concat, digitValue_digitChar (Nat.mod_lt n (by decide))]
    split
    · rename_i h
      simp [parseDigits, Nat.mod_eq_of_lt h]
    · rw [ih (n / 10) (by omega)]
      simp [Nat.div_add_mod]

/-- Different numbers are written differently. -/
theorem decimal_injective {m n : Nat} (h : decimal m = decimal n) : m = n := by
  have hp := congrArg parseDigits h
  simpa [parseDigits_decimal] using hp

private theorem stripPlus_decimal (n : Nat) : stripPlus (decimal n) = decimal n := by
  unfold stripPlus
  split
  · rename_i rest he
    have hc := isDigit_of_mem_decimal (n := n) (he ▸ List.mem_cons_self)
    exact absurd hc (by decide)
  · rfl

/-- What an integer prints is read back, within the type's range. -/
theorem parseUnsigned_decimal {size n : Nat} (h : n < size) :
    parseUnsigned size (decimal n) = some n := by
  rw [parseUnsigned, stripPlus_decimal, if_neg (decimal_ne_nil n), parseDigits_decimal]
  simp [h]

/-- A `u64` is read back from its digits. -/
theorem parseU64_decimal (n : UInt64) : parseU64 (decimal n.toNat) = some n := by
  simp [parseU64, parseUnsigned_decimal n.toNat_lt_size]

/-- A `u16` is read back from its digits. -/
theorem parseU16_decimal (n : UInt16) : parseU16 (decimal n.toNat) = some n := by
  simp [parseU16, parseUnsigned_decimal n.toNat_lt_size]

private theorem digit_plain {c : Char} (h : c.isDigit) : isWhitespace c = false ∧ c ≠ '\n' := by
  have hr : 48 ≤ c.toNat ∧ c.toNat ≤ 57 := by
    simpa [Char.isDigit, UInt32.le_iff_toNat_le] using h
  refine ⟨?_, by rintro rfl; simp at hr⟩
  simp [isWhitespace]
  omega

theorem decimal_whitespace_free (n : Nat) : ∀ c ∈ decimal n, isWhitespace c = false :=
  fun _ h => (digit_plain (isDigit_of_mem_decimal h)).1

theorem newline_not_mem_decimal (n : Nat) : '\n' ∉ decimal n :=
  fun h => (digit_plain (isDigit_of_mem_decimal h)).2 rfl

theorem decimal_unpadded (n : Nat) : Unpadded (decimal n) :=
  ⟨fun c h => decimal_whitespace_free n c (List.mem_of_head? h),
    fun c h => decimal_whitespace_free n c (List.mem_of_getLast? h)⟩

/-- `u64::saturating_sub`. -/
def saturatingSub (a b : UInt64) : UInt64 := if b ≤ a then a - b else 0

/-- `u64::saturating_add`. -/
def saturatingAdd (a b : UInt64) : UInt64 :=
  if a.toNat + b.toNat < UInt64.size then a + b else UInt64.ofNat (UInt64.size - 1)

@[simp] theorem toNat_saturatingSub (a b : UInt64) :
    (saturatingSub a b).toNat = a.toNat - b.toNat := by
  rw [saturatingSub]
  split
  · rename_i h
    exact UInt64.toNat_sub_of_le a b h
  · rename_i h
    have hlt := UInt64.lt_iff_toNat_lt.mp (UInt64.not_le.mp h)
    rw [Nat.sub_eq_zero_of_le hlt.le]
    rfl

@[simp] theorem toNat_saturatingAdd (a b : UInt64) :
    (saturatingAdd a b).toNat = min (a.toNat + b.toNat) (UInt64.size - 1) := by
  have ha := a.toNat_lt_size
  rw [saturatingAdd]
  split
  · rename_i h
    rw [UInt64.toNat_add, Nat.mod_eq_of_lt h]
    omega
  · rename_i h
    rw [UInt64.toNat_ofNat_of_lt' (by decide)]
    omega

end RustStd
