import Mathlib.Data.List.TakeWhile
import LoxScan.Number.Shortest
import LoxScan.Proofs.Rounding

/-! # Rows of digits

A row of decimal digits with the exponent of its first digit stands for a number, and so does a row
of hexadecimal digits.

* `rowValue` is the number of a row.  Zeros at the end do not change it, and zeros at the beginning
  only move the first digit.
* `Decimal.rowValue_digits`: the digits of a decimal, laid out as `NumberLayout.text` does it, are a
  row for its number, and `Decimal.pow_le_toRat` and `Decimal.toRat_lt_pow` bound this number by
  powers of ten.
* `hexValue` reads a hexadecimal number with letters of either case; `hexValue_hexDigits` and
  `hexValue_upperCase_hexDigits` say that it reads back what is written.
-/

namespace LoxScan

/-! ## Decimal rows -/

/-- The number of a row of digits, the first of which counts ten to some exponent. -/
def rowValue (digits : List Char) (exponent : Int) : ℚ :=
  (Nat.ofDigitChars 10 digits 0 : Nat) * 10 ^ (exponent + 1 - digits.length)

theorem rowValue_append_zeros (digits : List Char) (n : Nat) (exponent : Int) :
    rowValue (digits ++ List.replicate n '0') exponent = rowValue digits exponent := by
  have hexponent : exponent + 1 - digits.length
      = (n : Int) + (exponent + 1 - (digits ++ List.replicate n '0').length) := by
    rw [List.length_append, List.length_replicate]
    omega
  rw [rowValue, rowValue, hexponent, zpow_add₀ (by norm_num), zpow_natCast, ← mul_assoc,
    Nat.ofDigitChars_append, Nat.ofDigitChars_replicate_zero]
  push_cast
  rw [mul_comm ((10 : ℚ) ^ n)]

theorem rowValue_zeros_append (n : Nat) (digits : List Char) (exponent : Int) :
    rowValue (List.replicate n '0' ++ digits) exponent = rowValue digits (exponent - n) := by
  have hexponent : exponent - n + 1 - digits.length
      = exponent + 1 - (List.replicate n '0' ++ digits).length := by
    rw [List.length_append, List.length_replicate]
    omega
  rw [rowValue, rowValue, hexponent, Nat.ofDigitChars_append, Nat.ofDigitChars_replicate_zero,
    Nat.mul_zero]

theorem exists_stripTrailingZeros_append (digits : List Char) :
    ∃ n, digits = stripTrailingZeros digits ++ List.replicate n '0' := by
  refine ⟨(digits.reverse.takeWhile (· == '0')).length, ?_⟩
  have hzeros : digits.reverse.takeWhile (· == '0')
      = List.replicate (digits.reverse.takeWhile (· == '0')).length '0' := by
    apply List.eq_replicate_of_mem
    intro c hc
    simpa using List.mem_takeWhile_imp hc
  have hsplit := congrArg List.reverse (List.takeWhile_append_dropWhile (p := (· == '0'))
    (l := digits.reverse))
  rw [List.reverse_append, List.reverse_reverse, hzeros, List.reverse_replicate] at hsplit
  exact hsplit.symm

theorem rowValue_stripTrailingZeros (digits : List Char) (exponent : Int) :
    rowValue (stripTrailingZeros digits) exponent = rowValue digits exponent := by
  obtain ⟨n, hn⟩ := exists_stripTrailingZeros_append digits
  conv => rhs; rw [hn]
  rw [rowValue_append_zeros]

theorem mem_of_mem_stripTrailingZeros {digits : List Char} {c : Char}
    (h : c ∈ stripTrailingZeros digits) : c ∈ digits := by
  obtain ⟨n, hn⟩ := exists_stripTrailingZeros_append digits
  rw [hn]
  exact List.mem_append_left _ h

/-- Only rows of zeros are stripped of everything. -/
theorem stripTrailingZeros_ne_nil {digits : List Char} (h : Nat.ofDigitChars 10 digits 0 ≠ 0) :
    stripTrailingZeros digits ≠ [] := by
  intro hnil
  obtain ⟨n, hn⟩ := exists_stripTrailingZeros_append digits
  rw [hn, hnil, List.nil_append, Nat.ofDigitChars_replicate_zero] at h
  simp at h

/-! ## The digits of a decimal -/

theorem length_toDigits_spec {n : Nat} (h : n ≠ 0) :
    10 ^ ((Nat.toDigits 10 n).length - 1) ≤ n ∧ n < 10 ^ (Nat.toDigits 10 n).length := by
  have hpos : 0 < (Nat.toDigits 10 n).length := Nat.length_toDigits_pos
  constructor
  · rcases Nat.eq_zero_or_pos ((Nat.toDigits 10 n).length - 1) with hzero | hlong
    · rw [hzero]
      omega
    · by_contra hlt
      have hle := (Nat.length_toDigits_le_iff (by decide : 1 < 10) hlong).2 (Nat.lt_of_not_le hlt)
      omega
  · exact (Nat.length_toDigits_le_iff (by decide) hpos).1 (Nat.le_refl _)

namespace Decimal

def leadExponent (d : Decimal) : Int :=
  d.exponent + (Nat.toDigits 10 d.coefficient).length - 1

/-- The digits of a decimal without the zeros at their end. -/
def digits (d : Decimal) : List Char :=
  stripTrailingZeros (Nat.toDigits 10 d.coefficient)

variable {d : Decimal}

theorem isDigit_of_mem_digits {c : Char} (h : c ∈ d.digits) : c.isDigit = true :=
  Nat.isDigit_of_mem_toDigits (by decide) (by decide) (mem_of_mem_stripTrailingZeros h)

theorem digits_ne_nil (h : d.coefficient ≠ 0) : d.digits ≠ [] := by
  apply stripTrailingZeros_ne_nil
  rwa [Nat.ofDigitChars_ten_toDigits]

theorem rowValue_digits (d : Decimal) : rowValue d.digits d.leadExponent = d.toRat := by
  rw [digits, rowValue_stripTrailingZeros, rowValue, Nat.ofDigitChars_ten_toDigits, leadExponent,
    toRat]
  congr 2
  omega

theorem pow_le_toRat (h : d.coefficient ≠ 0) : 10 ^ d.leadExponent ≤ d.toRat := by
  have hpos : 0 < (Nat.toDigits 10 d.coefficient).length := Nat.length_toDigits_pos
  have hlead : d.leadExponent
      = (((Nat.toDigits 10 d.coefficient).length - 1 : Nat) : Int) + d.exponent := by
    rw [leadExponent]
    omega
  have hsize : (10 : ℚ) ^ ((Nat.toDigits 10 d.coefficient).length - 1) ≤ d.coefficient := by
    exact_mod_cast (length_toDigits_spec h).1
  rw [hlead, zpow_add₀ (by norm_num), zpow_natCast, toRat]
  exact mul_le_mul_of_nonneg_right hsize (by positivity)

theorem toRat_lt_pow (h : d.coefficient ≠ 0) : d.toRat < 10 ^ (d.leadExponent + 1) := by
  have hlead : d.leadExponent + 1
      = ((Nat.toDigits 10 d.coefficient).length : Int) + d.exponent := by
    rw [leadExponent]
    omega
  have hsize : (d.coefficient : ℚ) < 10 ^ (Nat.toDigits 10 d.coefficient).length := by
    exact_mod_cast (length_toDigits_spec h).2
  rw [hlead, zpow_add₀ (by norm_num), zpow_natCast, toRat]
  exact mul_lt_mul_of_pos_right hsize (by positivity)

/-- A power of ten is reached exactly if the first digit stands there or before. -/
theorem pow_le_toRat_iff (h : d.coefficient ≠ 0) (e : Int) :
    10 ^ e ≤ d.toRat ↔ e ≤ d.leadExponent := by
  constructor
  · intro hle
    have hlt := hle.trans_lt (toRat_lt_pow h)
    have hexponents := (zpow_lt_zpow_iff_right₀ (by norm_num : (1 : ℚ) < 10)).1 hlt
    omega
  · intro hle
    exact (zpow_le_zpow_right₀ (by norm_num) hle).trans (pow_le_toRat h)

end Decimal

/-! ## Hexadecimal rows -/

def hexDigitValue (c : Char) : Nat :=
  if c.isDigit then c.toNat - '0'.toNat else c.toLower.toNat - 'a'.toNat + 10

def hexValue (text : List Char) : Nat :=
  text.foldl (fun value c => 16 * value + hexDigitValue c) 0

theorem hexValue_append_singleton (text : List Char) (c : Char) :
    hexValue (text ++ [c]) = 16 * hexValue text + hexDigitValue c := by
  rw [hexValue, List.foldl_append, List.foldl_cons, List.foldl_nil, hexValue]

theorem hexDigitValue_digitChar {n : Nat} (h : n < 16) : hexDigitValue n.digitChar = n := by
  have hall : ∀ n < 16, hexDigitValue (Nat.digitChar n) = n := by
    decide
  exact hall n h

theorem hexValue_toDigits (n : Nat) : hexValue (Nat.toDigits 16 n) = n := by
  induction n using Nat.strongRecOn with
  | _ n ih =>
    rcases Nat.lt_or_ge n 16 with hlt | hge
    · rw [Nat.toDigits_of_lt_base hlt]
      simpa [hexValue] using hexDigitValue_digitChar hlt
    · rw [Nat.toDigits_of_base_le (by decide) hge, hexValue_append_singleton, ih _ (by omega),
        hexDigitValue_digitChar (by omega)]
      omega

theorem hexValue_zeros_append (n : Nat) (text : List Char) :
    hexValue (List.replicate n '0' ++ text) = hexValue text := by
  induction n with
  | zero => rfl
  | succ n ih =>
    rw [← ih]
    rfl

theorem hexValue_hexDigits (width n : Nat) : hexValue (hexDigits width n) = n := by
  rw [hexDigits, padLeft, hexValue_zeros_append, hexValue_toDigits]

/-- Hexadecimal digits are the characters of the numbers below sixteen. -/
theorem exists_of_mem_toDigits {n : Nat} {c : Char} (h : c ∈ Nat.toDigits 16 n) :
    ∃ digit < 16, c = Nat.digitChar digit := by
  induction n using Nat.strongRecOn with
  | _ n ih =>
    rcases Nat.lt_or_ge n 16 with hlt | hge
    · rw [Nat.toDigits_of_lt_base hlt, List.mem_singleton] at h
      exact ⟨n, hlt, h⟩
    · rw [Nat.toDigits_of_base_le (by decide) hge, List.mem_append, List.mem_singleton] at h
      rcases h with hmem | rfl
      · exact ih _ (by omega) hmem
      · exact ⟨n % 16, by omega, rfl⟩

theorem exists_of_mem_hexDigits {width n : Nat} {c : Char} (h : c ∈ hexDigits width n) :
    ∃ digit < 16, c = Nat.digitChar digit := by
  rw [hexDigits, padLeft, List.mem_append] at h
  rcases h with hzero | hmem
  · exact ⟨0, by decide, List.eq_of_mem_replicate hzero⟩
  · exact exists_of_mem_toDigits hmem

theorem hexDigitValue_toUpper {n : Nat} (h : n < 16) :
    hexDigitValue n.digitChar.toUpper = hexDigitValue n.digitChar := by
  have hall : ∀ n < 16, hexDigitValue (Nat.digitChar n).toUpper = hexDigitValue n.digitChar := by
    decide
  exact hall n h

theorem hexValue_upperCase {text : List Char}
    (h : ∀ c ∈ text, ∃ digit < 16, c = Nat.digitChar digit) :
    hexValue (upperCase text) = hexValue text := by
  induction text using List.reverseRecOn with
  | nil => rfl
  | append_singleton text c ih =>
    obtain ⟨digit, hdigit, rfl⟩ := h c (by simp)
    have htext : ∀ c ∈ text, ∃ digit < 16, c = Nat.digitChar digit :=
      fun c hc => h c (List.mem_append_left _ hc)
    rw [upperCase, List.map_append, List.map_singleton, hexValue_append_singleton, ← upperCase,
      ih htext, hexDigitValue_toUpper hdigit, hexValue_append_singleton]

theorem hexValue_upperCase_hexDigits (width n : Nat) :
    hexValue (upperCase (hexDigits width n)) = n := by
  rw [hexValue_upperCase fun c hc => exists_of_mem_hexDigits hc, hexValue_hexDigits]

end LoxScan
