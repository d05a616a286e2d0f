import Mathlib.Data.Nat.Log
import LoxScan.Proofs.MagnitudeValue

/-! # Rounding to the nearest magnitude

A quotient of natural numbers is rounded to the magnitude nearest to it, whatever their size.

* `nearestRank_roundHalfEven` rounds a quotient whose scale is known, `floorLog2Ratio_spec` finds
  the scale, and `exists_nearestRank_ofRatio` puts both together.
* `IsNearest` is the rule of rounding in terms of numbers alone: infinity is taken from the middle
  between the greatest number and the next power of two on.
* `Representable` numbers are those of the format, which are the finite magnitudes by
  `Magnitude.exists_toRat_eq_iff`.
* `Decimal.toRat` is the number of a decimal; `Decimal.isNearest_nearest` says that reading it
  follows the rule, and `Decimal.nearest_eq_iff` which decimals are read as the same magnitude.
-/

namespace LoxScan

/-! ## Powers with integer exponents -/

section Powers

variable {base : Nat} {e : Int}

theorem natPow_toNat (h : 0 ≤ e) : ((Nat.pow base e.toNat : Nat) : ℚ) = (base : ℚ) ^ e := by
  obtain ⟨n, rfl⟩ := Int.eq_ofNat_of_zero_le h
  simp

theorem natPow_neg_toNat (h : e < 0) :
    ((Nat.pow base (-e).toNat : Nat) : ℚ) = ((base : ℚ) ^ e)⁻¹ := by
  rw [natPow_toNat (by omega), zpow_neg]

end Powers

namespace Magnitude

variable {numerator denominator : Nat}

/-! ## Rounding at a scale -/

/-- The rounded quotient is the lower neighbour in the lower half, and the upper one in the upper
    half. -/
theorem roundHalfEven_cases (numerator denominator : Nat) :
    (2 * (numerator % denominator) ≤ denominator ∧
      roundHalfEven numerator denominator = numerator / denominator ∧
      (2 * (numerator % denominator) = denominator → numerator / denominator % 2 = 0)) ∨
    (denominator ≤ 2 * (numerator % denominator) ∧
      roundHalfEven numerator denominator = numerator / denominator + 1 ∧
      (2 * (numerator % denominator) = denominator → (numerator / denominator + 1) % 2 = 0)) := by
  simp only [roundHalfEven]
  generalize numerator / denominator = quotient
  generalize numerator % denominator = rest
  split
  · omega
  · split <;> omega

theorem ratio_eq_add (hpos : 0 < denominator) :
    (numerator / denominator : ℚ)
      = (numerator / denominator : Nat) + (numerator % denominator : Nat) / denominator := by
  have hne : (denominator : ℚ) ≠ 0 := by exact_mod_cast hpos.ne'
  have hdivmod : (denominator * (numerator / denominator : Nat)
      + (numerator % denominator : Nat) : ℚ) = numerator := by
    exact_mod_cast Nat.div_add_mod numerator denominator
  field_simp
  linarith

section Rest

variable {shift whole : Nat} {rest : ℚ} (hlarge : whole < 9007199254740992)
  (hsmall : shift = 0 ∨ 4503599627370496 ≤ whole)
include hlarge hsmall

theorem nearestRank_of_rest_le (hrest : 0 ≤ rest) (hhalf : 2 * rest ≤ 1)
    (heven : 2 * rest = 1 → whole % 2 = 0) :
    NearestRank ((whole + rest) * 2 ^ (leastScale + shift))
      (shift * 4503599627370496 + whole) := by
  have hunit := twoPow_pos (leastScale + shift)
  have hlower := rankValue_add hlarge.le hsmall
  have hnext : shift = 0 ∨ 4503599627370496 ≤ whole + 1 := by
    omega
  have hupper := rankValue_add hlarge hnext
  rw [Nat.succ_eq_add_one, ← Nat.add_assoc, Nat.cast_add_one] at hupper
  apply NearestRank.of_lower_half
  · rw [hlower]
    nlinarith
  · rw [hlower, hupper]
    nlinarith
  · intro hmiddle
    rw [hlower, hupper, ← add_mul, ← mul_assoc] at hmiddle
    have hsum := mul_right_cancel₀ hunit.ne' hmiddle
    have hwhole := heven (by linarith)
    omega

theorem nearestRank_of_le_rest (hrest : rest ≤ 1) (hhalf : 1 ≤ 2 * rest)
    (heven : 2 * rest = 1 → (whole + 1) % 2 = 0) :
    NearestRank ((whole + rest) * 2 ^ (leastScale + shift))
      (shift * 4503599627370496 + (whole + 1)) := by
  have hunit := twoPow_pos (leastScale + shift)
  have hlower := rankValue_add hlarge.le hsmall
  have hnext : shift = 0 ∨ 4503599627370496 ≤ whole + 1 := by
    omega
  have hupper := rankValue_add hlarge hnext
  rw [Nat.succ_eq_add_one, ← Nat.add_assoc, Nat.cast_add_one] at hupper
  rw [← Nat.add_assoc]
  apply NearestRank.of_upper_half
  · rw [hupper]
    nlinarith
  · rw [hlower, hupper]
    nlinarith
  · intro hmiddle
    rw [hlower, hupper, ← add_mul, ← mul_assoc] at hmiddle
    have hsum := mul_right_cancel₀ hunit.ne' hmiddle
    have hwhole := heven (by linarith)
    omega

end Rest

/-- Rounding the significand at the scale of the quotient finds the nearest rank. -/
theorem nearestRank_roundHalfEven {shift : Nat} (hpos : 0 < denominator)
    (hlarge : numerator / denominator < 9007199254740992)
    (hsmall : shift = 0 ∨ 4503599627370496 ≤ numerator / denominator) :
    NearestRank (numerator / denominator * 2 ^ (leastScale + shift))
      (shift * 4503599627370496 + roundHalfEven numerator denominator) := by
  have hposQ : (0 : ℚ) < denominator := by exact_mod_cast hpos
  have hmod := Nat.mod_lt numerator hpos
  have hmiddle : 2 * ((numerator % denominator : Nat) / denominator : ℚ) = 1 →
      2 * (numerator % denominator) = denominator := by
    rw [← mul_div_assoc, div_eq_one_iff_eq hposQ.ne']
    intro h
    exact_mod_cast h
  rw [ratio_eq_add hpos]
  rcases roundHalfEven_cases numerator denominator with ⟨hhalf, heq, heven⟩ | ⟨hhalf, heq, heven⟩
  · rw [heq]
    apply nearestRank_of_rest_le hlarge hsmall (by positivity) _ fun h => heven (hmiddle h)
    rw [← mul_div_assoc, div_le_one hposQ]
    exact_mod_cast hhalf
  · rw [heq]
    apply nearestRank_of_le_rest hlarge hsmall _ _ fun h => heven (hmiddle h)
    · rw [div_le_one hposQ]
      exact_mod_cast hmod.le
    · rw [← mul_div_assoc, one_le_div hposQ]
      exact_mod_cast hhalf

/-! ## The scale of a quotient -/

theorem reached_iff (hpos : 0 < denominator) (e : Int) :
    (if 0 ≤ e then decide (denominator * Nat.pow 2 e.toNat ≤ numerator)
      else decide (denominator ≤ numerator * Nat.pow 2 (-e).toNat)) = true ↔
      (2 : ℚ) ^ e ≤ numerator / denominator := by
  have hposQ : (0 : ℚ) < denominator := by exact_mod_cast hpos
  rw [le_div_iff₀ hposQ]
  split
  case isTrue he =>
    rw [decide_eq_true_eq, ← Nat.cast_ofNat (R := ℚ), ← natPow_toNat he, mul_comm]
    exact_mod_cast Iff.rfl
  case isFalse he =>
    have hpow := twoPow_pos e
    rw [decide_eq_true_eq, ← Nat.cast_le (α := ℚ), Nat.cast_mul, natPow_neg_toNat (by omega),
      Nat.cast_ofNat, ← div_eq_mul_inv, le_div_iff₀ hpow, mul_comm]

/-- The difference of the logarithms is off by less than one. -/
theorem log2_sub_log2_spec (hnum : 0 < numerator) (hpos : 0 < denominator) :
    (2 : ℚ) ^ ((numerator.log2 : Int) - denominator.log2 - 1) ≤ numerator / denominator ∧
      (numerator / denominator : ℚ) < 2 ^ ((numerator.log2 : Int) - denominator.log2 + 1) := by
  have hposQ : (0 : ℚ) < denominator := by exact_mod_cast hpos
  have hnumLow : (2 : ℚ) ^ numerator.log2 ≤ numerator := by
    exact_mod_cast Nat.log2_self_le hnum.ne'
  have hnumHigh : (numerator : ℚ) < 2 ^ (numerator.log2 + 1) := by
    exact_mod_cast Nat.lt_log2_self (n := numerator)
  have hdenLow : (2 : ℚ) ^ denominator.log2 ≤ denominator := by
    exact_mod_cast Nat.log2_self_le hpos.ne'
  have hdenHigh : (denominator : ℚ) < 2 ^ (denominator.log2 + 1) := by
    exact_mod_cast Nat.lt_log2_self (n := denominator)
  rw [← zpow_natCast] at hnumLow hnumHigh hdenLow hdenHigh
  constructor
  · rw [le_div_iff₀ hposQ]
    have hpow := twoPow_pos ((numerator.log2 : Int) - denominator.log2 - 1)
    calc (2 : ℚ) ^ ((numerator.log2 : Int) - denominator.log2 - 1) * denominator
        ≤ 2 ^ ((numerator.log2 : Int) - denominator.log2 - 1)
            * 2 ^ ((denominator.log2 + 1 : Nat) : Int) := by
          exact mul_le_mul_of_nonneg_left hdenHigh.le hpow.le
      _ = 2 ^ (numerator.log2 : Int) := by
          rw [← zpow_add₀ two_ne_zero]
          congr 1
          push_cast
          omega
      _ ≤ numerator := hnumLow
  · rw [div_lt_iff₀ hposQ]
    have hpow := twoPow_pos ((numerator.log2 : Int) - denominator.log2 + 1)
    calc (numerator : ℚ) < 2 ^ ((numerator.log2 + 1 : Nat) : Int) := hnumHigh
      _ = 2 ^ ((numerator.log2 : Int) - denominator.log2 + 1) * 2 ^ (denominator.log2 : Int) := by
          rw [← zpow_add₀ two_ne_zero]
          congr 1
          push_cast
          omega
      _ ≤ 2 ^ ((numerator.log2 : Int) - denominator.log2 + 1) * denominator := by
          exact mul_le_mul_of_nonneg_left hdenLow hpow.le

theorem floorLog2Ratio_spec (hnum : 0 < numerator) (hpos : 0 < denominator) :
    (2 : ℚ) ^ floorLog2Ratio numerator denominator ≤ numerator / denominator ∧
      (numerator / denominator : ℚ) < 2 ^ (floorLog2Ratio numerator denominator + 1) := by
  obtain ⟨hbelow, habove⟩ := log2_sub_log2_spec hnum hpos
  have hreached := @reached_iff numerator denominator hpos
    ((numerator.log2 : Int) - denominator.log2)
  by_cases h : (2 : ℚ) ^ ((numerator.log2 : Int) - denominator.log2) ≤ numerator / denominator
  · rw [floorLog2Ratio, if_pos (hreached.2 h)]
    exact ⟨h, habove⟩
  · rw [floorLog2Ratio, if_neg (mt hreached.1 h), Int.sub_add_cancel]
    exact ⟨hbelow, not_le.1 h⟩

/-- At a scale of 52 binades less a quotient has at most 53 binary digits. -/
theorem div_lt_of_scale {log scale : Int} (hpos : 0 < denominator) (hscale : log ≤ scale + 52)
    (h : (numerator / denominator * 2 ^ scale : ℚ) < 2 ^ (log + 1)) :
    numerator / denominator < 9007199254740992 := by
  have hposQ : (0 : ℚ) < denominator := by exact_mod_cast hpos
  have hpow := twoPow_pos scale
  have hlarge : (2 : ℚ) ^ (log + 1) ≤ 9007199254740992 * 2 ^ scale := by
    calc (2 : ℚ) ^ (log + 1) ≤ 2 ^ (53 + scale) := zpow_le_zpow_right₀ one_le_two (by omega)
      _ = 9007199254740992 * 2 ^ scale := by
        rw [zpow_add₀ two_ne_zero]
        norm_num
  have hlt := lt_of_mul_lt_mul_right (h.trans_le hlarge) hpow.le
  rw [div_lt_iff₀ hposQ] at hlt
  rw [Nat.div_lt_iff_lt_mul hpos]
  exact_mod_cast hlt

/-- At a scale of 52 binades less a quotient has at least 53 binary digits. -/
theorem le_div_of_scale {log scale : Int} (hpos : 0 < denominator) (hscale : scale + 52 ≤ log)
    (h : (2 : ℚ) ^ log ≤ numerator / denominator * 2 ^ scale) :
    4503599627370496 ≤ numerator / denominator := by
  have hposQ : (0 : ℚ) < denominator := by exact_mod_cast hpos
  have hpow := twoPow_pos scale
  have hsmall : 4503599627370496 * 2 ^ scale ≤ (2 : ℚ) ^ log := by
    calc 4503599627370496 * (2 : ℚ) ^ scale = 2 ^ (52 + scale) := by
          rw [zpow_add₀ two_ne_zero]
          norm_num
      _ ≤ 2 ^ log := zpow_le_zpow_right₀ one_le_two (by omega)
  have hle := le_of_mul_le_mul_right (hsmall.trans h) hpow
  rw [le_div_iff₀ hposQ] at hle
  rw [Nat.le_div_iff_mul_le hpos]
  exact_mod_cast hle

/-! ## Rounding a quotient -/

/-- Rounding at a scale is rounding another quotient, which is smaller by that scale. -/
theorem exists_roundScaled_eq (numerator : Nat) (hpos : 0 < denominator) (scale : Int) :
    ∃ n d : Nat, 0 < d ∧ (n / d * 2 ^ scale : ℚ) = numerator / denominator ∧
      roundScaled numerator denominator scale = roundHalfEven n d := by
  have hposQ : (0 : ℚ) < denominator := by exact_mod_cast hpos
  have hpow := twoPow_pos scale
  rw [roundScaled]
  split
  case isTrue h =>
    refine ⟨numerator, denominator * Nat.pow 2 scale.toNat,
      Nat.mul_pos hpos (Nat.pow_pos Nat.zero_lt_two), ?_, rfl⟩
    rw [Nat.cast_mul, natPow_toNat h, Nat.cast_ofNat]
    field_simp
  case isFalse h =>
    refine ⟨numerator * Nat.pow 2 (-scale).toNat, denominator, hpos, ?_, rfl⟩
    rw [Nat.cast_mul, natPow_neg_toNat (by omega), Nat.cast_ofNat]
    field_simp

/-- The magnitude of a quotient has the nearest rank, with infinity for all ranks that are too
    large. -/
theorem exists_nearestRank_ofRatio (numerator : Nat) (hpos : 0 < denominator) :
    ∃ rank, NearestRank (numerator / denominator) rank ∧
      ofRatio numerator denominator = ofRank rank := by
  rw [ofRatio]
  split
  case isTrue h =>
    have hself := NearestRank.self 0
    rw [rankValue_zero] at hself
    subst h
    refine ⟨0, ?_, rfl⟩
    simpa using hself
  case isFalse h =>
    obtain ⟨hlow, hhigh⟩ := floorLog2Ratio_spec (Nat.pos_of_ne_zero h) hpos
    refine ⟨_, ?_, rfl⟩
    generalize floorLog2Ratio numerator denominator = log at *
    have hfraction : (fractionBits : Int) = 52 := rfl
    have hleast : leastScale = -1074 := rfl
    generalize hscale : max leastScale (log - fractionBits) = scale at *
    have hshift : leastScale + (scale - leastScale).toNat = scale := by
      omega
    obtain ⟨n, d, hd, hvalue, hround⟩ := exists_roundScaled_eq numerator hpos scale
    rw [← hvalue] at hlow hhigh
    rw [hround, ← hvalue, natPow_fractionBits]
    have hlarge := div_lt_of_scale hd (by omega) hhigh
    -- Only at the least scale there may be fewer than 53 binary digits.
    have hsmall : (scale - leastScale).toNat = 0 ∨ 4503599627370496 ≤ n / d := by
      rcases Int.lt_or_le log (scale + fractionBits) with hlt | hle
      · omega
      · exact .inr (le_div_of_scale hd hle hlow)
    have hnearest := nearestRank_roundHalfEven hd hlarge hsmall
    rwa [hshift] at hnearest

end Magnitude

/-! ## The rule of rounding -/

/-- The middle between the greatest number and the power of two after it. -/
def overflowBound : ℚ :=
  2 ^ (1024 : Int) - 2 ^ (970 : Int)

/-- A magnitude is the nearest to a number: infinity from `overflowBound` on, and below it a number
    that no other one is nearer than, with an even significand if another one is as near. -/
structure IsNearest (q : ℚ) (x : Magnitude) : Prop where
  isInfinite_iff : x.isInfinite = true ↔ overflowBound ≤ q
  le : x.isInfinite = false → ∀ y : Magnitude, y.isInfinite = false →
    |q - x.toRat| ≤ |q - y.toRat|
  even : x.isInfinite = false → ∀ y : Magnitude, y.isInfinite = false → y ≠ x →
    |q - y.toRat| = |q - x.toRat| → x.significand % 2 = 0

theorem rankValue_infinityRank : rankValue infinityRank = 2 ^ (1024 : Int) := by
  have hrank : infinityRank = 2046 * 4503599627370496 + 4503599627370496 := rfl
  have hleast : leastScale + (2046 : Nat) = 972 := rfl
  rw [hrank, rankValue_add (by omega) (by omega), hleast, (by norm_num : (1024 : Int) = 52 + 972),
    zpow_add₀ two_ne_zero]
  norm_num

/-- Every number with 53 binary digits at a scale from the least one on has a rank. -/
theorem exists_rankValue_eq {significand : Nat} (hlarge : significand < 9007199254740992)
    (shift : Nat) : ∃ rank, rankValue rank = significand * 2 ^ (leastScale + shift) := by
  induction shift generalizing significand with
  | zero => exact ⟨_, rankValue_add hlarge.le (.inl rfl)⟩
  | succ shift ih =>
    rcases Nat.lt_or_ge significand 4503599627370496 with hlt | hge
    · -- A short significand has another digit at the scale below.
      have htwice : 2 * significand < 9007199254740992 := by
        omega
      obtain ⟨rank, hrank⟩ := ih htwice
      refine ⟨rank, ?_⟩
      rw [hrank, Nat.cast_succ, ← add_assoc, twoPow_succ]
      push_cast
      ring
    · exact ⟨_, rankValue_add hlarge.le (.inr hge)⟩

/-- The numbers of the format: 53 binary digits at a scale from -1074 to 971. -/
def Representable (q : ℚ) : Prop :=
  ∃ (significand : Nat) (scale : Int), significand < 2 ^ 53 ∧ -1074 ≤ scale ∧ scale ≤ 971 ∧
    q = significand * 2 ^ scale

theorem Magnitude.exists_toRat_eq_iff {q : ℚ} :
    (∃ x : Magnitude, x.isInfinite = false ∧ x.toRat = q) ↔ Representable q := by
  have hleast : leastScale = -1074 := rfl
  constructor
  · rintro ⟨x, hx, rfl⟩
    have hsize : infinityRank = 9218868437227405312 := rfl
    have hbinade : x.binade = x.rank / 4503599627370496 := rfl
    rw [isInfinite_eq_false_iff] at hx
    refine ⟨x.significand, x.scale, ?_, ?_, ?_, rfl⟩
    · rw [significand, natPow_fractionBits]
      split <;> omega
    · rw [Magnitude.scale]
      split <;> omega
    · rw [Magnitude.scale]
      split <;> omega
  · rintro ⟨significand, scale, hlarge, hscale, hhigh, rfl⟩
    obtain ⟨rank, hrank⟩ := exists_rankValue_eq hlarge (scale - leastScale).toNat
    have hsame : leastScale + (scale - leastScale).toNat = scale := by
      omega
    rw [hsame] at hrank
    have hpow := twoPow_pos scale
    have hlt : rankValue rank < rankValue infinityRank := by
      calc rankValue rank = significand * 2 ^ scale := hrank
        _ < 9007199254740992 * 2 ^ scale := by
          apply mul_lt_mul_of_pos_right _ hpow
          exact_mod_cast hlarge
        _ = 2 ^ (53 + scale) := by
          rw [zpow_add₀ two_ne_zero]
          norm_num
        _ ≤ 2 ^ (1024 : Int) := zpow_le_zpow_right₀ one_le_two (by omega)
        _ = rankValue infinityRank := rankValue_infinityRank.symm
    have hfinite := rankValue_strictMono.lt_iff_lt.1 hlt
    refine ⟨⟨rank, hfinite.le⟩, isInfinite_eq_false_iff.2 hfinite, ?_⟩
    rw [toRat_eq, hrank]

/-- Of the numbers of the format none is nearer than the nearest magnitude, which is one of them. -/
theorem IsNearest.representable {q : ℚ} {x : Magnitude} (h : IsNearest q x)
    (hx : x.isInfinite = false) :
    Representable x.toRat ∧ ∀ p, Representable p → |q - x.toRat| ≤ |q - p| := by
  refine ⟨Magnitude.exists_toRat_eq_iff.1 ⟨x, hx, rfl⟩, fun p hp => ?_⟩
  obtain ⟨y, hy, rfl⟩ := Magnitude.exists_toRat_eq_iff.2 hp
  exact h.le hx y hy

/-- Infinity is rounded to from the middle between it and the rank below it on. -/
theorem rankValue_add_rankValue_infinityRank :
    rankValue (infinityRank - 1) + rankValue infinityRank = 2 * overflowBound := by
  have hrank : infinityRank - 1 = 2045 * 4503599627370496 + 9007199254740991 := rfl
  have hleast : leastScale + (2045 : Nat) = 971 := rfl
  rw [rankValue_infinityRank, hrank, rankValue_add (by omega) (by omega), hleast, overflowBound,
    (by norm_num : (1024 : Int) = 54 + 970), (by norm_num : (971 : Int) = 1 + 970),
    zpow_add₀ two_ne_zero, zpow_add₀ two_ne_zero]
  generalize (2 : ℚ) ^ (970 : Int) = unit
  norm_num
  ring

theorem Magnitude.significand_mod_two (x : Magnitude) : x.significand % 2 = x.rank % 2 := by
  rw [significand, natPow_fractionBits]
  split <;> omega

theorem NearestRank.infinityRank_le_iff {q : ℚ} {rank : Nat} (h : NearestRank q rank) :
    infinityRank ≤ rank ↔ overflowBound ≤ q := by
  have hmiddle := rankValue_add_rankValue_infinityRank
  have hsize : infinityRank = 9218868437227405312 := rfl
  obtain ⟨hup, hdown, heven⟩ := nearestRank_iff.1 h
  constructor
  · intro hle
    have hbelow := hdown (infinityRank - 1) (by omega)
    have hmono := rankValue_strictMono.monotone hle
    linarith
  · intro hle
    by_contra hlt
    have habove := hup infinityRank (by omega)
    have hmono : rankValue rank ≤ rankValue (infinityRank - 1) :=
      rankValue_strictMono.monotone (by omega)
    -- The number is the middle, so the rank is the greatest finite one, which is odd.
    have hrank : rank = infinityRank - 1 := by
      apply rankValue_strictMono.injective
      linarith
    have hodd := heven infinityRank (by omega) (by linarith)
    omega

theorem NearestRank.isNearest {q : ℚ} {rank : Nat} (h : NearestRank q rank) :
    IsNearest q (Magnitude.ofRank rank) := by
  have hfinite : (Magnitude.ofRank rank).isInfinite = false →
      (Magnitude.ofRank rank).rank = rank := by
    rw [Magnitude.isInfinite_eq_false_iff, Magnitude.rank_ofRank]
    omega
  constructor
  · rw [Magnitude.isInfinite_eq_true_iff, Magnitude.rank_ofRank, ← h.infinityRank_le_iff]
    omega
  · intro hx y hy
    rw [Magnitude.toRat_eq, Magnitude.toRat_eq, hfinite hx]
    exact h.le y.rank
  · intro hx y hy hne htie
    rw [Magnitude.toRat_eq, Magnitude.toRat_eq, hfinite hx] at htie
    rw [Magnitude.significand_mod_two, hfinite hx]
    refine h.even y.rank (fun hrank => hne (Magnitude.ext_rank ?_)) htie
    rw [hfinite hx, hrank]

/-! ## Reading decimals -/

namespace Decimal

def toRat (d : Decimal) : ℚ :=
  d.coefficient * 10 ^ d.exponent

theorem exists_nearestRank (d : Decimal) :
    ∃ rank, NearestRank d.toRat rank ∧ d.nearest = Magnitude.ofRank rank := by
  rw [nearest, toRat]
  split
  case isTrue h =>
    obtain ⟨rank, hrank, heq⟩ := Magnitude.exists_nearestRank_ofRatio
      (d.coefficient * Nat.pow 10 d.exponent.toNat) Nat.one_pos
    refine ⟨rank, ?_, heq⟩
    rwa [Nat.cast_mul, natPow_toNat h, Nat.cast_ofNat, Nat.cast_one, div_one] at hrank
  case isFalse h =>
    have hpow : 0 < Nat.pow 10 (-d.exponent).toNat := Nat.pow_pos (by decide)
    obtain ⟨rank, hrank, heq⟩ := Magnitude.exists_nearestRank_ofRatio d.coefficient hpow
    refine ⟨rank, ?_, heq⟩
    rwa [natPow_neg_toNat (by omega), Nat.cast_ofNat, div_inv_eq_mul] at hrank

theorem isNearest_nearest (d : Decimal) : IsNearest d.toRat d.nearest := by
  obtain ⟨rank, hrank, heq⟩ := d.exists_nearestRank
  rw [heq]
  exact hrank.isNearest

theorem rank_nearest_le {a b : Decimal} (h : a.toRat ≤ b.toRat) :
    a.nearest.rank ≤ b.nearest.rank := by
  obtain ⟨i, hi, ha⟩ := a.exists_nearestRank
  obtain ⟨j, hj, hb⟩ := b.exists_nearestRank
  have hij := hi.mono hj h
  rw [ha, hb, Magnitude.rank_ofRank, Magnitude.rank_ofRank]
  omega

theorem nearest_congr {a b : Decimal} (h : a.toRat = b.toRat) : a.nearest = b.nearest :=
  Magnitude.ext_rank (Nat.le_antisymm (rank_nearest_le h.le) (rank_nearest_le h.ge))

theorem nearest_eq_iff {d : Decimal} {x : Magnitude} (hx : x.isInfinite = false) :
    d.nearest = x ↔ NearestRank d.toRat x.rank := by
  obtain ⟨rank, hrank, heq⟩ := d.exists_nearestRank
  rw [Magnitude.isInfinite_eq_false_iff] at hx
  rw [heq]
  constructor
  · rintro rfl
    rw [Magnitude.rank_ofRank] at hx ⊢
    rwa [Nat.min_eq_left (by omega)]
  · intro h
    obtain rfl := hrank.unique h
    apply Magnitude.ext_rank
    rw [Magnitude.rank_ofRank]
    omega

theorem nearest_of_toRat_eq {d : Decimal} {x : Magnitude} (hx : x.isInfinite = false)
    (h : d.toRat = x.toRat) : d.nearest = x := by
  rw [nearest_eq_iff hx, h, Magnitude.toRat_eq]
  exact NearestRank.self x.rank

end Decimal

end LoxScan
