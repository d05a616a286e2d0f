import LoxScan.Proofs.ShortestDecimal

/-! # No shorter decimal reads back

The decimal that is printed for a magnitude has the fewest digits of all that read back to it, and
is nearest to it among those with that many digits.

* `Decimal.gridBelow` and `Decimal.gridAbove` are the neighbours of a decimal on a coarser grid, and
  `Decimal.le_gridBelow_or_gridAbove_le` says that no number with that few digits lies between them.
* `Magnitude.exists_onGrid?`: if any number with some digits reads back, one of the neighbours
  does.  `Magnitude.exists_onGrid?_seventeen`: seventeen digits are always enough.
* `Magnitude.isShortest_shortest` puts this together.
-/

namespace LoxScan

/-! ## Searching for the first -/

/-- The first hit in a search is not behind any other. -/
theorem exists_findSome?_range {α : Type} {f : Nat → Option α} {n k : Nat} {b : α} (hk : k < n)
    (h : f k = some b) : ∃ i a, i ≤ k ∧ f i = some a ∧ (∀ j < i, f j = none) ∧
      (List.range n).findSome? f = some a := by
  -- The last number that is tried matters only if there is no hit before it.
  induction n generalizing k b with
  | zero => omega
  | succ n ih =>
    rw [List.range_succ, List.findSome?_append]
    by_cases hfound : ∃ j a, j < n ∧ f j = some a ∧ j ≤ k
    · obtain ⟨j, a, hj, ha, hjk⟩ := hfound
      obtain ⟨i, a, hi, ha, hfirst, hsearch⟩ := ih hj ha
      refine ⟨i, a, hi.trans hjk, ha, hfirst, ?_⟩
      rw [hsearch, Option.some_or]
    · have hnone : ∀ j < n, j ≤ k → f j = none := by
        intro j hj hjk
        cases hf : f j with
        | none => rfl
        | some a => exact absurd ⟨j, a, hj, hf, hjk⟩ hfound
      obtain rfl : k = n := by
        rcases Nat.lt_or_ge k n with hlt | hge
        · rw [hnone k hlt (Nat.le_refl k)] at h
          cases h
        · omega
      refine ⟨k, b, Nat.le_refl k, h, fun j hj => hnone j hj hj.le, ?_⟩
      rw [List.findSome?_eq_none_iff.2 fun j hj => hnone j (List.mem_range.1 hj)
        (List.mem_range.1 hj).le, Option.none_or]
      simpa using h

/-! ## Numbers of digits -/

theorem ofDigitChars_lt {digits : List Char} (h : ∀ c ∈ digits, c.isDigit = true) :
    Nat.ofDigitChars 10 digits 0 < 10 ^ digits.length := by
  induction digits using List.reverseRecOn with
  | nil => decide
  | append_singleton digits c ih =>
    have hc : c.toNat - '0'.toNat ≤ 9 := by
      have hdigit := h c (by simp)
      simp only [Char.isDigit, Bool.and_eq_true, decide_eq_true_eq] at hdigit
      have hle : c.toNat ≤ 57 := hdigit.2
      have hzero : '0'.toNat = 48 := rfl
      omega
    have hrest := ih fun c hc => h c (List.mem_append_left _ hc)
    rw [Nat.ofDigitChars_append, Nat.ofDigitChars_cons, List.length_append, List.length_singleton,
      pow_succ]
    simp only [Nat.ofDigitChars_nil]
    omega

theorem length_stripTrailingZeros_le (digits : List Char) :
    (stripTrailingZeros digits).length ≤ digits.length := by
  obtain ⟨n, hn⟩ := exists_stripTrailingZeros_append digits
  have hlength := congrArg List.length hn
  rw [List.length_append] at hlength
  omega

/-- A power of ten has one digit and zeros behind it. -/
theorem length_stripTrailingZeros_tenPow (k : Nat) :
    (stripTrailingZeros (Nat.toDigits 10 (10 ^ k))).length ≤ 1 := by
  induction k with
  | zero => decide
  | succ k ih =>
    have hge : 10 ≤ 10 ^ (k + 1) := Nat.le_self_pow (by omega) 10
    have hdiv : 10 ^ (k + 1) / 10 = 10 ^ k := by
      rw [pow_succ]
      omega
    have hmod : 10 ^ (k + 1) % 10 = 0 := by
      rw [pow_succ]
      omega
    rw [Nat.toDigits_of_base_le (by decide) hge, hdiv, hmod]
    simpa [stripTrailingZeros] using ih

namespace Decimal

variable {d : Decimal}

theorem exists_toRat_eq (d : Decimal) : ∃ (m : Nat) (p : Int), m < 10 ^ d.digits.length ∧
    d.toRat = m * 10 ^ p := by
  refine ⟨Nat.ofDigitChars 10 d.digits 0, d.leadExponent + 1 - d.digits.length,
    ofDigitChars_lt fun c hc => isDigit_of_mem_digits hc, ?_⟩
  rw [← rowValue_digits, rowValue]

theorem length_digits_le {k : Nat} (hk : 0 < k) (h : d.coefficient ≤ 10 ^ k) :
    d.digits.length ≤ k := by
  rw [digits]
  rcases Nat.lt_or_eq_of_le h with hlt | heq
  · have hdigits := (Nat.length_toDigits_le_iff (by decide : 1 < 10) hk).2 hlt
    exact (length_stripTrailingZeros_le _).trans hdigits
  · rw [heq]
    exact (length_stripTrailingZeros_tenPow k).trans hk

def size (d : Decimal) : Nat :=
  (Nat.toDigits 10 d.coefficient).length

theorem size_pos (d : Decimal) : 0 < d.size :=
  Nat.length_toDigits_pos

section Size

variable {i : Nat} (h : d.coefficient ≠ 0) (hi : i < d.size)
include h hi

theorem pow_mul_dropped_le : 10 ^ i * Nat.pow 10 (d.size - (i + 1)) ≤ d.coefficient := by
  have hsize : i + (d.size - (i + 1)) = d.size - 1 := by omega
  rw [Nat.pow_eq, ← pow_add, hsize]
  exact (length_toDigits_spec h).1

theorem lt_pow_mul_dropped : d.coefficient < 10 ^ (i + 1) * Nat.pow 10 (d.size - (i + 1)) := by
  have hsize : i + 1 + (d.size - (i + 1)) = d.size := by omega
  rw [Nat.pow_eq, ← pow_add, hsize]
  exact (length_toDigits_spec h).2

end Size

/-! ## Neighbours on a grid -/

/-- The greatest number on a coarser grid that is not above a decimal. -/
def gridBelow (value : Decimal) (dropped : Nat) : Decimal :=
  ⟨value.coefficient / Nat.pow 10 dropped, value.exponent + dropped⟩

/-- The least number on a coarser grid that is above a decimal. -/
def gridAbove (value : Decimal) (dropped : Nat) : Decimal :=
  ⟨value.coefficient / Nat.pow 10 dropped + 1, value.exponent + dropped⟩

section Grid

variable {value : Decimal} {dropped : Nat}

theorem cast_step (dropped : Nat) : ((Nat.pow 10 dropped : Nat) : ℚ) = 10 ^ dropped := by
  rw [Nat.pow_eq, Nat.cast_pow, Nat.cast_ofNat]

theorem toRat_gridBelow_add (value : Decimal) (dropped : Nat) :
    (value.gridBelow dropped).toRat
      + (value.coefficient % Nat.pow 10 dropped : Nat) * 10 ^ value.exponent = value.toRat := by
  have hdivmod : ((Nat.pow 10 dropped * (value.coefficient / Nat.pow 10 dropped)
      + value.coefficient % Nat.pow 10 dropped : Nat) : ℚ) = value.coefficient := by
    rw [Nat.div_add_mod]
  rw [Nat.cast_add, Nat.cast_mul, cast_step] at hdivmod
  rw [toRat, toRat, gridBelow, zpow_add₀ (by norm_num), zpow_natCast, ← hdivmod]
  ring

theorem toRat_gridAbove (value : Decimal) (dropped : Nat) :
    (value.gridAbove dropped).toRat
      = (value.gridBelow dropped).toRat + 10 ^ dropped * 10 ^ value.exponent := by
  rw [toRat, toRat, gridBelow, gridAbove, zpow_add₀ (by norm_num), zpow_natCast]
  push_cast
  ring

theorem toRat_gridBelow_le (value : Decimal) (dropped : Nat) :
    (value.gridBelow dropped).toRat ≤ value.toRat := by
  have hrest : (0 : ℚ) ≤ (value.coefficient % Nat.pow 10 dropped : Nat) * 10 ^ value.exponent := by
    positivity
  linarith [toRat_gridBelow_add value dropped]

theorem toRat_add_eq_gridAbove (value : Decimal) (dropped : Nat) : value.toRat
    + (Nat.pow 10 dropped - value.coefficient % Nat.pow 10 dropped : Nat) * 10 ^ value.exponent
      = (value.gridAbove dropped).toRat := by
  have hpos : 0 < Nat.pow 10 dropped := Nat.pow_pos (by decide)
  have hmod := Nat.mod_lt value.coefficient hpos
  rw [Nat.cast_sub hmod.le, cast_step, toRat_gridAbove, ← toRat_gridBelow_add value dropped]
  ring

theorem toRat_le_gridAbove (value : Decimal) (dropped : Nat) :
    value.toRat ≤ (value.gridAbove dropped).toRat := by
  rw [← toRat_add_eq_gridAbove]
  exact le_add_of_nonneg_right (by positivity)

theorem abs_gridBelow_sub (value : Decimal) (dropped : Nat) :
    |(value.gridBelow dropped).toRat - value.toRat|
      = value.toRat - (value.gridBelow dropped).toRat := by
  rw [abs_sub_comm, abs_of_nonneg (sub_nonneg.2 (toRat_gridBelow_le value dropped))]

theorem abs_gridAbove_sub (value : Decimal) (dropped : Nat) :
    |(value.gridAbove dropped).toRat - value.toRat|
      = (value.gridAbove dropped).toRat - value.toRat :=
  abs_of_nonneg (sub_nonneg.2 (toRat_le_gridAbove value dropped))

theorem abs_gridBelow_sub_le
    (h : 2 * (value.coefficient % Nat.pow 10 dropped) ≤ Nat.pow 10 dropped) :
    |(value.gridBelow dropped).toRat - value.toRat|
      ≤ |(value.gridAbove dropped).toRat - value.toRat| := by
  have hrest : (value.coefficient % Nat.pow 10 dropped : Nat) * (10 : ℚ) ^ value.exponent
      ≤ (Nat.pow 10 dropped - value.coefficient % Nat.pow 10 dropped : Nat)
        * 10 ^ value.exponent := by
    apply mul_le_mul_of_nonneg_right _ (by positivity)
    exact_mod_cast Nat.le_sub_of_add_le (by omega)
  rw [abs_gridBelow_sub, abs_gridAbove_sub]
  linarith [toRat_gridBelow_add value dropped, toRat_add_eq_gridAbove value dropped]

theorem abs_gridAbove_sub_le
    (h : Nat.pow 10 dropped ≤ 2 * (value.coefficient % Nat.pow 10 dropped)) :
    |(value.gridAbove dropped).toRat - value.toRat|
      ≤ |(value.gridBelow dropped).toRat - value.toRat| := by
  have hrest : (Nat.pow 10 dropped - value.coefficient % Nat.pow 10 dropped : Nat)
      * (10 : ℚ) ^ value.exponent
        ≤ (value.coefficient % Nat.pow 10 dropped : Nat) * 10 ^ value.exponent := by
    apply mul_le_mul_of_nonneg_right _ (by positivity)
    exact_mod_cast Nat.sub_le_of_le_add (by omega)
  rw [abs_gridBelow_sub, abs_gridAbove_sub]
  linarith [toRat_gridBelow_add value dropped, toRat_add_eq_gridAbove value dropped]

/-- One of the neighbours is not farther away than half of the step of the grid. -/
theorem exists_neighbour_near (value : Decimal) (dropped : Nat) :
    ∃ d, (d = value.gridBelow dropped ∨ d = value.gridAbove dropped) ∧
      2 * |d.toRat - value.toRat| ≤ 10 ^ dropped * 10 ^ value.exponent := by
  have hstep := toRat_gridAbove value dropped
  rcases Nat.le_total (2 * (value.coefficient % Nat.pow 10 dropped)) (Nat.pow 10 dropped)
    with hhalf | hhalf
  · refine ⟨_, .inl rfl, ?_⟩
    have hnear := abs_gridBelow_sub_le hhalf
    rw [abs_gridBelow_sub, abs_gridAbove_sub] at hnear
    rw [abs_gridBelow_sub]
    linarith
  · refine ⟨_, .inr rfl, ?_⟩
    have hnear := abs_gridAbove_sub_le hhalf
    rw [abs_gridBelow_sub, abs_gridAbove_sub] at hnear
    rw [abs_gridAbove_sub]
    linarith

/-- No number with a few digits lies strictly between the neighbours of a decimal that has more. -/
theorem le_gridBelow_or_gridAbove_le {k m : Nat} {p : Int} (hm : m < 10 ^ (k + 1))
    (hlong : 10 ^ k * Nat.pow 10 dropped ≤ value.coefficient) :
    m * 10 ^ p ≤ (value.gridBelow dropped).toRat ∨
      (value.gridAbove dropped).toRat ≤ m * 10 ^ p := by
  have hunit : (0 : ℚ) < 10 ^ (value.exponent + dropped) := by positivity
  rw [toRat, toRat, gridBelow, gridAbove]
  rcases Int.lt_or_le p (value.exponent + dropped) with hlt | hle
  · -- A number on a finer grid has fewer digits in front.
    left
    have hdiv : 10 ^ k ≤ value.coefficient / Nat.pow 10 dropped :=
      (Nat.le_div_iff_mul_le (Nat.pow_pos (by decide))).2 hlong
    calc (m : ℚ) * 10 ^ p ≤ 10 ^ (k + 1) * 10 ^ p := by
          apply mul_le_mul_of_nonneg_right _ (by positivity)
          exact_mod_cast hm.le
      _ = 10 ^ k * 10 ^ (p + 1) := by
          rw [zpow_add_one₀ (by norm_num), pow_succ]
          ring
      _ ≤ 10 ^ k * 10 ^ (value.exponent + dropped) := by
          apply mul_le_mul_of_nonneg_left _ (by positivity)
          exact zpow_le_zpow_right₀ (by norm_num) (by omega)
      _ ≤ (value.coefficient / Nat.pow 10 dropped : Nat) * 10 ^ (value.exponent + dropped) := by
          apply mul_le_mul_of_nonneg_right _ hunit.le
          exact_mod_cast hdiv
  · obtain ⟨n, hn⟩ := Int.eq_ofNat_of_zero_le (by omega : 0 ≤ p - (value.exponent + dropped))
    have hpower : (m : ℚ) * 10 ^ p = (m * 10 ^ n : Nat) * 10 ^ (value.exponent + dropped) := by
      have hp : p = n + (value.exponent + dropped) := by omega
      rw [hp, zpow_add₀ (by norm_num), zpow_natCast]
      push_cast
      ring
    rw [hpower]
    rcases Nat.lt_or_ge (value.coefficient / Nat.pow 10 dropped) (m * 10 ^ n) with habove | hbelow
    · right
      apply mul_le_mul_of_nonneg_right _ hunit.le
      exact_mod_cast habove
    · left
      apply mul_le_mul_of_nonneg_right _ hunit.le
      exact_mod_cast hbelow

end Grid

end Decimal

/-! ## The search on one grid -/

namespace Magnitude

variable {x : Magnitude} {value d : Decimal} {dropped : Nat}

/-- Of two neighbours that read back the nearer one is taken, or the even one. -/
theorem onGrid?_eq (x : Magnitude) (value : Decimal) (dropped : Nat) :
    x.onGrid? value dropped =
      if (value.gridBelow dropped).nearest = x then
        if (value.gridAbove dropped).nearest = x then
          if 2 * (value.coefficient % Nat.pow 10 dropped) < Nat.pow 10 dropped then
            some (value.gridBelow dropped)
          else if Nat.pow 10 dropped < 2 * (value.coefficient % Nat.pow 10 dropped) then
            some (value.gridAbove dropped)
          else if (value.gridBelow dropped).coefficient % 2 = 0 then some (value.gridBelow dropped)
          else some (value.gridAbove dropped)
        else some (value.gridBelow dropped)
      else if (value.gridAbove dropped).nearest = x then some (value.gridAbove dropped)
      else none := by
  rw [onGrid?, ← Decimal.gridBelow, ← Decimal.gridAbove]
  by_cases hbelow : (value.gridBelow dropped).nearest = x
  · by_cases habove : (value.gridAbove dropped).nearest = x <;> simp [hbelow, habove]
  · by_cases habove : (value.gridAbove dropped).nearest = x <;> simp [hbelow, habove]

theorem eq_of_onGrid? (h : x.onGrid? value dropped = some d) :
    d = value.gridBelow dropped ∨ d = value.gridAbove dropped := by
  rw [onGrid?_eq] at h
  repeat' split at h
  all_goals cases h
  all_goals simp

/-- A neighbour that reads back is found, or else one that is at least as near. -/
theorem exists_onGrid?_of_neighbour (hd : d = value.gridBelow dropped ∨ d = value.gridAbove dropped)
    (h : d.nearest = x) : ∃ e, x.onGrid? value dropped = some e ∧
      |e.toRat - value.toRat| ≤ |d.toRat - value.toRat| := by
  have hnearBelow (hhalf : 2 * (value.coefficient % Nat.pow 10 dropped) ≤ Nat.pow 10 dropped) :
      |(value.gridBelow dropped).toRat - value.toRat| ≤ |d.toRat - value.toRat| := by
    obtain rfl | rfl := hd
    · exact le_rfl
    · exact Decimal.abs_gridBelow_sub_le hhalf
  have hnearAbove (hhalf : Nat.pow 10 dropped ≤ 2 * (value.coefficient % Nat.pow 10 dropped)) :
      |(value.gridAbove dropped).toRat - value.toRat| ≤ |d.toRat - value.toRat| := by
    obtain rfl | rfl := hd
    · exact Decimal.abs_gridAbove_sub_le hhalf
    · exact le_rfl
  rw [onGrid?_eq]
  by_cases hbelow : (value.gridBelow dropped).nearest = x
  · by_cases habove : (value.gridAbove dropped).nearest = x
    · rw [if_pos hbelow, if_pos habove]
      split
      case isTrue hlt => exact ⟨_, rfl, hnearBelow hlt.le⟩
      case isFalse hge =>
        split
        case isTrue hgt => exact ⟨_, rfl, hnearAbove hgt.le⟩
        case isFalse hle =>
          split
          · exact ⟨_, rfl, hnearBelow (Nat.le_of_not_lt hle)⟩
          · exact ⟨_, rfl, hnearAbove (Nat.le_of_not_lt hge)⟩
    · rw [if_pos hbelow, if_neg habove]
      obtain rfl | rfl := hd
      · exact ⟨_, rfl, le_rfl⟩
      · exact absurd h habove
  · rw [if_neg hbelow]
    obtain rfl | rfl := hd
    · exact absurd h hbelow
    · exact ⟨_, if_pos h, le_rfl⟩

theorem nearest_of_between {a b : Decimal} (ha : a.nearest = x) (hb : b.nearest = x)
    (hlow : a.toRat ≤ d.toRat) (hhigh : d.toRat ≤ b.toRat) : d.nearest = x := by
  have hle := Decimal.rank_nearest_le hlow
  have hge := Decimal.rank_nearest_le hhigh
  rw [ha] at hle
  rw [hb] at hge
  exact ext_rank (Nat.le_antisymm hge hle)

/-- If a number with a few digits reads back, the search on the grid of these digits finds one that
    is at least as near. -/
theorem exists_onGrid? (hx : x.isInfinite = false) {k m : Nat} {p : Int} (hm : m < 10 ^ (k + 1))
    (hlong : 10 ^ k * Nat.pow 10 dropped ≤ x.exact.coefficient) (hvalue : d.toRat = m * 10 ^ p)
    (h : d.nearest = x) : ∃ e, x.onGrid? x.exact dropped = some e ∧
      |e.toRat - x.toRat| ≤ |d.toRat - x.toRat| := by
  have hexact := nearest_exact hx
  have hbelow := Decimal.toRat_gridBelow_le x.exact dropped
  have habove := Decimal.toRat_le_gridAbove x.exact dropped
  rw [← x.toRat_exact]
  rcases Decimal.le_gridBelow_or_gridAbove_le hm hlong with hle | hle
  · -- The number lies below both neighbours, so the lower one is between it and the value.
    rw [← hvalue] at hle
    obtain ⟨e, he, hnear⟩ := exists_onGrid?_of_neighbour (.inl rfl)
      (nearest_of_between h hexact hle hbelow)
    rw [Decimal.abs_gridBelow_sub] at hnear
    exact ⟨e, he, by linarith [neg_abs_le (d.toRat - x.exact.toRat)]⟩
  · rw [← hvalue] at hle
    obtain ⟨e, he, hnear⟩ := exists_onGrid?_of_neighbour (.inr rfl)
      (nearest_of_between hexact h habove hle)
    rw [Decimal.abs_gridAbove_sub] at hnear
    exact ⟨e, he, by linarith [le_abs_self (d.toRat - x.exact.toRat)]⟩

/-! ## Seventeen digits are enough -/

/-- A rank is nearest to everything that is nearer to its number than half of the way to the rank
    below it. -/
theorem nearestRank_of_abs_lt {q : ℚ} {rank : Nat}
    (h : 2 * |q - rankValue (rank + 1)| < 2 ^ (leastScale + rankShift rank)) :
    NearestRank q (rank + 1) := by
  have hstep := rankValue_succ rank
  have hstep' := rankValue_succ (rank + 1)
  have hmono : (2 : ℚ) ^ (leastScale + rankShift rank)
      ≤ 2 ^ (leastScale + rankShift (rank + 1)) := by
    apply zpow_le_zpow_right₀ one_le_two
    rw [rankShift, rankShift]
    omega
  obtain ⟨hlow, hhigh⟩ := abs_lt.1 (by linarith :
    |q - rankValue (rank + 1)| < 2 ^ (leastScale + rankShift rank) / 2)
  rcases le_or_gt (rankValue (rank + 1)) q with hle | hlt
  · apply NearestRank.of_lower_half hle
    · linarith
    · intro hmiddle
      linarith
  · apply NearestRank.of_upper_half hlt.le
    · linarith
    · intro hmiddle
      linarith

/-- Half of the way to the rank below is more than the last of seventeen digits is worth. -/
theorem rankValue_succ_le (rank : Nat) :
    rankValue (rank + 1) ≤ 9007199254740992 * 2 ^ (leastScale + rankShift rank) := by
  obtain ⟨significand, hlarge, hsmall, hrank⟩ := exists_rank_eq rank
  have hvalue := rankValue_add hlarge.le hsmall
  rw [← hrank] at hvalue
  have hsize : (significand : ℚ) + 1 ≤ 9007199254740992 := by
    exact_mod_cast hlarge
  have hunit := twoPow_pos (leastScale + rankShift rank)
  rw [rankValue_succ, hvalue, ← add_one_mul]
  exact mul_le_mul_of_nonneg_right hsize hunit.le

theorem exists_onGrid?_seventeen (hx : x.isInfinite = false) (h : x.rank ≠ 0)
    (hlong : 10 ^ 16 * Nat.pow 10 dropped ≤ x.exact.coefficient) :
    ∃ e, x.onGrid? x.exact dropped = some e := by
  obtain ⟨rank, hrank⟩ := Nat.exists_eq_succ_of_ne_zero h
  have hvalue : x.exact.toRat = rankValue (rank + 1) := by
    rw [x.toRat_exact, toRat_eq, hrank]
  have hunit := twoPow_pos (leastScale + rankShift rank)
  have hsize := rankValue_succ_le rank
  -- The step of the grid is less than the step between ranks.
  have hstep : (10 : ℚ) ^ 16 * (10 ^ dropped * 10 ^ x.exact.exponent) ≤ rankValue (rank + 1) := by
    rw [← hvalue, Decimal.toRat, ← mul_assoc]
    apply mul_le_mul_of_nonneg_right _ (by positivity)
    rw [← Decimal.cast_step]
    exact_mod_cast hlong
  obtain ⟨d, hd, hnear⟩ := Decimal.exists_neighbour_near x.exact dropped
  have hread : d.nearest = x := by
    rw [Decimal.nearest_eq_iff hx, hrank]
    apply nearestRank_of_abs_lt
    rw [← hvalue]
    linarith
  obtain ⟨e, he, -⟩ := exists_onGrid?_of_neighbour hd hread
  exact ⟨e, he⟩

/-! ## The shortest decimal -/

/-- What is asked of the decimal that is printed for a magnitude: it reads back, no decimal with
    fewer digits does, and none with as many digits that does is nearer. -/
structure IsShortest (x : Magnitude) (s : Decimal) : Prop where
  reads : s.nearest = x
  length_le : ∀ d : Decimal, d.nearest = x → s.digits.length ≤ d.digits.length
  near : ∀ d : Decimal, d.nearest = x → d.digits.length = s.digits.length →
    |s.toRat - x.toRat| ≤ |d.toRat - x.toRat|

theorem exists_onGrid?_all (hx : x.isInfinite = false) : ∃ e, x.onGrid? x.exact 0 = some e := by
  have hall : x.exact.gridBelow 0 = x.exact := by
    rw [Decimal.gridBelow, Nat.pow_eq, Nat.pow_zero, Nat.div_one, Nat.cast_zero, add_zero]
  obtain ⟨e, he, -⟩ := exists_onGrid?_of_neighbour (.inl hall.symm) (nearest_exact hx)
  exact ⟨e, he⟩

theorem length_digits_onGrid?_le {k : Nat} (hk : 0 < k)
    (hsize : x.exact.coefficient < 10 ^ k * Nat.pow 10 dropped)
    (h : x.onGrid? x.exact dropped = some d) : d.digits.length ≤ k := by
  have hdiv : x.exact.coefficient / Nat.pow 10 dropped < 10 ^ k :=
    Nat.div_lt_of_lt_mul (by rwa [Nat.mul_comm])
  apply Decimal.length_digits_le hk
  rcases eq_of_onGrid? h with rfl | rfl
  · exact hdiv.le
  · exact hdiv

/-- The search takes the first number of digits with which a decimal is found. -/
theorem exists_first_grid (hx : x.isInfinite = false) (h : x.rank ≠ 0) :
    ∃ i < x.exact.size, x.onGrid? x.exact (x.exact.size - (i + 1)) = some x.shortest ∧
      ∀ j < i, x.onGrid? x.exact (x.exact.size - (j + 1)) = none := by
  have hcoefficient := coefficient_ne_zero h (nearest_exact hx)
  have hpos := x.exact.size_pos
  obtain ⟨k, hsize, henough, e, he⟩ : ∃ k < x.exact.size, k < enoughDigits ∧
      ∃ e, x.onGrid? x.exact (x.exact.size - (k + 1)) = some e := by
    -- The exact decimal has more digits than the search tries, or the search comes up to it.
    rcases Nat.lt_or_ge 16 x.exact.size with hlong | hshort
    · exact ⟨16, hlong, by decide,
        exists_onGrid?_seventeen hx h (Decimal.pow_mul_dropped_le hcoefficient hlong)⟩
    · refine ⟨x.exact.size - 1, by omega, by rw [enoughDigits]; omega, ?_⟩
      rw [Nat.sub_add_cancel hpos, Nat.sub_self]
      exact exists_onGrid?_all hx
  obtain ⟨i, s, hi, hs, hfirst, hsearch⟩ := exists_findSome?_range
    (f := fun fewer => x.onGrid? x.exact (x.exact.size - (fewer + 1))) henough he
  have hshortest : x.shortest = s := by
    rw [shortest, ← Decimal.size, hsearch, Option.getD_some]
  exact ⟨i, hi.trans_lt hsize, hshortest ▸ hs, hfirst⟩

theorem isShortest_shortest (hx : x.isInfinite = false) (h : x.rank ≠ 0) :
    x.IsShortest x.shortest := by
  have hcoefficient := coefficient_ne_zero h (nearest_exact hx)
  obtain ⟨i, hi, hfound, hfirst⟩ := exists_first_grid hx h
  have hlength := length_digits_onGrid?_le (Nat.succ_pos i)
    (Decimal.lt_pow_mul_dropped hcoefficient hi) hfound
  -- A decimal with no more digits than were asked for has no fewer, and it is not nearer.
  have hother {d : Decimal} (hd : d.nearest = x) (hle : d.digits.length ≤ i + 1) :
      d.digits.length = i + 1 ∧ |x.shortest.toRat - x.toRat| ≤ |d.toRat - x.toRat| := by
    have hdigits := List.length_pos_iff.2 (Decimal.digits_ne_nil (coefficient_ne_zero h hd))
    obtain ⟨k, hk⟩ := Nat.exists_eq_succ_of_ne_zero hdigits.ne'
    obtain ⟨m, p, hm, hvalue⟩ := d.exists_toRat_eq
    rw [hk] at hm
    obtain ⟨e, he, hnear⟩ := exists_onGrid? hx hm
      (Decimal.pow_mul_dropped_le hcoefficient (by omega)) hvalue hd
    rcases Nat.lt_or_ge k i with hlt | hge
    · rw [hfirst k hlt] at he
      cases he
    · obtain rfl : k = i := by omega
      rw [hfound] at he
      cases he
      exact ⟨hk, hnear⟩
  refine ⟨nearest_shortest hx, fun d hd => ?_, fun d hd heq => ?_⟩
  · rcases Nat.le_total d.digits.length (i + 1) with hle | hge
    · rw [(hother hd hle).1]
      exact hlength
    · exact hlength.trans hge
  · exact (hother hd (heq ▸ hlength)).2

end Magnitude

end LoxScan
