import LoxScan.Proofs.DigitRow

/-! # The shortest decimal of a magnitude

* `Magnitude.toRat_exact`: the exact decimal of a magnitude is its number.
* `Magnitude.nearest_shortest`: the shortest decimal is read as the magnitude that it was made for.
* `Magnitude.le_toRat_shortest_iff`: a magnitude and its shortest decimal lie on the same side of
  every bound that is printed exactly, as the two bounds of positional notation are
  (`Magnitude.bounds_printed`).
-/

namespace LoxScan

theorem Decimal.toRat_tenPow (e : Int) : (⟨1, e⟩ : Decimal).toRat = 10 ^ e := by
  rw [toRat, Nat.cast_one, one_mul]

namespace Magnitude

/-! ## The exact decimal -/

theorem toRat_exact (x : Magnitude) : x.exact.toRat = x.toRat := by
  rw [exact, toRat]
  split
  case isTrue h =>
    rw [Decimal.toRat, Nat.cast_mul, natPow_toNat h, Nat.cast_ofNat, zpow_zero, mul_one]
  case isFalse h =>
    have hfive : (5 : ℚ) ^ x.scale ≠ 0 := by positivity
    have hten : (10 : ℚ) ^ x.scale = 5 ^ x.scale * 2 ^ x.scale := by
      rw [← mul_zpow]
      norm_num
    rw [Decimal.toRat, Nat.cast_mul, natPow_neg_toNat (by omega), Nat.cast_ofNat, hten]
    field_simp

theorem nearest_exact {x : Magnitude} (hx : x.isInfinite = false) : x.exact.nearest = x :=
  Decimal.nearest_of_toRat_eq hx x.toRat_exact

/-! ## The shortest decimal -/

theorem nearest_of_onGrid? {x : Magnitude} {value d : Decimal} {dropped : Nat}
    (h : x.onGrid? value dropped = some d) : d.nearest = x := by
  simp only [onGrid?] at h
  split at h
  case h_1 hbelow habove =>
    split at h
    · cases h
      simpa using hbelow
    · split at h
      · cases h
        simpa using habove
      · split at h
        · cases h
          simpa using hbelow
        · cases h
          simpa using habove
  case h_2 hbelow _ =>
    cases h
    simpa using hbelow
  case h_3 _ habove =>
    cases h
    simpa using habove
  case h_4 => cases h

theorem nearest_shortest {x : Magnitude} (hx : x.isInfinite = false) : x.shortest.nearest = x := by
  simp only [shortest]
  generalize hfound : (List.range enoughDigits).findSome? _ = found
  cases found with
  | none =>
    -- With nothing found the exact decimal itself would be printed.
    exact nearest_exact hx
  | some d =>
    obtain ⟨fewer, -, hgrid⟩ := List.exists_of_findSome?_eq_some hfound
    exact nearest_of_onGrid? hgrid

theorem rank_zero_decimal {d : Decimal} (h : d.coefficient = 0) : d.nearest.rank = 0 := by
  have hzero : d.nearest = zero := by
    apply Decimal.nearest_of_toRat_eq rfl
    rw [Decimal.toRat, h, toRat_eq, rank_zero, rankValue_zero]
    simp
  rw [hzero, rank_zero]

/-- Only zero is read from a decimal without a coefficient. -/
theorem coefficient_ne_zero {x : Magnitude} {d : Decimal} (h : x.rank ≠ 0) (hd : d.nearest = x) :
    d.coefficient ≠ 0 := by
  intro hzero
  rw [← hd, rank_zero_decimal hzero] at h
  exact h rfl

/-! ## Bounds -/

section Bounds

variable {bound : Decimal} (hup : bound.toRat ≤ bound.nearest.toRat)
  {x : Magnitude} (hx : x.isInfinite = false)
include hup hx

/-- A bound that is not rounded down may be taken for the magnitude that it is read as. -/
theorem rank_nearest_le_iff : bound.nearest.rank ≤ x.rank ↔ bound.toRat ≤ x.toRat := by
  constructor
  · intro hle
    rw [toRat_eq] at hup ⊢
    exact hup.trans (rankValue_strictMono.monotone hle)
  · intro hle
    rw [← x.toRat_exact] at hle
    have hrank := Decimal.rank_nearest_le hle
    rwa [nearest_exact hx] at hrank

/-- A bound that is not rounded down, and printed as it is, is not crossed by printing. -/
theorem le_toRat_shortest_iff (hprint : bound.nearest.shortest.toRat = bound.toRat) :
    bound.toRat ≤ x.shortest.toRat ↔ bound.toRat ≤ x.toRat := by
  rw [← rank_nearest_le_iff hup hx]
  constructor
  · intro hle
    have hrank := Decimal.rank_nearest_le hle
    rwa [nearest_shortest hx] at hrank
  · intro hlow
    -- Were the shortest decimal below the bound, the magnitude would be that of the bound.
    by_contra hlt
    have hhigh := Decimal.rank_nearest_le (not_le.1 hlt).le
    rw [nearest_shortest hx] at hhigh
    have hsame : x = bound.nearest := ext_rank (Nat.le_antisymm hhigh hlow)
    rw [hsame, hprint] at hlt
    exact hlt le_rfl

end Bounds

/-- The two bounds of positional notation: ten to the sixteenth is a magnitude, and the magnitude
    of a ten-thousandth, which is a little more than that, is printed as a ten-thousandth. -/
theorem bounds_printed :
    (⟨1, 16⟩ : Decimal).nearest.exact = ⟨10 ^ 16, 0⟩ ∧
      (⟨1, 16⟩ : Decimal).nearest.shortest = ⟨1, 16⟩ ∧
      (⟨1, -4⟩ : Decimal).nearest.exact
        = ⟨100000000000000004792173602385929598312941379845142364501953125, -66⟩ ∧
      (⟨1, -4⟩ : Decimal).nearest.shortest = ⟨1, -4⟩ := by
  decide +kernel

theorem bounds_le_toRat_nearest :
    (⟨1, 16⟩ : Decimal).toRat ≤ (⟨1, 16⟩ : Decimal).nearest.toRat ∧
      (⟨1, -4⟩ : Decimal).toRat ≤ (⟨1, -4⟩ : Decimal).nearest.toRat := by
  obtain ⟨hhigh, -, hlow, -⟩ := bounds_printed
  rw [← toRat_exact, ← toRat_exact, hhigh, hlow]
  norm_num [Decimal.toRat]

theorem tenPow_le_toRat_shortest_iff {x : Magnitude} (hx : x.isInfinite = false) :
    10 ^ (16 : Int) ≤ x.shortest.toRat ↔ 10 ^ (16 : Int) ≤ x.toRat := by
  obtain ⟨-, hprint, -, -⟩ := bounds_printed
  rw [← Decimal.toRat_tenPow]
  exact le_toRat_shortest_iff bounds_le_toRat_nearest.1 hx (congrArg Decimal.toRat hprint)

theorem tenPow_neg_le_toRat_shortest_iff {x : Magnitude} (hx : x.isInfinite = false) :
    10 ^ (-4 : Int) ≤ x.shortest.toRat ↔ 10 ^ (-4 : Int) ≤ x.toRat := by
  obtain ⟨-, -, -, hprint⟩ := bounds_printed
  rw [← Decimal.toRat_tenPow]
  exact le_toRat_shortest_iff bounds_le_toRat_nearest.2 hx (congrArg Decimal.toRat hprint)

end Magnitude

end LoxScan
