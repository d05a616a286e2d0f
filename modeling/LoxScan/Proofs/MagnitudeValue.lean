import Mathlib.Algebra.Order.Field.Power
import Mathlib.Algebra.Order.Field.Rat
import Mathlib.Data.Rat.Cast.Order
import Mathlib.Order.Monotone.Basic
import Mathlib.Tactic.FieldSimp
import Mathlib.Tactic.Linarith
import Mathlib.Tactic.NormNum
import Mathlib.Tactic.Positivity
import Mathlib.Tactic.Ring
import LoxScan.Number.Decimal

/-! # Values of magnitudes

The rational number that a magnitude stands for, and what it means to be nearest to one.

* `rankValue` is the number of a rank.  It goes on above infinity as if there were larger numbers,
  so that rounding can be studied with no upper limit.
* `rankValue_add` finds the number from a significand and a scale, `rankValue_succ` is the step from
  a rank to the next one, and `rankValue_strictMono` says that ranks are in the order of numbers.
* `NearestRank` singles out the rank whose number is nearest, an even one if there are two.  It
  grows with the number (`NearestRank.mono`), so there is only one (`NearestRank.unique`).
* `Magnitude.toRat` and `Magnitude.value` are the number of a magnitude.
-/

namespace LoxScan

/-! ## Powers of two -/

theorem twoPow_pos (e : Int) : (0 : ℚ) < 2 ^ e :=
  zpow_pos two_pos e

theorem twoPow_succ (e : Int) : (2 : ℚ) ^ (e + 1) = 2 * 2 ^ e := by
  rw [zpow_add_one₀ two_ne_zero, mul_comm]

/-! ## The number of a rank -/

@[simp] theorem natPow_fractionBits : Nat.pow 2 fractionBits = 4503599627370496 := rfl

/-- How far the scale of a rank lies above the least one. -/
def rankShift (rank : Nat) : Nat :=
  rank / 4503599627370496 - 1

/-- The number of a rank: its distance from the beginning of the ranks of its scale, at that
    scale. -/
def rankValue (rank : Nat) : ℚ :=
  (rank - rankShift rank * 4503599627370496 : Nat) * 2 ^ (leastScale + rankShift rank)

/-- The number of a significand at some scale.  The end of one binade is the beginning of the
    next. -/
theorem rankValue_add {shift significand : Nat} (hlarge : significand ≤ 9007199254740992)
    (hsmall : shift = 0 ∨ 4503599627370496 ≤ significand) :
    rankValue (shift * 4503599627370496 + significand)
      = significand * 2 ^ (leastScale + shift) := by
  rcases Nat.lt_or_eq_of_le hlarge with hlt | rfl
  · have hshift : rankShift (shift * 4503599627370496 + significand) = shift := by
      unfold rankShift
      omega
    rw [rankValue, hshift, Nat.add_sub_cancel_left]
  · have hshift : rankShift (shift * 4503599627370496 + 9007199254740992) = shift + 1 := by
      unfold rankShift
      omega
    have hrest : shift * 4503599627370496 + 9007199254740992 - (shift + 1) * 4503599627370496
        = 4503599627370496 := by
      omega
    have hscale : leastScale + (shift + 1 : Nat) = leastScale + shift + 1 := by
      push_cast
      omega
    rw [rankValue, hshift, hrest, hscale, twoPow_succ]
    norm_num
    ring

@[simp] theorem rankValue_zero : rankValue 0 = 0 := by
  simp [rankValue]

theorem exists_rank_eq (rank : Nat) : ∃ significand, significand < 9007199254740992 ∧
    (rankShift rank = 0 ∨ 4503599627370496 ≤ significand) ∧
      rank = rankShift rank * 4503599627370496 + significand := by
  refine ⟨rank - rankShift rank * 4503599627370496, ?_⟩
  unfold rankShift
  omega

/-- From a rank to the next one it is one unit in the last place. -/
theorem rankValue_succ (rank : Nat) :
    rankValue (rank + 1) = rankValue rank + 2 ^ (leastScale + rankShift rank) := by
  obtain ⟨significand, hlarge, hsmall, hrank⟩ := exists_rank_eq rank
  generalize rankShift rank = shift at *
  subst hrank
  have hnext : shift = 0 ∨ 4503599627370496 ≤ significand + 1 := by
    omega
  rw [Nat.add_assoc, rankValue_add hlarge hnext, rankValue_add hlarge.le hsmall]
  push_cast
  ring

theorem rankValue_strictMono : StrictMono rankValue := by
  apply strictMono_nat_of_lt_succ
  intro rank
  have hunit := twoPow_pos (leastScale + rankShift rank)
  rw [rankValue_succ]
  linarith

/-! ## Nearest ranks -/

/-- The greater of two numbers is at least as near if the middle between them is not exceeded. -/
theorem abs_sub_le_abs_sub_iff_of_lt {q v w : ℚ} (h : v < w) :
    |q - w| ≤ |q - v| ↔ v + w ≤ 2 * q := by
  rw [← sq_le_sq]
  constructor <;> intro hle <;> nlinarith

theorem abs_sub_le_abs_sub_iff_of_gt {q v w : ℚ} (h : v < w) :
    |q - v| ≤ |q - w| ↔ 2 * q ≤ v + w := by
  rw [← sq_le_sq]
  constructor <;> intro hle <;> nlinarith

/-- A rank whose number is nearest to a given one.  It is even if another rank is as near. -/
structure NearestRank (q : ℚ) (rank : Nat) : Prop where
  le : ∀ other, |q - rankValue rank| ≤ |q - rankValue other|
  even : ∀ other, other ≠ rank → |q - rankValue other| = |q - rankValue rank| → rank % 2 = 0

/-- The middle between a nearest rank and any other one is not on the side of the nearest. -/
theorem nearestRank_iff {q : ℚ} {rank : Nat} : NearestRank q rank ↔
    (∀ other, rank < other → 2 * q ≤ rankValue rank + rankValue other) ∧
    (∀ other, other < rank → rankValue other + rankValue rank ≤ 2 * q) ∧
    ∀ other, other ≠ rank → 2 * q = rankValue rank + rankValue other → rank % 2 = 0 := by
  have habove (other : Nat) (h : rank < other) :=
    abs_sub_le_abs_sub_iff_of_gt (q := q) (rankValue_strictMono h)
  have hbelow (other : Nat) (h : other < rank) :=
    abs_sub_le_abs_sub_iff_of_lt (q := q) (rankValue_strictMono h)
  have htie (other : Nat) (h : other ≠ rank) :
      |q - rankValue other| = |q - rankValue rank| ↔
        2 * q = rankValue rank + rankValue other := by
    have hne : rankValue other ≠ rankValue rank := rankValue_strictMono.injective.ne h
    rw [← sq_eq_sq_iff_abs_eq_abs]
    constructor
    · intro hsq
      have hfactor : (rankValue rank - rankValue other)
          * (2 * q - (rankValue rank + rankValue other)) = 0 := by linarith
      rcases mul_eq_zero.1 hfactor with hzero | hzero
      · exact absurd (sub_eq_zero.1 hzero).symm hne
      · exact sub_eq_zero.1 hzero
    · intro hmiddle
      obtain rfl : q = (rankValue rank + rankValue other) / 2 := by linarith
      ring
  constructor
  · intro h
    refine ⟨fun other hlt => (habove other hlt).1 (h.le other),
      fun other hlt => (hbelow other hlt).1 (h.le other),
      fun other hne hmiddle => h.even other hne ((htie other hne).2 hmiddle)⟩
  · rintro ⟨hup, hdown, heven⟩
    refine ⟨fun other => ?_, fun other hne heq => heven other hne ((htie other hne).1 heq)⟩
    rcases Nat.lt_trichotomy other rank with hlt | rfl | hlt
    · exact (hbelow other hlt).2 (hdown other hlt)
    · exact le_rfl
    · exact (habove other hlt).2 (hup other hlt)

namespace NearestRank

variable {q r : ℚ} {a b : Nat}

theorem self (rank : Nat) : NearestRank (rankValue rank) rank := by
  rw [nearestRank_iff]
  refine ⟨fun other hlt => ?_, fun other hlt => ?_, fun other hne hmiddle => ?_⟩
  · have hmono := rankValue_strictMono hlt
    linarith
  · have hmono := rankValue_strictMono hlt
    linarith
  · have hsame : rankValue rank = rankValue other := by linarith
    exact absurd (rankValue_strictMono.injective hsame).symm hne

theorem mono (ha : NearestRank q a) (hb : NearestRank r b) (h : q ≤ r) : a ≤ b := by
  obtain ⟨-, hdown, haeven⟩ := nearestRank_iff.1 ha
  obtain ⟨hup, -, hbeven⟩ := nearestRank_iff.1 hb
  by_contra hlt
  have hq := hdown b (by omega)
  have hr := hup a (by omega)
  -- Both numbers are the middle between the two ranks, so both ranks are even.
  have heven := haeven b (by omega) (by linarith)
  have heven' := hbeven a (by omega) (by linarith)
  -- The rank above the lower one is not the upper one, and it is nearer.
  have hnext : rankValue b < rankValue (b + 1) := rankValue_strictMono (by omega)
  have hbetween := hdown (b + 1) (by omega)
  linarith

theorem unique (ha : NearestRank q a) (hb : NearestRank q b) : a = b :=
  Nat.le_antisymm (ha.mono hb le_rfl) (hb.mono ha le_rfl)

/-- Between two neighbours the nearest rank is the lower one up to the middle. -/
theorem of_lower_half (hlow : rankValue a ≤ q) (hhalf : 2 * q ≤ rankValue a + rankValue (a + 1))
    (heven : 2 * q = rankValue a + rankValue (a + 1) → a % 2 = 0) : NearestRank q a := by
  rw [nearestRank_iff]
  refine ⟨fun other hlt => ?_, fun other hlt => ?_, fun other hne hmiddle => ?_⟩
  · have hmono : rankValue (a + 1) ≤ rankValue other := rankValue_strictMono.monotone hlt
    linarith
  · have hmono := rankValue_strictMono hlt
    linarith
  · apply heven
    rcases Nat.lt_or_gt_of_ne hne with hlt | hlt
    · have hmono := rankValue_strictMono hlt
      linarith
    · have hmono : rankValue (a + 1) ≤ rankValue other := rankValue_strictMono.monotone hlt
      linarith

/-- Between two neighbours the nearest rank is the upper one from the middle on. -/
theorem of_upper_half (hhigh : q ≤ rankValue (a + 1))
    (hhalf : rankValue a + rankValue (a + 1) ≤ 2 * q)
    (heven : 2 * q = rankValue a + rankValue (a + 1) → (a + 1) % 2 = 0) :
    NearestRank q (a + 1) := by
  rw [nearestRank_iff]
  refine ⟨fun other hlt => ?_, fun other hlt => ?_, fun other hne hmiddle => ?_⟩
  · have hmono := rankValue_strictMono hlt
    linarith
  · have hmono : rankValue other ≤ rankValue a := rankValue_strictMono.monotone (by omega)
    linarith
  · apply heven
    rcases Nat.lt_or_gt_of_ne hne with hlt | hlt
    · have hmono : rankValue other ≤ rankValue a := rankValue_strictMono.monotone (by omega)
      linarith
    · have hmono := rankValue_strictMono hlt
      linarith

end NearestRank

/-! ## The number of a magnitude -/

namespace Magnitude

def toRat (x : Magnitude) : ℚ :=
  x.significand * 2 ^ x.scale

def value (x : Magnitude) : WithTop ℚ :=
  if x.isInfinite then ⊤ else x.toRat

theorem toRat_eq (x : Magnitude) : x.toRat = rankValue x.rank := by
  have hbinade : x.binade = x.rank / 4503599627370496 := rfl
  rw [toRat, rankValue, rankShift, significand, scale, natPow_fractionBits, hbinade]
  by_cases hzero : x.rank / 4503599627370496 = 0
  · simp [hzero]
  · have hplace : x.rank - (x.rank / 4503599627370496 - 1) * 4503599627370496
        = 4503599627370496 + x.rank % 4503599627370496 := by
      omega
    rw [if_neg hzero, if_neg hzero, hplace]

theorem isInfinite_eq_true_iff {x : Magnitude} : x.isInfinite = true ↔ x.rank = infinityRank := by
  rw [isInfinite, beq_iff_eq]

theorem isInfinite_eq_false_iff {x : Magnitude} :
    x.isInfinite = false ↔ x.rank < infinityRank := by
  have hle := x.rank_le
  rw [isInfinite, beq_eq_false_iff_ne]
  omega

theorem value_of_infinite {x : Magnitude} (h : x.isInfinite = true) : x.value = ⊤ := by
  rw [value, if_pos h]

theorem value_of_finite {x : Magnitude} (h : x.isInfinite = false) : x.value = (x.toRat : ℚ) := by
  rw [value, h, if_neg Bool.false_ne_true]

theorem value_le_value_iff {x y : Magnitude} : x.value ≤ y.value ↔ x.rank ≤ y.rank := by
  have hle := x.rank_le
  cases hx : x.isInfinite with
  | true =>
    have hrank := isInfinite_eq_true_iff.1 hx
    cases hy : y.isInfinite with
    | true =>
      have hother := isInfinite_eq_true_iff.1 hy
      simp [value_of_infinite hx, value_of_infinite hy, hrank, hother]
    | false =>
      have hother := isInfinite_eq_false_iff.1 hy
      rw [value_of_infinite hx, value_of_finite hy, top_le_iff]
      simp only [WithTop.coe_ne_top, false_iff]
      omega
  | false =>
    cases hy : y.isInfinite with
    | true =>
      have hother := isInfinite_eq_true_iff.1 hy
      rw [value_of_infinite hy, hother]
      simp only [le_top, hle]
    | false =>
      rw [value_of_finite hx, value_of_finite hy, WithTop.coe_le_coe, toRat_eq, toRat_eq]
      exact rankValue_strictMono.le_iff_le

theorem value_injective {x y : Magnitude} (h : x.value = y.value) : x = y :=
  ext_rank (Nat.le_antisymm (value_le_value_iff.1 h.le) (value_le_value_iff.1 h.ge))

end Magnitude

end LoxScan
