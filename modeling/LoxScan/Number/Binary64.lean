/-! # Binary64 numbers

The value of a number literal is an IEEE 754 binary64 number, given here by integers alone so that
every rounding can be reasoned about.

A nonnegative binary64 number other than NaN is a `Magnitude`: its *rank* in the ascending sequence
of all of them, from zero (rank `0`) to infinity (rank `infinityRank`).  Below infinity the number
of rank `r` is `significand * 2 ^ scale`, exactly.  The order of magnitudes is the order of ranks.

Powers of natural numbers are written `Nat.pow`, which is the same whatever a module imports.

* `Magnitude.ofRatio` is the magnitude nearest to a quotient, a tie going to the even neighbour.
* `Binary64` adds the sign and NaN; `Binary64.equal` is the comparison under which NaN differs from
  itself and the two zeros agree.
-/

namespace LoxScan

/-! ## Magnitudes -/

def fractionBits : Nat := 52

def leastScale : Int := -1074

/-- The rank of infinity: 2047 binades of `2 ^ 52` magnitudes each lie below it. -/
def infinityRank : Nat := 2047 * Nat.pow 2 fractionBits

/-- A nonnegative binary64 number, infinity included, by its rank in ascending order. -/
structure Magnitude where
  rank : Nat
  rank_le : rank ≤ infinityRank
deriving DecidableEq, Repr

namespace Magnitude

theorem ext_rank {a b : Magnitude} (h : a.rank = b.rank) : a = b := by
  cases a; cases b; simp_all

/-- The magnitude of a given rank, infinity standing for every larger rank. -/
def ofRank (rank : Nat) : Magnitude :=
  ⟨min rank infinityRank, Nat.min_le_right _ _⟩

def zero : Magnitude := ofRank 0

def infinity : Magnitude := ofRank infinityRank

@[simp] theorem rank_ofRank (rank : Nat) : (ofRank rank).rank = min rank infinityRank := rfl

@[simp] theorem rank_zero : zero.rank = 0 := by
  simp [zero]

@[simp] theorem rank_infinity : infinity.rank = infinityRank := by
  simp [infinity]

/-- The binade of a magnitude: zero for zero and the subnormal numbers. -/
def binade (x : Magnitude) : Nat :=
  x.rank / Nat.pow 2 fractionBits

def significand (x : Magnitude) : Nat :=
  if x.binade = 0 then x.rank else Nat.pow 2 fractionBits + x.rank % Nat.pow 2 fractionBits

def scale (x : Magnitude) : Int :=
  if x.binade = 0 then leastScale else leastScale + (x.binade - 1 : Nat)

def isInfinite (x : Magnitude) : Bool :=
  x.rank == infinityRank

/-! ## Rounding a quotient -/

def roundHalfEven (numerator denominator : Nat) : Nat :=
  let quotient := numerator / denominator
  let twice := 2 * (numerator % denominator)
  if denominator < twice then quotient + 1
  else if twice = denominator then quotient + quotient % 2
  else quotient

/-- The greatest `e` with `2 ^ e * denominator ≤ numerator`, for positive arguments. -/
def floorLog2Ratio (numerator denominator : Nat) : Int :=
  let estimate : Int := (numerator.log2 : Int) - (denominator.log2 : Int)
  let reached : Bool :=
    if 0 ≤ estimate then decide (denominator * Nat.pow 2 estimate.toNat ≤ numerator)
    else decide (denominator ≤ numerator * Nat.pow 2 (-estimate).toNat)
  if reached then estimate else estimate - 1

def roundScaled (numerator denominator : Nat) (scale : Int) : Nat :=
  if 0 ≤ scale then roundHalfEven numerator (denominator * Nat.pow 2 scale.toNat)
  else roundHalfEven (numerator * Nat.pow 2 (-scale).toNat) denominator

/-- The magnitude nearest to a quotient with a positive denominator, a tie going to the even
    neighbour.  The significand is rounded at the scale of the quotient's own binade; one that
    rounds up to the next power of two is, by its rank, the first number of the next binade. -/
def ofRatio (numerator denominator : Nat) : Magnitude :=
  if numerator = 0 then zero
  else
    let scale := max leastScale (floorLog2Ratio numerator denominator - fractionBits)
    ofRank ((scale - leastScale).toNat * Nat.pow 2 fractionBits
      + roundScaled numerator denominator scale)

end Magnitude

/-! ## Signed numbers -/

/-- A binary64 number.  All NaNs are one. -/
inductive Binary64 where
  | nan
  | signed (negative : Bool) (magnitude : Magnitude)
deriving DecidableEq, Repr

namespace Binary64

/-- Equality of numbers: NaN differs from everything, and zero has no sign. -/
def equal : Binary64 → Binary64 → Bool
  | signed s x, signed t y => x == y && (s == t || x == Magnitude.zero)
  | _, _ => false

end Binary64

end LoxScan
