import LoxScan.Number.Decimal
import LoxScan.Text.Basic

/-! # The shortest text of a number

A number is written with the fewest significant digits that read back to it, and of the decimals
with that many digits with the one nearest to the number.

* `Magnitude.exact` is the exact decimal value, which every finite binary64 number has.
* `Magnitude.onGrid?` looks at the two neighbours of the exact value on a coarser decimal grid: if
  any point of a grid reads back, one of these two does.
* `Magnitude.shortest` takes the coarsest grid that has a hit.
* `NumberLayout` says how the digits are laid out: positionally or with an exponent.
* `Binary64.text` puts it together.
-/

namespace LoxScan

/-! ## Digits -/

namespace Magnitude

/-- The exact value of a finite magnitude: a power of two below one is a power of five and a shift
    of the decimal point. -/
def exact (x : Magnitude) : Decimal :=
  if 0 ≤ x.scale then ⟨x.significand * Nat.pow 2 x.scale.toNat, 0⟩
  else ⟨x.significand * Nat.pow 5 (-x.scale).toNat, x.scale⟩

/-- The better of the two neighbours of a value on the grid that drops some of its last digits,
    among those that read back to `x`.  Of two equally near ones the even one is taken. -/
def onGrid? (x : Magnitude) (value : Decimal) (dropped : Nat) : Option Decimal :=
  let step := Nat.pow 10 dropped
  let below : Decimal := ⟨value.coefficient / step, value.exponent + dropped⟩
  let above : Decimal := ⟨value.coefficient / step + 1, value.exponent + dropped⟩
  let twice := 2 * (value.coefficient % step)
  match decide (below.nearest = x), decide (above.nearest = x) with
  | true, true =>
    -- both read back: the nearer one, measured in halves of the step
    if twice < step then some below
    else if step < twice then some above
    else if below.coefficient % 2 = 0 then some below
    else some above
  | true, false => some below
  | false, true => some above
  | false, false => none

/-- Seventeen digits tell any two binary64 numbers apart. -/
def enoughDigits : Nat := 17

def shortest (x : Magnitude) : Decimal :=
  let value := x.exact
  let size := (Nat.toDigits 10 value.coefficient).length
  ((List.range enoughDigits).findSome? fun fewer => x.onGrid? value (size - (fewer + 1))).getD value

end Magnitude

/-! ## Layout -/

/-- How a row of digits becomes a text.  A number `d.ddd * 10 ^ e` is written positionally when
    `leastPositional ≤ e < scientificFrom`, and with an exponent of at least `exponentWidth` digits
    otherwise. -/
structure NumberLayout where
  leastPositional : Int
  scientificFrom : Int
  exponentWidth : Nat
deriving DecidableEq, Repr

/-- Number literals are positional from a ten-thousandth up to, but not including, ten to the
    sixteenth, and an exponent has two digits or more. -/
def literalLayout : NumberLayout := ⟨-4, 16, 2⟩

def stripTrailingZeros (digits : List Char) : List Char :=
  (digits.reverse.dropWhile (· == '0')).reverse

/-- Digits with the point in its place; a whole number keeps one zero after the point. -/
def positional (digits : List Char) (exponent : Int) : List Char :=
  if exponent < 0 then
    '0' :: '.' :: (List.replicate ((-exponent).toNat - 1) '0' ++ digits)
  else
    let wholeSize := exponent.toNat + 1
    let padded := digits ++ List.replicate (wholeSize - digits.length) '0'
    let fraction := padded.drop wholeSize
    padded.take wholeSize ++ '.' :: (if fraction.isEmpty then ['0'] else fraction)

/-- Digits with the point after the first, if there are more, and the exponent with its sign. -/
def scientific (exponentWidth : Nat) (digits : List Char) (exponent : Int) : List Char :=
  let tail := digits.drop 1
  digits.take 1 ++ (if tail.isEmpty then [] else '.' :: tail)
    ++ 'e' :: (if exponent < 0 then '-' else '+')
    :: padLeft exponentWidth '0' (Nat.toDigits 10 exponent.natAbs)

namespace NumberLayout

def text (layout : NumberLayout) (d : Decimal) : List Char :=
  let row := Nat.toDigits 10 d.coefficient
  let exponent := d.exponent + row.length - 1
  let digits := stripTrailingZeros row
  if layout.leastPositional ≤ exponent ∧ exponent < layout.scientificFrom then
    positional digits exponent
  else scientific layout.exponentWidth digits exponent

end NumberLayout

/-! ## Numbers as text -/

def Magnitude.text (x : Magnitude) : List Char :=
  if x.isInfinite then ['i', 'n', 'f']
  else if x.rank = 0 then ['0', '.', '0']
  else literalLayout.text x.shortest

/-- The text of a number; a negative zero keeps its sign. -/
def Binary64.text : Binary64 → String
  | nan => "nan"
  | signed negative x =>
    String.ofList (if negative then '-' :: x.text else x.text)

end LoxScan
