import LoxScan.Number.Binary64

/-! # Decimal numbers and their texts

A `Decimal` is an integer coefficient times a power of ten.  It is what a numeral denotes before it
is rounded to binary64.

* `Decimal.ofNumeral` is the value of a numeral: digits, or digits, a dot and digits.
* `Decimal.nearest` rounds to the nearest magnitude, whatever the number of digits.
* `Binary64.ofText?` reads the wider notation with a sign, an exponent, infinities and NaN.
-/

namespace LoxScan

structure Decimal where
  coefficient : Nat
  exponent : Int
deriving DecidableEq, Repr

namespace Decimal

def nearest (d : Decimal) : Magnitude :=
  if 0 ≤ d.exponent then Magnitude.ofRatio (d.coefficient * Nat.pow 10 d.exponent.toNat) 1
  else Magnitude.ofRatio d.coefficient (Nat.pow 10 (-d.exponent).toNat)

/-- The value of a numeral.  The digits after the dot scale the coefficient down. -/
def ofNumeral (text : List Char) : Decimal :=
  let whole := text.takeWhile Char.isDigit
  let fraction := (text.dropWhile Char.isDigit).drop 1
  ⟨Nat.ofDigitChars 10 (whole ++ fraction) 0, -(fraction.length : Int)⟩

/-- An exponent no decimal with a nonzero coefficient reaches without being infinite. -/
def largestUsefulExponent : Int := 400

/-- The same magnitude with an exponent of moderate size: beyond `10 ^ 400` everything but zero is
    infinite, and below `10 ^ (-400)` everything is zero. -/
def clamp (d : Decimal) : Decimal :=
  let least := -((d.coefficient.log2 : Int) + 1 + largestUsefulExponent)
  ⟨d.coefficient, min largestUsefulExponent (max least d.exponent)⟩

end Decimal

/-! ## Numbers with sign and exponent -/

def splitSign : List Char → Bool × List Char
  | '-' :: rest => (true, rest)
  | '+' :: rest => (false, rest)
  | text => (false, text)

def readExponent? (text : List Char) : Option Int :=
  let (negative, digits) := splitSign text
  if digits.isEmpty || !digits.all Char.isDigit then none
  else
    let size : Int := (Nat.ofDigitChars 10 digits 0 : Nat)
    some (if negative then -size else size)

/-- An unsigned decimal with an optional exponent.  One side of the dot may be empty. -/
def Decimal.ofText? (text : List Char) : Option Decimal :=
  let whole := text.takeWhile Char.isDigit
  let afterWhole := text.dropWhile Char.isDigit
  let (fraction, rest) := match afterWhole with
    | '.' :: more => (more.takeWhile Char.isDigit, more.dropWhile Char.isDigit)
    | other => ([], other)
  let value (shift : Int) : Decimal :=
    ⟨Nat.ofDigitChars 10 (whole ++ fraction) 0, shift - fraction.length⟩
  if (whole ++ fraction).isEmpty then none
  else match rest with
    | [] => some (value 0)
    | mark :: digits =>
      if mark == 'e' || mark == 'E' then (readExponent? digits).map value else none

def Binary64.ofText? (text : String) : Option Binary64 :=
  let (negative, unsigned) := splitSign text.toList
  match String.ofList (unsigned.map Char.toLower) with
  | "nan" => some .nan
  | "inf" | "infinity" => some (.signed negative .infinity)
  | _ => (Decimal.ofText? unsigned).map fun d => .signed negative d.clamp.nearest

end LoxScan
