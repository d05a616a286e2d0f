/-! # Rows of characters

* `padLeft` fills a text up on the left to a least width.
* `hexDigits` writes a number in lower-case hexadecimal with a least number of digits.
* `upperCase` turns the ASCII letters of a text into capitals.
-/

namespace LoxScan

def padLeft (width : Nat) (fill : Char) (text : List Char) : List Char :=
  List.replicate (width - text.length) fill ++ text

/-- A number in lower-case hexadecimal, filled up with zeros. -/
def hexDigits (width : Nat) (n : Nat) : List Char :=
  padLeft width '0' (Nat.toDigits 16 n)

/-- The capitals of the ASCII letters; every other character stays. -/
def upperCase (text : List Char) : List Char :=
  text.map Char.toUpper

theorem length_padLeft (width : Nat) (fill : Char) (text : List Char) :
    (padLeft width fill text).length = max width text.length := by
  simp [padLeft]
  omega

end LoxScan
