/-! # Line endings

A text file may end its lines with a line feed, a carriage return, or both in this order.  Reading
turns all three into a line feed.
-/

namespace LoxScan

/-- The text with every line ending written as a single line feed. -/
def unifyLineEndings : List Char → List Char
  | [] => []
  | '\r' :: '\n' :: rest => '\n' :: unifyLineEndings rest
  | c :: rest => (if c = '\r' then '\n' else c) :: unifyLineEndings rest

def countLines (text : List Char) : Nat :=
  text.count '\n'

@[simp] theorem countLines_nil : countLines [] = 0 := rfl

@[simp] theorem countLines_append (a b : List Char) :
    countLines (a ++ b) = countLines a + countLines b := by
  simp [countLines]

theorem countLines_eq_zero {text : List Char} (h : '\n' ∉ text) : countLines text = 0 :=
  List.count_eq_zero.2 h

theorem countLines_cons_of_ne {c : Char} (h : c ≠ '\n') (text : List Char) :
    countLines (c :: text) = countLines text :=
  List.count_cons_of_ne h

end LoxScan
