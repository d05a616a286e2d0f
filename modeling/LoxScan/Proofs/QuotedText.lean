import LoxScan.Proofs.DigitRow
import LoxScan.Text.Quoted

/-! # Reading quoted text

A quoted text says where it ends, whatever stands behind it, and which text was quoted.

* `readEscape?` reads the written form of one character; `readEscape?_escape` says that it is the
  left inverse of `escape`.
* `append_quotedChars_inj`: texts that begin with a quoted text agree exactly if the texts that were
  quoted agree, and what stands behind them.
-/

namespace LoxScan

/-! ## Lengths of code points -/

theorem length_hexDigits {width n : Nat} (hpos : 0 < width) (h : n < 16 ^ width) :
    (hexDigits width n).length = width := by
  have hle := (Nat.length_toDigits_le_iff (by decide : 1 < 16) hpos).2 h
  rw [hexDigits, length_padLeft]
  omega

/-! ## One character -/

def readCodePoint (width : Nat) (text : List Char) : Char × List Char :=
  (Char.ofNat (hexValue (text.take width)), text.drop width)

/-- The first character of a quoted text, and the text behind it. -/
def readEscape? : List Char → Option (Char × List Char)
  | [] => none
  | '\\' :: 't' :: rest => some ('\t', rest)
  | '\\' :: 'n' :: rest => some ('\n', rest)
  | '\\' :: 'r' :: rest => some ('\r', rest)
  | '\\' :: 'x' :: rest => some (readCodePoint 2 rest)
  | '\\' :: 'u' :: rest => some (readCodePoint 4 rest)
  | '\\' :: 'U' :: rest => some (readCodePoint 8 rest)
  | '\\' :: c :: rest => some (c, rest)
  | c :: rest => some (c, rest)

theorem readCodePoint_hexDigits {width : Nat} {c : Char} (hpos : 0 < width)
    (h : c.toNat < 16 ^ width) (rest : List Char) :
    readCodePoint width (hexDigits width c.toNat ++ rest) = (c, rest) := by
  have hlength := length_hexDigits hpos h
  rw [readCodePoint, List.take_left' hlength, List.drop_left' hlength, hexValue_hexDigits,
    Char.ofNat_toNat]

theorem quoteMark_eq (text : List Char) : quoteMark text = '\'' ∨ quoteMark text = '"' := by
  rw [quoteMark]
  split <;> simp

theorem readEscape?_of_ne {c : Char} (h : c ≠ '\\') (rest : List Char) :
    readEscape? (c :: rest) = some (c, rest) := by
  unfold readEscape?
  split <;> simp_all

theorem readEscape?_escape {quote : Char} (hquote : quote = '\'' ∨ quote = '"') (c : Char)
    (rest : List Char) : readEscape? (escape quote c ++ rest) = some (c, rest) := by
  rw [escape]
  split
  · next h =>
    have hc : c = '\'' ∨ c = '"' ∨ c = '\\' := by
      simp only [Bool.or_eq_true, beq_iff_eq] at h
      obtain rfl | rfl := hquote <;> tauto
    obtain rfl | rfl | rfl := hc <;> rfl
  next hplain =>
  split
  · next h =>
    obtain rfl := beq_iff_eq.1 h
    rfl
  split
  · next h =>
    obtain rfl := beq_iff_eq.1 h
    rfl
  split
  · next h =>
    obtain rfl := beq_iff_eq.1 h
    rfl
  split
  · apply readEscape?_of_ne
    rintro rfl
    simp at hplain
  split
  · next h => exact congrArg some (readCodePoint_hexDigits (by decide) h rest)
  split
  · next h => exact congrArg some (readCodePoint_hexDigits (by decide) h rest)
  · have hsmall : c.toNat < 16 ^ 8 := c.val.toNat_lt
    exact congrArg some (readCodePoint_hexDigits (by decide) hsmall rest)

/-- No written form of a character begins with the quote. -/
theorem head?_escape_ne {quote : Char} (hquote : quote = '\'' ∨ quote = '"') (c : Char)
    (rest : List Char) : (escape quote c ++ rest).head? ≠ some quote := by
  have hmark : '\\' ≠ quote := by
    obtain rfl | rfl := hquote <;> decide
  rw [escape]
  split
  · simpa using hmark
  next hplain =>
  have hc : c ≠ quote := by
    rintro rfl
    simp at hplain
  repeat' split
  all_goals simp [hmark, hc]

/-! ## Whole texts -/

/-- Between the same quotes, the written forms of the characters say where the text ends. -/
theorem append_flatMap_escape_inj {quote : Char} (hquote : quote = '\'' ∨ quote = '"')
    {a b rest other : List Char}
    (h : a.flatMap (escape quote) ++ quote :: rest = b.flatMap (escape quote) ++ quote :: other) :
    a = b ∧ rest = other := by
  -- Both texts are read one character at a time, and neither ends before the other, as no written
  -- form begins with the quote.
  induction a generalizing b with
  | nil =>
    cases b with
    | nil => exact ⟨rfl, (List.cons.inj h).2⟩
    | cons c b =>
      rw [List.flatMap_cons, List.append_assoc] at h
      exact absurd (congrArg List.head? h).symm (head?_escape_ne hquote c _)
  | cons c a ih =>
    cases b with
    | nil =>
      rw [List.flatMap_cons, List.append_assoc] at h
      exact absurd (congrArg List.head? h) (head?_escape_ne hquote c _)
    | cons d b =>
      rw [List.flatMap_cons, List.flatMap_cons, List.append_assoc, List.append_assoc] at h
      have hread := congrArg readEscape? h
      rw [readEscape?_escape hquote, readEscape?_escape hquote] at hread
      simp only [Option.some.injEq, Prod.mk.injEq] at hread
      obtain ⟨rfl, hrest⟩ := hread
      obtain ⟨rfl, hend⟩ := ih hrest
      exact ⟨rfl, hend⟩

/-- A quoted text says where it ends. -/
theorem append_quotedChars_inj {a b rest other : List Char} :
    quotedChars a ++ rest = quotedChars b ++ other ↔ a = b ∧ rest = other := by
  constructor
  · intro h
    simp only [quotedChars, List.cons_append, List.append_assoc] at h
    -- The first character says which quote was chosen.
    obtain ⟨hquote, hbody⟩ := List.cons.inj h
    rw [← hquote] at hbody
    exact append_flatMap_escape_inj (quoteMark_eq a) hbody
  · rintro ⟨rfl, rfl⟩
    rfl

end LoxScan
