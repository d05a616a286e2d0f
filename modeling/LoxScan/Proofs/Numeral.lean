import LoxScan.Proofs.Rounding
import LoxScan.Proofs.Scanned

/-! # Values of numerals

A numeral is read by its digits' places, and the value of a number token is the binary64 number
nearest to that.

* `numeralValue` is the exact value of a numeral, place by place; `toRat_ofNumeral` says that a
  number lexeme is taken for this value.
* `numeralValue_zeros_append` and the two statements after it say which zeros make no difference.
* `number_literals`: what the literal of a number token is, and how it goes with its lexeme.
-/

namespace LoxScan

/-! ## Places -/

def digitValue (c : Char) : ℚ :=
  (c.toNat - '0'.toNat : Nat)

/-- The value of digits before the dot: the last one counts once, and each one before it ten times
    as much as the next. -/
def wholeValue : List Char → ℚ
  | [] => 0
  | c :: rest => digitValue c * 10 ^ rest.length + wholeValue rest

/-- The value of digits after the dot: the first one counts a tenth, and each one after it a tenth
    of the one before. -/
def fractionValue : List Char → ℚ
  | [] => 0
  | c :: rest => (digitValue c + fractionValue rest) / 10

def numeralValue (text : List Char) : ℚ :=
  wholeValue (text.takeWhile (· != '.')) + fractionValue ((text.dropWhile (· != '.')).drop 1)

@[simp] theorem digitValue_zero : digitValue '0' = 0 := by
  simp [digitValue]

/-- The first digit of a row of digits counts for all the others. -/
theorem ofDigitChars_cons_eq (c : Char) (rest : List Char) :
    ((Nat.ofDigitChars 10 (c :: rest) 0 : Nat) : ℚ)
      = digitValue c * 10 ^ rest.length + (Nat.ofDigitChars 10 rest 0 : Nat) := by
  rw [Nat.ofDigitChars_cons, Nat.mul_zero, Nat.zero_add, Nat.ofDigitChars_eq_ofDigitChars_zero,
    digitValue]
  push_cast
  ring

theorem wholeValue_eq (digits : List Char) :
    wholeValue digits = (Nat.ofDigitChars 10 digits 0 : Nat) := by
  induction digits with
  | nil => simp [wholeValue]
  | cons c rest ih => rw [wholeValue, ih, ofDigitChars_cons_eq]

theorem fractionValue_eq (digits : List Char) :
    fractionValue digits = (Nat.ofDigitChars 10 digits 0 : Nat) / 10 ^ digits.length := by
  induction digits with
  | nil => simp [fractionValue]
  | cons c rest ih =>
    rw [fractionValue, ih, ofDigitChars_cons_eq, List.length_cons, pow_succ]
    field_simp

/-! ## Numerals of digits with and without a dot -/

section Parts

variable {whole part : List Char}

theorem isDigit_of_mem_zeros {n : Nat} : ∀ c ∈ List.replicate n '0', c.isDigit = true := by
  intro c hc
  rw [List.eq_of_mem_replicate hc]
  rfl

theorem bne_dot_of_isDigit (h : ∀ c ∈ whole, c.isDigit = true) : ∀ c ∈ whole, (c != '.') = true :=
  forall_bne_of_not_mem fun hdot => absurd (h _ hdot) (by decide)

theorem numeralValue_whole (h : ∀ c ∈ whole, (c != '.') = true) :
    numeralValue whole = wholeValue whole := by
  rw [numeralValue, List.takeWhile_eq_self_iff.2 h, List.dropWhile_eq_nil_iff.2 h]
  simp [fractionValue]

theorem numeralValue_dot (h : ∀ c ∈ whole, (c != '.') = true) :
    numeralValue (whole ++ '.' :: part) = wholeValue whole + fractionValue part := by
  rw [numeralValue, takeWhile_run h rfl, dropWhile_run h rfl, List.drop_one, List.tail_cons]

theorem toRat_ofNumeral_whole (h : ∀ c ∈ whole, c.isDigit = true) :
    (Decimal.ofNumeral whole).toRat = numeralValue whole := by
  rw [numeralValue_whole (bne_dot_of_isDigit h), wholeValue_eq, Decimal.toRat, Decimal.ofNumeral,
    List.takeWhile_eq_self_iff.2 h, List.dropWhile_eq_nil_iff.2 h]
  simp

theorem toRat_ofNumeral_dot (h : ∀ c ∈ whole, c.isDigit = true) :
    (Decimal.ofNumeral (whole ++ '.' :: part)).toRat = numeralValue (whole ++ '.' :: part) := by
  rw [numeralValue_dot (bne_dot_of_isDigit h), wholeValue_eq, fractionValue_eq, Decimal.toRat,
    Decimal.ofNumeral, takeWhile_run h rfl, dropWhile_run h rfl, List.drop_one, List.tail_cons,
    Nat.ofDigitChars_append, Nat.ofDigitChars_eq_ofDigitChars_zero, zpow_neg, zpow_natCast]
  push_cast
  field_simp

end Parts

theorem Lexeme.toRat_ofNumeral {l : Lexeme} (h : l.kind = .number) :
    (Decimal.ofNumeral l.text).toRat = numeralValue l.text := by
  cases l with
  | fixed kind spelling hspelling =>
    obtain rfl : kind = .number := h
    cases hspelling
  | identifier | string => cases h
  | number whole fraction =>
    cases fraction with
    | none => exact toRat_ofNumeral_whole whole.isDigit_of_mem
    | some part => exact toRat_ofNumeral_dot whole.isDigit_of_mem

/-! ## Zeros that make no difference -/

theorem wholeValue_zeros_append (n : Nat) (digits : List Char) :
    wholeValue (List.replicate n '0' ++ digits) = wholeValue digits := by
  induction n with
  | zero => rfl
  | succ n ih =>
    rw [List.replicate_succ, List.cons_append, wholeValue, ih]
    simp

theorem fractionValue_append_zeros (digits : List Char) (n : Nat) :
    fractionValue (digits ++ List.replicate n '0') = fractionValue digits := by
  induction digits with
  | nil =>
    induction n with
    | zero => rfl
    | succ n ih =>
      rw [List.nil_append] at ih ⊢
      rw [List.replicate_succ]
      simp [fractionValue, ih]
  | cons c rest ih => rw [List.cons_append, fractionValue, fractionValue, ih]

theorem numeralValue_zeros_append (n : Nat) (text : List Char) :
    numeralValue (List.replicate n '0' ++ text) = numeralValue text := by
  have hzeros : ∀ c ∈ List.replicate n '0', (c != '.') = true :=
    bne_dot_of_isDigit isDigit_of_mem_zeros
  rw [numeralValue, List.takeWhile_append_of_pos hzeros, List.dropWhile_append_of_pos hzeros,
    wholeValue_zeros_append, numeralValue]

theorem numeralValue_append_zeros {text : List Char} (hdot : '.' ∈ text) (n : Nat) :
    numeralValue (text ++ List.replicate n '0') = numeralValue text := by
  obtain ⟨whole, part, rfl, hwhole⟩ := List.eq_append_cons_of_mem hdot
  rw [List.append_assoc, List.cons_append, numeralValue_dot (forall_bne_of_not_mem hwhole),
    numeralValue_dot (forall_bne_of_not_mem hwhole), fractionValue_append_zeros]

theorem numeralValue_dot_zeros {text : List Char} (hdot : '.' ∉ text) (n : Nat) :
    numeralValue (text ++ '.' :: List.replicate n '0') = numeralValue text := by
  have hfraction := fractionValue_append_zeros [] n
  rw [List.nil_append] at hfraction
  rw [numeralValue_dot (forall_bne_of_not_mem hdot), hfraction,
    numeralValue_whole (forall_bne_of_not_mem hdot)]
  simp [fractionValue]

/-- Numerals that differ by zeros at their beginning, at the end of their fraction, or by a fraction
    of zeros. -/
inductive SameButZeros : List Char → List Char → Prop
  | before (n : Nat) (text : List Char) : SameButZeros (List.replicate n '0' ++ text) text
  | behind {text : List Char} (hdot : '.' ∈ text) (n : Nat) :
      SameButZeros (text ++ List.replicate n '0') text
  | fraction {text : List Char} (hdot : '.' ∉ text) (n : Nat) :
      SameButZeros (text ++ '.' :: List.replicate n '0') text

theorem SameButZeros.numeralValue_eq {a b : List Char} (h : SameButZeros a b) :
    numeralValue a = numeralValue b := by
  cases h with
  | before n text => exact numeralValue_zeros_append n _
  | behind hdot n => exact numeralValue_append_zeros hdot n
  | fraction hdot n => exact numeralValue_dot_zeros hdot n

/-! ## Number tokens -/

/-- The literal of a number token, in terms of the exact value of its lexeme. -/
theorem Token.Scanned.exists_literal {t : Token} (h : t.Scanned) (hkind : t.kind = .number) :
    ∃ d : Decimal, d.toRat = numeralValue t.lexeme.toList ∧
      t.literal = some (.number (.signed false d.nearest)) := by
  obtain ⟨l, line, rfl⟩ := h.exists_lexeme (by simp [hkind])
  have hl : l.kind = .number := hkind
  refine ⟨Decimal.ofNumeral l.text, ?_, ?_⟩
  · rw [Lexeme.toRat_ofNumeral hl, Lexeme.token, String.toList_ofList]
  · cases l with
    | fixed kind spelling hspelling =>
      obtain rfl : kind = .number := hkind
      cases hspelling
    | identifier | string => cases hkind
    | number => rfl

/-- The literal of a number token is the binary64 number nearest to the exact value of its lexeme,
    and not negative; a finite one is nearest among all numbers of the format.  So literals are in
    the order of the values, and lexemes of the same value have the same literal. -/
theorem number_literals :
    (∀ t : Token, t.Scanned → t.kind = .number →
      ∃ x, t.literal = some (.number (.signed false x)) ∧
        IsNearest (numeralValue t.lexeme.toList) x ∧
        (x.isInfinite = false → Representable x.toRat ∧ ∀ p, Representable p →
          |numeralValue t.lexeme.toList - x.toRat| ≤ |numeralValue t.lexeme.toList - p|)) ∧
    (∀ t u : Token, t.Scanned → u.Scanned → t.kind = .number → u.kind = .number →
      numeralValue t.lexeme.toList ≤ numeralValue u.lexeme.toList →
        ∃ x y, t.literal = some (.number (.signed false x)) ∧
          u.literal = some (.number (.signed false y)) ∧ x.value ≤ y.value) ∧
    (∀ t u : Token, t.Scanned → u.Scanned → t.kind = .number → u.kind = .number →
      numeralValue t.lexeme.toList = numeralValue u.lexeme.toList ∨
        SameButZeros t.lexeme.toList u.lexeme.toList → t.literal = u.literal) := by
  refine ⟨fun t ht hkind => ?_, fun t u ht hu hkind hkind' hle => ?_,
    fun t u ht hu hkind hkind' hsame => ?_⟩
  · obtain ⟨d, hvalue, hliteral⟩ := ht.exists_literal hkind
    have hnearest := d.isNearest_nearest
    rw [hvalue] at hnearest
    exact ⟨d.nearest, hliteral, hnearest, hnearest.representable⟩
  · obtain ⟨d, hd, ht⟩ := ht.exists_literal hkind
    obtain ⟨e, he, hu⟩ := hu.exists_literal hkind'
    refine ⟨d.nearest, e.nearest, ht, hu, Magnitude.value_le_value_iff.2 ?_⟩
    apply Decimal.rank_nearest_le
    rwa [hd, he]
  · obtain ⟨d, hd, ht⟩ := ht.exists_literal hkind
    obtain ⟨e, he, hu⟩ := hu.exists_literal hkind'
    have hvalue : numeralValue t.lexeme.toList = numeralValue u.lexeme.toList :=
      hsame.elim id SameButZeros.numeralValue_eq
    have hnearest : d.nearest = e.nearest := by
      apply Decimal.nearest_congr
      rw [hd, he, hvalue]
    rw [ht, hu, hnearest]

/-- The same value written with and without zeros that make no difference. -/
theorem number_literals_two_and_a_half :
    let two : Digits := ⟨'2', [], rfl, by simp⟩
    let five : Digits := ⟨'5', [], rfl, by simp⟩
    let t := (Lexeme.number two (some five)).token 1
    let u := (Lexeme.number ⟨'0', two.text, rfl, two.isDigit_of_mem⟩
      (some ⟨'5', ['0'], rfl, by simp⟩)).token 1
    t.Scanned ∧ u.Scanned ∧ t.lexeme = "2.5" ∧ u.lexeme = "02.50" ∧
      (∃ x, t.literal = some (.number (.signed false x)) ∧ IsNearest (5 / 2) x ∧
        (x.isInfinite = false → Representable x.toRat ∧ ∀ p, Representable p →
          |5 / 2 - x.toRat| ≤ |5 / 2 - p|)) ∧
      (∃ x y, t.literal = some (.number (.signed false x)) ∧
        u.literal = some (.number (.signed false y)) ∧ x.value ≤ y.value) ∧
      t.literal = u.literal := by
  intro two five t u
  have ht : t.Scanned := Lexeme.scanned_token _
  have hu : u.Scanned := Lexeme.scanned_token _
  have htext : t.lexeme.toList = ['2'] ++ '.' :: ['5'] := String.toList_ofList
  have htext' : u.lexeme.toList = ['0', '2'] ++ '.' :: ['5', '0'] :=
    String.toList_ofList
  have hvalue : numeralValue t.lexeme.toList = 5 / 2 := by
    rw [htext, numeralValue_dot (List.all_eq_true.1 rfl)]
    simp [wholeValue, fractionValue, digitValue]
    norm_num
  have hvalue' : numeralValue u.lexeme.toList = 5 / 2 := by
    rw [htext', numeralValue_dot (List.all_eq_true.1 rfl)]
    simp [wholeValue, fractionValue, digitValue]
    norm_num
  obtain ⟨hnearest, hle, hsame⟩ := number_literals
  refine ⟨ht, hu, rfl, rfl, ?_, ?_, ?_⟩
  · rw [← hvalue]
    exact hnearest t ht rfl
  · exact hle t u ht hu rfl rfl (hvalue.trans hvalue'.symm).le
  · exact hsame t u ht hu rfl rfl (.inl (hvalue.trans hvalue'.symm))

end LoxScan
