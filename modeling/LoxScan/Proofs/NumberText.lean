import LoxScan.Proofs.Adjacency
import LoxScan.Proofs.Numeral
import LoxScan.Proofs.ShortestDigits

/-! # Texts of numbers

The text of a number is scanned as a number again, with the same value, unless it is in scientific
notation or infinite.

* `exists_positional`: a text in positional notation is a number lexeme, for the number of its row
  of digits.  `exists_scientific`: one in scientific notation is four lexemes.
* `Magnitude.IsPositional` singles out the numbers in positional notation, by exact bounds or by
  the binary64 numbers that these are read as (`Magnitude.isPositional_iff_value`);
  `Magnitude.le_leadExponent_shortest_iff` says that printing does not move a number over a bound.
* `Magnitude.text_of_layout`: what is printed are the digits of the shortest decimal, which
  `Magnitude.isShortest_shortest` is about.
* `rescan_number_text`: what the text of the literal of a number token is scanned as.
-/

namespace LoxScan

/-! ## Rows of digits as lexemes -/

theorem exists_digits {text : List Char} (hne : text ≠ []) (h : ∀ c ∈ text, c.isDigit = true) :
    ∃ digits : Digits, digits.text = text := by
  obtain ⟨c, rest, rfl⟩ := List.exists_cons_of_ne_nil hne
  obtain ⟨hc, hrest⟩ := List.forall_mem_cons.1 h
  exact ⟨⟨c, rest, hc, hrest⟩, rfl⟩

/-- The digits on both sides of a dot are one row. -/
theorem numeralValue_dot_eq_rowValue {whole part : List Char} (h : ∀ c ∈ whole, c.isDigit = true) :
    numeralValue (whole ++ '.' :: part) = rowValue (whole ++ part) (whole.length - 1) := by
  have hexponent : (whole.length : Int) - 1 + 1 - (whole ++ part).length = -part.length := by
    rw [List.length_append]
    omega
  rw [← toRat_ofNumeral_dot h, rowValue, hexponent, Decimal.toRat, Decimal.ofNumeral,
    takeWhile_run h rfl, dropWhile_run h rfl, List.drop_one, List.tail_cons]

/-! ## Positional notation -/

section Positional

variable {digits : List Char} {exponent : Int}

theorem exists_positional_of_neg (hne : digits ≠ []) (hdigits : ∀ c ∈ digits, c.isDigit = true)
    (hneg : exponent < 0) : ∃ whole part : Digits,
      positional digits exponent = whole.text ++ '.' :: part.text ∧
        rowValue (whole.text ++ part.text) (whole.text.length - 1) = rowValue digits exponent := by
  rw [positional, if_pos hneg]
  generalize hzeros : (-exponent).toNat - 1 = zeros
  have hpart : ∀ c ∈ List.replicate zeros '0' ++ digits, c.isDigit = true :=
    List.forall_mem_append.2 ⟨isDigit_of_mem_zeros, hdigits⟩
  obtain ⟨part, hpart⟩ := exists_digits (by simp [hne]) hpart
  refine ⟨⟨'0', [], rfl, by simp⟩, part, ?_, ?_⟩
  · rw [hpart]
    rfl
  · have hrow : ['0'] ++ (List.replicate zeros '0' ++ digits)
        = List.replicate (zeros + 1) '0' ++ digits := by
      rw [List.replicate_succ]
      rfl
    have hexponent : (['0'].length : Int) - 1 - (zeros + 1 : Nat) = exponent := by
      rw [List.length_singleton]
      omega
    rw [hpart, Digits.text, hrow, rowValue_zeros_append, hexponent]

theorem exists_positional_of_nonneg (hdigits : ∀ c ∈ digits, c.isDigit = true)
    (hnonneg : 0 ≤ exponent) : ∃ whole part : Digits,
      positional digits exponent = whole.text ++ '.' :: part.text ∧
        rowValue (whole.text ++ part.text) (whole.text.length - 1) = rowValue digits exponent := by
  simp only [positional, if_neg (Int.not_lt.2 hnonneg)]
  generalize hzeros : exponent.toNat + 1 - digits.length = zeros
  have hpadded : ∀ c ∈ digits ++ List.replicate zeros '0', c.isDigit = true :=
    List.forall_mem_append.2 ⟨hdigits, isDigit_of_mem_zeros⟩
  have hlength : ((digits ++ List.replicate zeros '0').take (exponent.toNat + 1)).length
      = exponent.toNat + 1 := by
    rw [List.length_take, List.length_append, List.length_replicate]
    omega
  have hvalue := rowValue_append_zeros digits zeros exponent
  generalize digits ++ List.replicate zeros '0' = padded at hpadded hlength hvalue ⊢
  obtain ⟨whole, hwhole⟩ := exists_digits (List.ne_nil_of_length_pos (by rw [hlength]; omega))
    fun c hc => hpadded c (List.mem_of_mem_take hc)
  rw [← hwhole] at hlength ⊢
  have hexponent : (whole.text.length : Int) - 1 = exponent := by
    omega
  rw [← hvalue]
  cases hfraction : padded.drop (exponent.toNat + 1) with
  | nil =>
    refine ⟨whole, ⟨'0', [], rfl, by simp⟩, rfl, ?_⟩
    have hall := List.take_append_drop (exponent.toNat + 1) padded
    rw [hfraction, List.append_nil, ← hwhole] at hall
    rw [hexponent, ← hall]
    exact rowValue_append_zeros whole.text 1 exponent
  | cons c rest =>
    obtain ⟨part, hpart⟩ := exists_digits (hfraction ▸ List.cons_ne_nil c rest)
      fun c hc => hpadded c (List.mem_of_mem_drop hc)
    refine ⟨whole, part, ?_, ?_⟩
    · rw [hpart, hfraction]
      rfl
    · rw [hexponent, hwhole, hpart, List.take_append_drop]

/-- A text in positional notation is a number lexeme for the number of its row. -/
theorem exists_positional (hne : digits ≠ []) (hdigits : ∀ c ∈ digits, c.isDigit = true)
    (exponent : Int) : ∃ whole part : Digits,
      positional digits exponent = (Lexeme.number whole (some part)).text ∧
        numeralValue (positional digits exponent) = rowValue digits exponent := by
  obtain ⟨whole, part, htext, hvalue⟩ : ∃ whole part : Digits,
      positional digits exponent = whole.text ++ '.' :: part.text ∧
        rowValue (whole.text ++ part.text) (whole.text.length - 1) = rowValue digits exponent := by
    rcases Int.lt_or_le exponent 0 with hneg | hnonneg
    · exact exists_positional_of_neg hne hdigits hneg
    · exact exists_positional_of_nonneg hdigits hnonneg
  refine ⟨whole, part, htext, ?_⟩
  rw [htext, numeralValue_dot_eq_rowValue whole.isDigit_of_mem, hvalue]

end Positional

/-! ## Scientific notation -/

/-- The mark of an exponent is a word by itself. -/
def exponentMark : Lexeme :=
  .identifier 'e' [] rfl (by simp) fun word => by cases word <;> decide

def exponentSign (exponent : Int) : Lexeme :=
  if exponent < 0 then .fixed .minus "-" rfl else .fixed .plus "+" rfl

theorem text_exponentSign (exponent : Int) :
    (exponentSign exponent).text = [if exponent < 0 then '-' else '+'] := by
  rw [exponentSign]
  split <;> rfl

theorem isDigit_of_mem_exponent {width n : Nat} :
    ∀ c ∈ padLeft width '0' (Nat.toDigits 10 n), c.isDigit = true := by
  rw [padLeft]
  exact List.forall_mem_append.2 ⟨isDigit_of_mem_zeros,
    fun c hc => Nat.isDigit_of_mem_toDigits (by decide) (by decide) hc⟩

theorem exists_mantissa {digits : List Char} (hne : digits ≠ [])
    (hdigits : ∀ c ∈ digits, c.isDigit = true) : ∃ (whole : Digits) (fraction : Option Digits),
      digits.take 1 ++ (if (digits.drop 1).isEmpty then [] else '.' :: digits.drop 1)
        = (Lexeme.number whole fraction).text := by
  obtain ⟨c, rest, rfl⟩ := List.exists_cons_of_ne_nil hne
  obtain ⟨hc, hrest⟩ := List.forall_mem_cons.1 hdigits
  cases rest with
  | nil => exact ⟨⟨c, [], hc, by simp⟩, none, rfl⟩
  | cons d rest =>
    obtain ⟨hd, hrest⟩ := List.forall_mem_cons.1 hrest
    exact ⟨⟨c, [], hc, by simp⟩, some ⟨d, rest, hd, hrest⟩, rfl⟩

/-- A text in scientific notation is four lexemes, two of them numbers. -/
theorem exists_scientific {digits : List Char} (hne : digits ≠ [])
    (hdigits : ∀ c ∈ digits, c.isDigit = true) (width : Nat) (exponent : Int) :
    ∃ mantissa size : Lexeme, mantissa.kind = .number ∧ size.kind = .number ∧
      scientific width digits exponent
        = Lexeme.written [mantissa, exponentMark, exponentSign exponent, size] := by
  obtain ⟨whole, fraction, hmantissa⟩ := exists_mantissa hne hdigits
  have hlong : padLeft width '0' (Nat.toDigits 10 exponent.natAbs) ≠ [] := by
    simp [padLeft, Nat.toDigits_ne_nil]
  obtain ⟨size, hsize⟩ := exists_digits hlong isDigit_of_mem_exponent
  refine ⟨.number whole fraction, .number size none, rfl, rfl, ?_⟩
  simp only [scientific, hmantissa, ← hsize, Lexeme.written_cons, Lexeme.written_nil,
    text_exponentSign, List.append_nil]
  rfl

/-- What stands behind a number, or behind a word, does not make it longer unless it begins with a
    digit, a dot or a letter. -/
theorem extendedBy_cons_eq_false {l : Lexeme} {c : Char} {rest : List Char}
    (h : l.kind = .number ∧ c.isDigit = false ∧ c ≠ '.' ∨
      l.kind = .identifier ∧ isWordPart c = false) : l.item.extendedBy (c :: rest) = false := by
  rw [Bool.eq_false_iff, Lexeme.item, ne_eq, extendedBy_token_cons_iff]
  rcases h with ⟨hkind, hdigit, hdot⟩ | ⟨hkind, hpart⟩
  · simp [hkind, hdigit, hdot, TokenKind.isWord, TokenKind.isIdentifier, TokenKind.isKeyword]
  · simp [hkind, hpart]

theorem fits_scientific {mantissa size : Lexeme} (hmantissa : mantissa.kind = .number)
    (exponent : Int) :
    Fits [] ([mantissa, exponentMark, exponentSign exponent, size].map Lexeme.item) := by
  refine .cons mantissa.shape_item ?_ (.cons exponentMark.shape_item ?_
    (.cons (exponentSign exponent).shape_item ?_ (.cons size.shape_item ?_ .nil)))
  · exact extendedBy_cons_eq_false (.inl ⟨hmantissa, rfl, by decide⟩)
  · rw [List.map_cons, joined_cons, Lexeme.text_item, text_exponentSign, List.cons_append]
    apply extendedBy_cons_eq_false
    refine .inr ⟨rfl, ?_⟩
    split <;> rfl
  · -- A sign is a token by itself, whatever stands behind it.
    rw [exponentSign]
    split <;> rfl
  · exact Item.extendedBy_nil _

/-! ## Texts of magnitudes -/

namespace Magnitude

variable {x : Magnitude}

/-- Zero and the magnitudes from a ten-thousandth up to, but not including, ten to the sixteenth. -/
def IsPositional (x : Magnitude) : Prop :=
  x.value = 0 ∨ (((1 / 10000 : ℚ) : WithTop ℚ) ≤ x.value ∧ x.value < ((10 ^ 16 : ℚ) : WithTop ℚ))

theorem value_eq_zero_iff : x.value = 0 ↔ x.rank = 0 := by
  have hzero : zero.value = 0 := by
    rw [value_of_finite rfl, toRat_eq, rank_zero, rankValue_zero]
    rfl
  rw [← hzero]
  constructor
  · intro h
    rw [value_injective h, rank_zero]
  · intro h
    rw [ext_rank (h.trans rank_zero.symm)]

theorem isPositional_of_finite (hx : x.isInfinite = false) :
    x.IsPositional ↔ x.rank = 0 ∨ (10 ^ (-4 : Int) ≤ x.toRat ∧ x.toRat < 10 ^ (16 : Int)) := by
  have hlow : (10 : ℚ) ^ (-4 : Int) = 1 / 10000 := by
    norm_num
  rw [IsPositional, value_eq_zero_iff, value_of_finite hx, WithTop.coe_le_coe, WithTop.coe_lt_coe,
    hlow]
  rfl

theorem not_isPositional_of_infinite (hx : x.isInfinite = true) : ¬ x.IsPositional := by
  rw [IsPositional, value_of_infinite hx]
  simp

/-- The bounds may be taken for the binary64 numbers that they are read as, which are compared by
    their ranks. -/
theorem isPositional_iff_rank : x.IsPositional ↔ x.rank = 0 ∨
    ((⟨1, -4⟩ : Decimal).nearest.rank ≤ x.rank ∧
      x.rank < (⟨1, 16⟩ : Decimal).nearest.rank) := by
  cases hx : x.isInfinite with
  | true =>
    have hrank := isInfinite_eq_true_iff.1 hx
    have hzero : x.rank ≠ 0 := by
      rw [hrank]
      decide
    have hlarge : (⟨1, 16⟩ : Decimal).nearest.rank ≤ x.rank := by
      rw [hrank]
      exact rank_le _
    simp [not_isPositional_of_infinite hx, hzero, hlarge]
  | false =>
    obtain ⟨hhigh, hlow⟩ := bounds_le_toRat_nearest
    rw [isPositional_of_finite hx, ← not_le (a := (⟨1, 16⟩ : Decimal).nearest.rank),
      rank_nearest_le_iff hlow hx, rank_nearest_le_iff hhigh hx, Decimal.toRat_tenPow,
      Decimal.toRat_tenPow, not_le]

instance : Decidable x.IsPositional :=
  decidable_of_iff _ isPositional_iff_rank.symm

theorem isPositional_iff_value : x.IsPositional ↔ x.value = 0 ∨
    ((⟨1, -4⟩ : Decimal).nearest.value ≤ x.value ∧
      x.value < (⟨1, 16⟩ : Decimal).nearest.value) := by
  rw [← not_le, value_le_value_iff, value_le_value_iff, value_eq_zero_iff, not_le]
  exact isPositional_iff_rank

/-- The first digit that is printed stands where the number itself has it. -/
theorem le_leadExponent_shortest_iff (hx : x.isInfinite = false) (h : x.rank ≠ 0) :
    (-4 ≤ x.shortest.leadExponent ∧ x.shortest.leadExponent < 16) ↔ x.IsPositional := by
  have hne := coefficient_ne_zero h (nearest_shortest hx)
  rw [isPositional_of_finite hx, ← not_le (a := (10 : ℚ) ^ (16 : Int)),
    ← tenPow_neg_le_toRat_shortest_iff hx, ← tenPow_le_toRat_shortest_iff hx,
    Decimal.pow_le_toRat_iff hne, Decimal.pow_le_toRat_iff hne]
  omega

theorem text_of_layout (hx : x.isInfinite = false) (h : x.rank ≠ 0) :
    x.text = if x.IsPositional then positional x.shortest.digits x.shortest.leadExponent
      else scientific 2 x.shortest.digits x.shortest.leadExponent := by
  rw [text, hx, if_neg Bool.false_ne_true, if_neg h]
  exact if_congr (le_leadExponent_shortest_iff hx h) rfl rfl

/-- Zero and the numbers in positional notation are printed as a numeral that is read back. -/
theorem exists_text_eq_number (h : x.IsPositional) : ∃ l : Lexeme, l.kind = .number ∧
    x.text = l.text ∧ l.literal = some (.number (.signed false x)) := by
  have hx : x.isInfinite = false := by
    rw [← Bool.not_eq_true]
    exact fun hinfinite => not_isPositional_of_infinite hinfinite h
  by_cases hrank : x.rank = 0
  · obtain rfl : x = zero := ext_rank (hrank.trans rank_zero.symm)
    exact ⟨.number ⟨'0', [], rfl, by simp⟩ (some ⟨'0', [], rfl, by simp⟩), rfl, rfl, by decide⟩
  · have htext := text_of_layout hx hrank
    rw [if_pos h] at htext
    obtain ⟨whole, part, hlexeme, hvalue⟩ := exists_positional
      (Decimal.digits_ne_nil (coefficient_ne_zero hrank (nearest_shortest hx)))
      (fun c hc => Decimal.isDigit_of_mem_digits hc) x.shortest.leadExponent
    rw [Decimal.rowValue_digits, hlexeme] at hvalue
    refine ⟨.number whole (some part), rfl, htext.trans hlexeme, ?_⟩
    have hnearest : (Decimal.ofNumeral (Lexeme.number whole (some part)).text).nearest = x := by
      rw [← nearest_shortest hx]
      apply Decimal.nearest_congr
      rw [Lexeme.toRat_ofNumeral rfl, hvalue]
    rw [Lexeme.literal, hnearest]

/-- All others are printed as a word, or as a word and a sign between two numerals. -/
theorem exists_text_eq_written (h : ¬ x.IsPositional) : ∃ lexemes : List Lexeme,
    x.text = Lexeme.written lexemes ∧ Fits [] (lexemes.map Lexeme.item) ∧
      (lexemes.map Lexeme.kind).count .number ≠ 1 := by
  cases hx : x.isInfinite with
  | true =>
    have hword : ∀ word : Keyword, word.spelling ≠ String.ofList ['i', 'n', 'f'] := by
      intro word
      cases word <;> decide
    refine ⟨[.identifier 'i' ['n', 'f'] rfl (List.all_eq_true.1 rfl) hword], ?_, ?_, ?_⟩
    · rw [text, hx]
      rfl
    · exact .cons (Lexeme.shape_item _) (Item.extendedBy_nil _) .nil
    · show [TokenKind.identifier].count .number ≠ 1
      decide
  | false =>
    have hrank : x.rank ≠ 0 := fun hzero => h ((isPositional_of_finite hx).2 (.inl hzero))
    have htext := text_of_layout hx hrank
    rw [if_neg h] at htext
    obtain ⟨mantissa, size, hmantissa, hsize, hwritten⟩ := exists_scientific
      (Decimal.digits_ne_nil (coefficient_ne_zero hrank (nearest_shortest hx)))
      (fun c hc => Decimal.isDigit_of_mem_digits hc) 2 x.shortest.leadExponent
    refine ⟨_, htext.trans hwritten, fits_scientific hmantissa _, ?_⟩
    have hsign : (exponentSign x.shortest.leadExponent).kind ≠ .number := by
      rw [exponentSign]
      split <;> decide
    have hmark : exponentMark.kind = .identifier := rfl
    simp [hmantissa, hsize, hsign, hmark]

end Magnitude

/-! ## Scanning the text of a number -/

theorem Lexeme.kinds_tokensFrom (line : Int) (lexemes : List Lexeme) :
    (tokensFrom line (lexemes.map item)).map Token.kind = lexemes.map kind := by
  induction lexemes generalizing line with
  | nil => rfl
  | cons l rest ih =>
    rw [List.map_cons, tokensFrom_cons, token?_item, List.map_append, ih]
    rfl

theorem Lexeme.kinds_scan_written {lexemes : List Lexeme} (h : Fits [] (lexemes.map Lexeme.item))
    (filename : Option String) :
    (scan (String.ofList (written lexemes)) filename).tokens.toList.map Token.kind
      = lexemes.map kind ++ [.eof] := by
  obtain ⟨htokens, -⟩ := scan_spec (String.ofList (written lexemes)) filename
  rw [htokens, tokensToEnd, String.toList_ofList, ← joined_map_item, items_joined_iff.2 h,
    List.map_append, kinds_tokensFrom]
  rfl

/-- The text of the literal of a number token, which is the last column of its listing, has the
    shortest digits that are read back.  It is scanned as a number token with the same literal
    exactly if the literal is zero or from a ten-thousandth up to, but not including, ten to the
    sixteenth.  Otherwise the scan does not give one number token. -/
theorem rescan_number_text {t : Token} (h : t.Scanned) (hkind : t.kind = .number)
    (filename : Option String) :
    ∃ x, t.literal = some (.number (.signed false x)) ∧
      let text := (Binary64.signed false x).text
      let again := scan text filename
      t.dump = "NUMBER " ++ t.lexeme ++ " " ++ text ∧
      (x.isInfinite = false → x.value ≠ 0 → x.IsShortest x.shortest ∧
        text = String.ofList (if x.IsPositional then
            positional x.shortest.digits x.shortest.leadExponent
          else scientific 2 x.shortest.digits x.shortest.leadExponent)) ∧
      (x.IsPositional ↔ x.value = 0 ∨ ((⟨1, -4⟩ : Decimal).nearest.value ≤ x.value ∧
        x.value < (⟨1, 16⟩ : Decimal).nearest.value)) ∧
      ((again.errors.toList = [] ∧ ∃ u, again.tokens.toList = [u, Token.endOfInput 1] ∧
          u.kind = .number ∧ u.literal = t.literal) ↔ x.IsPositional) ∧
      (¬ x.IsPositional → (again.tokens.toList.map Token.kind).count .number ≠ 1) := by
  obtain ⟨d, -, hliteral⟩ := h.exists_literal hkind
  generalize d.nearest = x at hliteral
  refine ⟨x, hliteral, ?_⟩
  intro text again
  have hother : ¬ x.IsPositional → (again.tokens.toList.map Token.kind).count .number ≠ 1 := by
    intro hnot
    obtain ⟨lexemes, htext, hfits, hcount⟩ := x.exists_text_eq_written hnot
    have hkinds := Lexeme.kinds_scan_written hfits filename
    rw [← htext] at hkinds
    show ((scan (String.ofList x.text) filename).tokens.toList.map Token.kind).count .number ≠ 1
    rwa [hkinds, List.count_append]
  refine ⟨?_, fun hx hvalue => ?_, x.isPositional_iff_value, ⟨?_, ?_⟩, hother⟩
  · simp [Token.dump, hkind, hliteral, TokenKind.name, Literal.plain, text]
  · rw [ne_eq, Magnitude.value_eq_zero_iff] at hvalue
    exact ⟨Magnitude.isShortest_shortest hx hvalue,
      congrArg String.ofList (Magnitude.text_of_layout hx hvalue)⟩
  · rintro ⟨-, u, htokens, hnumber, -⟩
    by_contra hnot
    apply hother hnot
    simp [htokens, hnumber, Token.endOfInput]
  · intro hpositional
    obtain ⟨l, hl, htext, hvalue⟩ := x.exists_text_eq_number hpositional
    obtain ⟨htokens, herrors⟩ := l.scan_text filename
    rw [← htext] at herrors
    have hline : countLines l.text = 0 :=
      countLines_eq_zero (l.lineFeed_not_mem (by simp [hl]))
    rw [hline, ← htext] at htokens
    exact ⟨herrors, l.token 1, htokens, hl, hvalue.trans hliteral.symm⟩

/-- Ten to the sixteenth is the first number that is not scanned as one number again.  A tenth with
    zeros around it is scanned again without them. -/
theorem rescan_number_text_tenPow :
    let large := (Lexeme.number ⟨'1', List.replicate 16 '0', rfl, List.all_eq_true.1 rfl⟩
      none).token 1
    let tenth := (Lexeme.number ⟨'0', ['0'], rfl, by simp⟩
      (some ⟨'1', ['0'], rfl, by simp⟩)).token 1
    (large.Scanned ∧ large.kind = .number ∧
      ∃ x, large.literal = some (.number (.signed false x)) ∧
        large.dump = "NUMBER 10000000000000000 1e+16" ∧
        ((scan (Binary64.signed false x).text none).tokens.toList.map Token.kind).count .number
          ≠ 1) ∧
      tenth.Scanned ∧ tenth.kind = .number ∧
      ∃ x, tenth.literal = some (.number (.signed false x)) ∧ tenth.dump = "NUMBER 00.10 0.1" ∧
        let again := scan (Binary64.signed false x).text none
        again.errors.toList = [] ∧ ∃ u, again.tokens.toList = [u, Token.endOfInput 1] ∧
          u.kind = .number ∧ u.literal = tenth.literal := by
  intro large tenth
  have hlarge : large.Scanned := Lexeme.scanned_token _
  have htenth : tenth.Scanned := Lexeme.scanned_token _
  obtain ⟨x, hx, -, -, -, -, hother⟩ := rescan_number_text hlarge rfl none
  obtain ⟨y, hy, -, -, -, hagain, -⟩ := rescan_number_text htenth rfl none
  obtain rfl : (⟨1, 16⟩ : Decimal).nearest = x := by
    have hvalue : large.literal = some (.number (.signed false (⟨1, 16⟩ : Decimal).nearest)) := by
      decide +kernel
    simpa using hvalue.symm.trans hx
  obtain rfl : (⟨1, -1⟩ : Decimal).nearest = y := by
    have hvalue : tenth.literal = some (.number (.signed false (⟨1, -1⟩ : Decimal).nearest)) := by
      decide +kernel
    simpa using hvalue.symm.trans hy
  exact ⟨⟨hlarge, rfl, _, hx, by decide +kernel, hother (by decide +kernel)⟩,
    htenth, rfl, _, hy, by decide +kernel, hagain.2 (by decide +kernel)⟩

end LoxScan
