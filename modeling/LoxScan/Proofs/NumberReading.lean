import LoxScan.Proofs.NumberText

/-! # Reading the texts of numbers

Every binary64 number is read back from its text.

* `Decimal.nearest_clamp`: exponents far outside of the range may be cut short.
* `readExponent?_eq`, `Decimal.ofText?_dot` and `Decimal.ofText?_mark` read the parts of a text.
* `Binary64.ofText?_text`: the number that is read from the text of a number is that number, with
  its sign, so that different numbers have different texts.
-/

namespace LoxScan

/-! ## Exponents far outside of the range -/

/-- Numbers up to half of the least positive one are read as zero. -/
theorem Decimal.nearest_eq_zero {d : Decimal} (h : d.toRat ≤ 2 ^ (-1075 : Int)) :
    d.nearest = Magnitude.zero := by
  have hnonneg : 0 ≤ d.toRat := by
    rw [toRat]
    positivity
  have hunit : rankValue 1 = 2 * 2 ^ (-1075 : Int) := by
    have hone := rankValue_succ 0
    have hscale : leastScale + rankShift 0 = -1075 + 1 := rfl
    rwa [rankValue_zero, zero_add, zero_add, hscale, twoPow_succ] at hone
  rw [nearest_eq_iff rfl, Magnitude.rank_zero]
  apply NearestRank.of_lower_half
  · rwa [rankValue_zero]
  · rw [rankValue_zero, zero_add, zero_add, hunit]
    linarith
  · exact fun _ => rfl

/-- Numbers from the power of two after the greatest one on are read as infinity. -/
theorem Decimal.nearest_eq_infinity {d : Decimal} (h : 2 ^ (1024 : Int) ≤ d.toRat) :
    d.nearest = Magnitude.infinity := by
  have hbound : overflowBound ≤ d.toRat := by
    rw [overflowBound]
    exact (sub_le_self _ (twoPow_pos 970).le).trans h
  have hinfinite := d.isNearest_nearest.isInfinite_iff.2 hbound
  apply Magnitude.ext_rank
  rw [Magnitude.isInfinite_eq_true_iff.1 hinfinite, Magnitude.rank_infinity]

/-- Ten is more than eight, so a power of ten is reached by three times the power of two. -/
theorem twoPow_le_tenPow {n : Int} (h : 0 ≤ n) : (2 : ℚ) ^ (3 * n) ≤ 10 ^ n := by
  rw [zpow_mul]
  exact zpow_le_zpow_left₀ h (by norm_num) (by norm_num)

theorem Decimal.twoPow_le_toRat {d : Decimal} (hpos : 0 < d.coefficient) (h : 400 ≤ d.exponent) :
    2 ^ (1024 : Int) ≤ d.toRat := by
  have hcoefficient : (1 : ℚ) ≤ d.coefficient := by
    exact_mod_cast hpos
  calc (2 : ℚ) ^ (1024 : Int) ≤ 2 ^ (3 * d.exponent) := zpow_le_zpow_right₀ one_le_two (by omega)
    _ ≤ 10 ^ d.exponent := twoPow_le_tenPow (by omega)
    _ ≤ d.toRat := le_mul_of_one_le_left (by positivity) hcoefficient

theorem Decimal.toRat_le_twoPow {d : Decimal}
    (h : d.exponent ≤ -((d.coefficient.log2 : Int) + 1 + 400)) : d.toRat ≤ 2 ^ (-1075 : Int) := by
  have hsize : (d.coefficient : ℚ) ≤ 2 ^ ((d.coefficient.log2 : Int) + 1) := by
    have hlt : (d.coefficient : ℚ) < 2 ^ (d.coefficient.log2 + 1) := by
      exact_mod_cast Nat.lt_log2_self (n := d.coefficient)
    exact_mod_cast hlt.le
  have hpower : (10 : ℚ) ^ d.exponent ≤ 2 ^ (3 * d.exponent) := by
    have hten := twoPow_le_tenPow (n := -d.exponent) (by omega)
    have hpos := twoPow_pos (3 * -d.exponent)
    calc (10 : ℚ) ^ d.exponent = (10 ^ (-d.exponent))⁻¹ := by rw [zpow_neg, inv_inv]
      _ ≤ (2 ^ (3 * -d.exponent))⁻¹ := inv_anti₀ hpos hten
      _ = 2 ^ (3 * d.exponent) := by rw [← zpow_neg, mul_neg, neg_neg]
  have hnonneg := twoPow_pos ((d.coefficient.log2 : Int) + 1)
  calc d.toRat ≤ 2 ^ ((d.coefficient.log2 : Int) + 1) * 2 ^ (3 * d.exponent) :=
        mul_le_mul hsize hpower (by positivity) hnonneg.le
    _ = 2 ^ ((d.coefficient.log2 : Int) + 1 + 3 * d.exponent) := (zpow_add₀ two_ne_zero _ _).symm
    _ ≤ 2 ^ (-1075 : Int) := zpow_le_zpow_right₀ one_le_two (by omega)

/-- Cutting the exponent short does not change what is read. -/
theorem Decimal.nearest_clamp (d : Decimal) : d.clamp.nearest = d.nearest := by
  obtain ⟨coefficient, exponent⟩ := d
  simp only [clamp, largestUsefulExponent]
  rcases Nat.eq_zero_or_pos coefficient with rfl | hpos
  · apply nearest_congr
    simp [toRat]
  rcases Int.lt_or_le 400 exponent with hhigh | hle
  · have hcut : (400 : Int) ≤ min 400 (max (-((coefficient.log2 : Int) + 1 + 400)) exponent) := by
      omega
    rw [nearest_eq_infinity (twoPow_le_toRat hpos hcut),
      nearest_eq_infinity (twoPow_le_toRat hpos hhigh.le)]
  rcases Int.lt_or_le exponent (-((coefficient.log2 : Int) + 1 + 400)) with hlow | hge
  · have hcut : min 400 (max (-((coefficient.log2 : Int) + 1 + 400)) exponent)
        ≤ -((coefficient.log2 : Int) + 1 + 400) := by
      omega
    rw [nearest_eq_zero (toRat_le_twoPow hcut), nearest_eq_zero (toRat_le_twoPow hlow.le)]
  · rw [max_eq_right hge, min_eq_right hle]

/-! ## Parts of a text -/

theorem splitSign_of_isDigit {c : Char} (h : c.isDigit = true) (rest : List Char) :
    splitSign (c :: rest) = (false, c :: rest) := by
  unfold splitSign
  split
  · next heq =>
    cases heq
    exact absurd h (by decide)
  · next heq =>
    cases heq
    exact absurd h (by decide)
  · rfl

/-- An exponent is read back with its sign, whatever it is filled up to. -/
theorem readExponent?_eq (width : Nat) (exponent : Int) :
    readExponent? ((if exponent < 0 then '-' else '+')
      :: padLeft width '0' (Nat.toDigits 10 exponent.natAbs)) = some exponent := by
  have hne : padLeft width '0' (Nat.toDigits 10 exponent.natAbs) ≠ [] := by
    simp [padLeft, Nat.toDigits_ne_nil]
  have hdigits : (padLeft width '0' (Nat.toDigits 10 exponent.natAbs)).all Char.isDigit = true :=
    List.all_eq_true.2 isDigit_of_mem_exponent
  have hvalue : Nat.ofDigitChars 10 (padLeft width '0' (Nat.toDigits 10 exponent.natAbs)) 0
      = exponent.natAbs := by
    rw [padLeft, Nat.ofDigitChars_append, Nat.ofDigitChars_replicate_zero, Nat.mul_zero,
      Nat.ofDigitChars_ten_toDigits]
  generalize padLeft width '0' (Nat.toDigits 10 exponent.natAbs) = digits at hne hdigits hvalue ⊢
  have hsign : splitSign ((if exponent < 0 then '-' else '+') :: digits)
      = (decide (exponent < 0), digits) := by
    split <;> simp_all [splitSign]
  simp only [readExponent?, hsign, hdigits, hvalue, List.isEmpty_eq_false_iff.2 hne, Bool.not_true,
    Bool.or_false, Bool.false_eq_true, if_false, decide_eq_true_eq]
  congr 1
  split <;> omega

namespace Decimal

section Parts

variable {whole part rest : List Char} (hne : whole ≠ []) (hwhole : ∀ c ∈ whole, c.isDigit = true)
include hne hwhole

theorem ofText?_mark : ofText? (whole ++ 'e' :: rest) = (readExponent? rest).map
    fun shift => ⟨Nat.ofDigitChars 10 whole 0, shift⟩ := by
  have htake : (whole ++ 'e' :: rest).takeWhile Char.isDigit = whole := takeWhile_run hwhole rfl
  have hdrop : (whole ++ 'e' :: rest).dropWhile Char.isDigit = 'e' :: rest :=
    dropWhile_run hwhole rfl
  simp [ofText?, htake, hdrop, hne]

theorem ofText?_dot (hpart : ∀ c ∈ part, c.isDigit = true) :
    ofText? (whole ++ '.' :: part) = some (ofNumeral (whole ++ '.' :: part)) := by
  have htake : (whole ++ '.' :: part).takeWhile Char.isDigit = whole := takeWhile_run hwhole rfl
  have hdrop : (whole ++ '.' :: part).dropWhile Char.isDigit = '.' :: part :=
    dropWhile_run hwhole rfl
  have htakePart : part.takeWhile Char.isDigit = part := List.takeWhile_eq_self_iff.2 hpart
  have hdropPart : part.dropWhile Char.isDigit = [] := List.dropWhile_eq_nil_iff.2 hpart
  simp [ofText?, ofNumeral, htake, hdrop, htakePart, hdropPart, hne]

theorem ofText?_dot_mark (hpart : ∀ c ∈ part, c.isDigit = true) :
    ofText? (whole ++ '.' :: (part ++ 'e' :: rest)) = (readExponent? rest).map
      fun shift => ⟨Nat.ofDigitChars 10 (whole ++ part) 0, shift - part.length⟩ := by
  have htake : (whole ++ '.' :: (part ++ 'e' :: rest)).takeWhile Char.isDigit = whole :=
    takeWhile_run hwhole rfl
  have hdrop : (whole ++ '.' :: (part ++ 'e' :: rest)).dropWhile Char.isDigit
      = '.' :: (part ++ 'e' :: rest) :=
    dropWhile_run hwhole rfl
  have htakePart : (part ++ 'e' :: rest).takeWhile Char.isDigit = part := takeWhile_run hpart rfl
  have hdropPart : (part ++ 'e' :: rest).dropWhile Char.isDigit = 'e' :: rest :=
    dropWhile_run hpart rfl
  simp [ofText?, htake, hdrop, htakePart, hdropPart, hne]

end Parts

theorem ofText?_positional {digits : List Char} (hne : digits ≠ [])
    (hdigits : ∀ c ∈ digits, c.isDigit = true) (exponent : Int) :
    ∃ d, ofText? (positional digits exponent) = some d ∧ d.toRat = rowValue digits exponent := by
  obtain ⟨whole, part, htext, hvalue⟩ := exists_positional hne hdigits exponent
  rw [htext] at hvalue ⊢
  refine ⟨_, ofText?_dot (List.cons_ne_nil _ _) whole.isDigit_of_mem part.isDigit_of_mem, ?_⟩
  rw [toRat_ofNumeral_dot whole.isDigit_of_mem, ← hvalue]
  rfl

theorem ofText?_scientific {digits : List Char} (hne : digits ≠ [])
    (hdigits : ∀ c ∈ digits, c.isDigit = true) (width : Nat) (exponent : Int) :
    ∃ d, ofText? (scientific width digits exponent) = some d ∧
      d.toRat = rowValue digits exponent := by
  obtain ⟨c, tail, rfl⟩ := List.exists_cons_of_ne_nil hne
  obtain ⟨hc, htail⟩ := List.forall_mem_cons.1 hdigits
  have hfirst : ∀ x ∈ [c], x.isDigit = true := by simpa using hc
  have hexponent : exponent + 1 - ((c :: tail).length : Int) = exponent - tail.length := by
    rw [List.length_cons]
    omega
  have hmark := readExponent?_eq width exponent
  refine ⟨⟨Nat.ofDigitChars 10 (c :: tail) 0, exponent - tail.length⟩, ?_, ?_⟩
  · simp only [scientific]
    generalize (if exponent < 0 then '-' else '+')
      :: padLeft width '0' (Nat.toDigits 10 exponent.natAbs) = mark at hmark ⊢
    cases tail with
    | nil =>
      have hread : ofText? ([c] ++ 'e' :: mark) = _ := ofText?_mark (List.cons_ne_nil c []) hfirst
      rw [hmark] at hread
      simpa using hread
    | cons d tail =>
      have hread : ofText? ([c] ++ '.' :: (d :: tail ++ 'e' :: mark)) = _ :=
        ofText?_dot_mark (List.cons_ne_nil c []) hfirst htail
      rw [hmark] at hread
      simpa using hread
  · rw [rowValue, hexponent, toRat]

end Decimal

/-! ## Reading back -/

theorem toLower_of_isDigit {c : Char} (h : c.isDigit = true) : c.toLower = c := by
  simp only [Char.isDigit, Bool.and_eq_true, decide_eq_true_eq] at h
  apply dif_neg
  rintro ⟨hletter, -⟩
  exact absurd (UInt32.le_trans hletter h.2) (by decide)

/-- The text of a finite magnitude begins with a digit, and is read as a decimal that is rounded to
    the magnitude. -/
theorem Magnitude.ofText?_text {x : Magnitude} (hx : x.isInfinite = false) :
    x.text.head?.any Char.isDigit = true ∧
      ∃ d, Decimal.ofText? x.text = some d ∧ d.nearest = x := by
  by_cases hrank : x.rank = 0
  · obtain rfl : x = zero := ext_rank (hrank.trans rank_zero.symm)
    exact ⟨rfl, ⟨0, -1⟩, by decide, by decide⟩
  · have hne := Decimal.digits_ne_nil (coefficient_ne_zero hrank (nearest_shortest hx))
    have hdigits : ∀ c ∈ x.shortest.digits, c.isDigit = true :=
      fun c hc => Decimal.isDigit_of_mem_digits hc
    have hnearest : ∀ d : Decimal,
        d.toRat = rowValue x.shortest.digits x.shortest.leadExponent → d.nearest = x := by
      intro d hd
      rw [Decimal.rowValue_digits] at hd
      rw [Decimal.nearest_congr hd, nearest_shortest hx]
    rw [text_of_layout hx hrank]
    split
    · obtain ⟨d, hread, hvalue⟩ :=
        Decimal.ofText?_positional hne hdigits x.shortest.leadExponent
      obtain ⟨whole, part, htext, -⟩ := exists_positional hne hdigits x.shortest.leadExponent
      refine ⟨?_, d, hread, hnearest d hvalue⟩
      rw [htext]
      exact whole.isDigit_first
    · obtain ⟨d, hread, hvalue⟩ :=
        Decimal.ofText?_scientific hne hdigits 2 x.shortest.leadExponent
      refine ⟨?_, d, hread, hnearest d hvalue⟩
      obtain ⟨c, tail, hcons⟩ := List.exists_cons_of_ne_nil hne
      rw [hcons]
      exact hdigits c (hcons ▸ List.mem_cons_self)

namespace Binary64

theorem splitSign_text (negative : Bool) (x : Magnitude) :
    splitSign (signed negative x).text.toList = (negative, x.text) := by
  have hplain : splitSign x.text = (false, x.text) := by
    cases hx : x.isInfinite with
    | true =>
      rw [Magnitude.text, hx]
      rfl
    | false =>
      obtain ⟨hhead, -⟩ := Magnitude.ofText?_text hx
      cases htext : x.text with
      | nil => rfl
      | cons c rest =>
        rw [htext] at hhead
        exact splitSign_of_isDigit hhead rest
  cases negative with
  | true => rw [text, if_pos rfl, String.toList_ofList, splitSign]
  | false => rw [text, if_neg Bool.false_ne_true, String.toList_ofList, hplain]

/-- Small letters do not turn a text that begins with a digit into a word. -/
theorem ofList_map_toLower_ne {text : List Char} (h : text.head?.any Char.isDigit = true)
    {word : String} (hword : word.toList.head?.any Char.isDigit = false) :
    String.ofList (text.map Char.toLower) ≠ word := by
  rintro rfl
  cases text with
  | nil => cases h
  | cons c rest =>
    have hc : c.isDigit = true := h
    simp [toLower_of_isDigit hc, hc] at hword

theorem ofText?_text (x : Binary64) : ofText? x.text = some x := by
  cases x with
  | nan => decide
  | signed negative x =>
    rw [ofText?, splitSign_text]
    cases hx : x.isInfinite with
    | true =>
      have hinfinity : x = .infinity := Magnitude.ext_rank (Magnitude.isInfinite_eq_true_iff.1 hx)
      rw [Magnitude.text, hx, hinfinity]
      rfl
    | false =>
      obtain ⟨hhead, d, hread, hnearest⟩ := Magnitude.ofText?_text hx
      dsimp only
      -- The text begins with a digit, so it is none of the three words.
      split
      · next h => exact absurd h (ofList_map_toLower_ne hhead rfl)
      · next h => exact absurd h (ofList_map_toLower_ne hhead rfl)
      · next h => exact absurd h (ofList_map_toLower_ne hhead rfl)
      · rw [hread, Option.map_some, Decimal.nearest_clamp, hnearest]

theorem text_injective {x y : Binary64} (h : x.text = y.text) : x = y := by
  have hread := congrArg ofText? h
  rw [ofText?_text, ofText?_text] at hread
  exact Option.some.inj hread

end Binary64

end LoxScan
