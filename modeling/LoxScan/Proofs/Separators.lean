import LoxScan.Proofs.ItemForm

/-! # Taking joined texts apart

Texts that are joined with no escaping can be told apart again where something is known about what
stands before or behind a separator.

* `append_cons_inj_of_first` splits at the first occurrence of a character and
  `append_cons_inj_of_last` at the last one.
* `toString_int_inj`: integers are told apart by their decimal texts, which hold nothing but digits
  and a sign (`eq_minus_or_isDigit_of_mem_toString`).
-/

namespace LoxScan

/-! ## Separators -/

section Separators

variable {a b rest other : List Char} {c : Char}

theorem append_cons_inj_of_first (ha : c ∉ a) (hb : c ∉ b) :
    a ++ c :: rest = b ++ c :: other ↔ a = b ∧ rest = other := by
  constructor
  · intro h
    have hsame := congrArg (List.takeWhile (· != c)) h
    rw [takeWhile_run (forall_bne_of_not_mem ha) (by simp),
      takeWhile_run (forall_bne_of_not_mem hb) (by simp)] at hsame
    subst hsame
    exact ⟨rfl, (List.cons.inj (List.append_cancel_left h)).2⟩
  · rintro ⟨rfl, rfl⟩
    rfl

theorem append_cons_inj_of_last (hrest : c ∉ rest) (hother : c ∉ other) :
    a ++ c :: rest = b ++ c :: other ↔ a = b ∧ rest = other := by
  have hreversed : rest.reverse ++ c :: a.reverse = other.reverse ++ c :: b.reverse ↔
      rest.reverse = other.reverse ∧ a.reverse = b.reverse :=
    append_cons_inj_of_first (mt List.mem_reverse.1 hrest) (mt List.mem_reverse.1 hother)
  rw [List.reverse_inj, List.reverse_inj] at hreversed
  rw [← List.reverse_inj, List.reverse_append, List.reverse_append, List.reverse_cons,
    List.reverse_cons, List.append_assoc, List.append_assoc, List.singleton_append,
    List.singleton_append, hreversed, and_comm]

/-- A text that a separator does not stand in does not reach over one. -/
theorem prefix_of_prefix_append_cons (ha : c ∉ a) (h : a <+: b ++ c :: rest) : a <+: b := by
  rcases Nat.lt_or_ge b.length a.length with hlt | hle
  · have hseparator : b ++ [c] <+: a := by
      refine List.prefix_of_prefix_length_le ⟨rest, by simp⟩ h ?_
      rw [List.length_append, List.length_singleton]
      exact hlt
    exact absurd (hseparator.subset (by simp)) ha
  · exact List.prefix_of_prefix_length_le h (List.prefix_append b _) hle

end Separators

/-! ## Integers -/

theorem toList_toString_int (n : Int) : (toString n).toList =
    if 0 ≤ n then Nat.toDigits 10 n.toNat else '-' :: Nat.toDigits 10 (-n).toNat := by
  rw [Int.toString_eq_repr, Int.repr_eq_if]
  split
  · exact Nat.toList_repr
  · rw [String.toList_append, Nat.toList_repr]
    rfl

theorem eq_minus_or_isDigit_of_mem_toString {n : Int} {c : Char} (h : c ∈ (toString n).toList) :
    c = '-' ∨ c.isDigit = true := by
  have hdigit {k : Nat} (hc : c ∈ Nat.toDigits 10 k) : c.isDigit = true :=
    Nat.isDigit_of_mem_toDigits (by decide) (by decide) hc
  rw [toList_toString_int] at h
  split at h
  · exact .inr (hdigit h)
  · rcases List.mem_cons.1 h with rfl | hc
    · exact .inl rfl
    · exact .inr (hdigit hc)

/-- A minus sign is no digit, so it tells a negative number from others. -/
theorem cons_minus_ne_toDigits (m n : Nat) : '-' :: Nat.toDigits 10 m ≠ Nat.toDigits 10 n := by
  intro h
  have hmem : '-' ∈ Nat.toDigits 10 n := h ▸ List.mem_cons_self
  exact absurd (Nat.isDigit_of_mem_toDigits (by decide) (by decide) hmem) (by decide)

theorem toDigits_ten_inj {m n : Nat} (h : Nat.toDigits 10 m = Nat.toDigits 10 n) : m = n := by
  have hvalue := congrArg (fun text => Nat.ofDigitChars 10 text 0) h
  simpa [Nat.ofDigitChars_ten_toDigits] using hvalue

theorem toString_int_inj {m n : Int} : toString m = toString n ↔ m = n := by
  constructor
  · intro h
    have htext := congrArg String.toList h
    rw [toList_toString_int, toList_toString_int] at htext
    split at htext <;> split at htext
    · have hsize := toDigits_ten_inj htext
      omega
    · exact absurd htext.symm (cons_minus_ne_toDigits _ _)
    · exact absurd htext (cons_minus_ne_toDigits _ _)
    · have hsize := toDigits_ten_inj (List.cons.inj htext).2
      omega
  · rintro rfl
    rfl

end LoxScan
