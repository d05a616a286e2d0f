import LoxScan.Proofs.ItemForm

/-! # Searching for a pattern

A pattern describes a piece of a text part by part.  To search for it is to try it at every offset
of the text, from the beginning on.  At one offset a run of characters is taken as far as it goes,
and then shorter and shorter, until the other parts of the pattern follow it.

* `Pattern.matchAt?` tries a pattern at one offset, and gives the runs that it keeps;
  `Pattern.search?` tries it at all of them.
* `matchAt?_word` and `matchAt?_run_char` say what a fixed word matches, and a run up to a character
  that can not belong to it.
* `search?_eq_some_iff` and `search?_eq_none_iff`: the first offset with a match counts.
-/

namespace LoxScan

/-! ## Lines -/

/-- A line begins at the start of a text and just behind every line feed. -/
def IsLineStart (text : List Char) (offset : Nat) : Prop :=
  offset = 0 ∨ text[offset - 1]? = some '\n'

instance (text : List Char) (offset : Nat) : Decidable (IsLineStart text offset) :=
  inferInstanceAs (Decidable (_ ∨ _))

theorem isLineStart_zero (text : List Char) : IsLineStart text 0 :=
  .inl rfl

theorem isLineStart_succ {text : List Char} {offset : Nat} :
    IsLineStart text (offset + 1) ↔ text[offset]? = some '\n' := by
  simp [IsLineStart]

theorem isLineStart_append {text : List Char} {offset : Nat} (h : offset ≤ text.length)
    (after : List Char) : IsLineStart (text ++ after) offset ↔ IsLineStart text offset := by
  cases offset with
  | zero => simp [isLineStart_zero]
  | succ offset => rw [isLineStart_succ, isLineStart_succ, List.getElem?_append_left h]

theorem isLineStart_append_lineFeed {front later : List Char} {offset : Nat} :
    IsLineStart (front ++ '\n' :: later) (front.length + 1 + offset) ↔
      IsLineStart later offset := by
  cases offset with
  | zero => simp [isLineStart_zero, isLineStart_succ]
  | succ offset =>
    rw [← Nat.add_assoc, isLineStart_succ, isLineStart_succ, Nat.add_assoc,
      List.getElem?_append_right (Nat.le_add_right _ _), Nat.add_sub_cancel_left, Nat.add_comm 1,
      List.getElem?_cons_succ]

/-! ## Patterns -/

inductive PatternPart where
  /-- The place where a line begins. -/
  | lineStart
  | char (c : Char)
  /-- One or more allowed characters, which are kept. -/
  | run (allowed : Char → Bool)

abbrev Pattern := List PatternPart

namespace Pattern

/-- The runs that a pattern keeps if it matches at an offset. -/
def matchAt? (text : List Char) : Pattern → Nat → Option (List (List Char))
  | [], _ => some []
  | .lineStart :: parts, offset =>
    if IsLineStart text offset then matchAt? text parts offset else none
  | .char c :: parts, offset =>
    if text[offset]? = some c then matchAt? text parts (offset + 1) else none
  | .run allowed :: parts, offset =>
    let longest := (text.drop offset).takeWhile allowed
    (List.range' 1 longest.length).reverse.findSome? fun size =>
      (matchAt? text parts (offset + size)).map (longest.take size :: ·)

def search? (pattern : Pattern) (text : List Char) : Option (List (List Char)) :=
  (List.range (text.length + 1)).findSome? (pattern.matchAt? text)

variable {text : List Char} {parts : Pattern} {offset : Nat} {kept : List (List Char)}

/-! ## One offset -/

theorem matchAt?_lineStart : matchAt? text (.lineStart :: parts) offset = some kept ↔
    IsLineStart text offset ∧ matchAt? text parts offset = some kept := by
  rw [matchAt?]
  split <;> simp_all

theorem matchAt?_char {c : Char} : matchAt? text (.char c :: parts) offset = some kept ↔
    text[offset]? = some c ∧ matchAt? text parts (offset + 1) = some kept := by
  rw [matchAt?]
  split <;> simp_all

theorem matchAt?_word {word : List Char} :
    matchAt? text (word.map .char ++ parts) offset = some kept ↔
      word <+: text.drop offset ∧ matchAt? text parts (offset + word.length) = some kept := by
  induction word generalizing offset with
  | nil => simp
  | cons c word ih =>
    have hprefix : c :: word <+: text.drop offset ↔
        text[offset]? = some c ∧ word <+: text.drop (offset + 1) := by
      rw [List.cons_prefix_iff, ← List.head?_drop, ← List.tail_drop]
      cases text.drop offset <;> simp [and_assoc]
    rw [List.map_cons, List.cons_append, matchAt?_char, ih, hprefix, and_assoc, List.length_cons,
      Nat.add_right_comm, Nat.add_assoc]

/-- Whatever run is kept, it is made of allowed characters and the rest of the pattern follows. -/
theorem exists_of_matchAt?_run {allowed : Char → Bool}
    (h : matchAt? text (.run allowed :: parts) offset = some kept) :
    ∃ run after runs, text.drop offset = run ++ after ∧ run ≠ [] ∧
      (∀ x ∈ run, allowed x = true) ∧ matchAt? text parts (offset + run.length) = some runs ∧
        kept = run :: runs := by
  rw [matchAt?] at h
  obtain ⟨size, hsize, hmatch⟩ := List.exists_of_findSome?_eq_some h
  obtain ⟨runs, hruns, rfl⟩ := Option.map_eq_some_iff.1 hmatch
  rw [List.mem_reverse, List.mem_range'_1] at hsize
  have hlength : (((text.drop offset).takeWhile allowed).take size).length = size :=
    List.length_take_of_le (by omega)
  obtain ⟨after, hafter⟩ := (List.take_prefix size _).trans
    (List.takeWhile_prefix (l := text.drop offset) allowed)
  refine ⟨_, after, runs, hafter.symm, ?_, ?_, by rwa [hlength], rfl⟩
  · rw [← List.length_pos_iff, hlength]
    omega
  · intro x hx
    exact List.mem_takeWhile_imp (List.mem_of_mem_take hx)

/-- If the rest of the pattern follows the longest run, then that run is kept. -/
theorem matchAt?_run_longest {allowed : Char → Bool} {run after : List Char}
    {runs : List (List Char)} (htext : text.drop offset = run ++ after) (hne : run ≠ [])
    (hrun : ∀ x ∈ run, allowed x = true) (hafter : after.head?.any allowed = false)
    (h : matchAt? text parts (offset + run.length) = some runs) :
    matchAt? text (.run allowed :: parts) offset = some (run :: runs) := by
  obtain ⟨c, rest, rfl⟩ := List.exists_cons_of_ne_nil hne
  have hsizes : (List.range' 1 (c :: rest).length).reverse
      = (c :: rest).length :: (List.range' 1 rest.length).reverse := by
    rw [List.length_cons, List.range'_1_concat, List.reverse_append, List.reverse_singleton,
      List.singleton_append, Nat.add_comm 1]
  rw [matchAt?, htext, takeWhile_run hrun hafter, hsizes, List.findSome?_cons, h, Option.map_some,
    List.take_length]

/-- A run up to a character that can not belong to it is the longest one. -/
theorem matchAt?_run_char {allowed : Char → Bool} {c : Char} (hc : allowed c = false) :
    matchAt? text [.run allowed, .char c] offset = some kept ↔
      ∃ run after, text.drop offset = run ++ c :: after ∧ run ≠ [] ∧
        (∀ x ∈ run, allowed x = true) ∧ kept = [run] := by
  constructor
  · intro h
    obtain ⟨run, after, runs, htext, hne, hrun, hrest, rfl⟩ := exists_of_matchAt?_run h
    obtain ⟨hnext, hnil⟩ := matchAt?_char.1 hrest
    rw [← List.getElem?_drop, htext, List.getElem?_append_right (Nat.le_refl _),
      Nat.sub_self, ← List.head?_eq_getElem?] at hnext
    obtain ⟨after, rfl⟩ := List.head?_eq_some_iff.1 hnext
    cases hnil
    exact ⟨run, after, htext, hne, hrun, rfl⟩
  · rintro ⟨run, after, htext, hne, hrun, rfl⟩
    refine matchAt?_run_longest htext hne hrun (by simp [hc]) (matchAt?_char.2 ⟨?_, rfl⟩)
    rw [← List.getElem?_drop, htext, List.getElem?_append_right (Nat.le_refl _), Nat.sub_self]
    rfl

/-! ## All offsets -/

theorem search?_eq_none_iff {pattern : Pattern} :
    pattern.search? text = none ↔ ∀ offset ≤ text.length, pattern.matchAt? text offset = none := by
  simp only [search?, List.findSome?_eq_none_iff, List.mem_range, Nat.lt_succ_iff]

theorem search?_eq_some_iff {pattern : Pattern} :
    pattern.search? text = some kept ↔
      ∃ offset ≤ text.length, pattern.matchAt? text offset = some kept ∧
        ∀ other < offset, pattern.matchAt? text other = none := by
  rw [search?, List.findSome?_eq_some_iff]
  constructor
  · rintro ⟨before, offset, after, hsplit, hmatch, hbefore⟩
    rw [List.range_eq_range'] at hsplit
    obtain ⟨size, -, rfl, hafter⟩ := List.range'_eq_append_iff.1 hsplit
    obtain ⟨rfl, hpos, -⟩ := List.range'_eq_cons_iff.1 hafter.symm
    refine ⟨_, by omega, hmatch, fun other hother => hbefore other ?_⟩
    rw [List.mem_range'_1]
    omega
  · rintro ⟨offset, hoffset, hmatch, hbefore⟩
    refine ⟨List.range offset, offset, List.range' (offset + 1) (text.length - offset), ?_, hmatch,
      fun other hother => hbefore other (List.mem_range.1 hother)⟩
    have hsize : text.length + 1 = offset + (text.length - offset + 1) := by omega
    rw [List.range_eq_range', List.range_eq_range', hsize, ← List.range'_append_1,
      List.range'_succ, Nat.zero_add]

end Pattern

end LoxScan
