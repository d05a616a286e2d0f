import LoxScan.Proofs.DigitRow
import LoxScan.Proofs.Scanned
import LoxScan.Proofs.Separators

/-! # Texts of errors

The text of an error tells what the error is, and where, although a file name stands in it as it is.
The text is read from its end: behind the file name nothing is free but the line and the character
that is shown.

* `LexicalFault.text_errorAt`: the text is a front, which ends with the line (`errorFront_inj`), and
  the help.  A help is one of three by its end, and its front shows the character
  (`LexicalFault.helpFront_inj`).
* `LexicalFault.text_errorAt_inj`: equal texts are those of equal faults on the same line of files
  of the same name.
* `error_texts` says this of the errors that scans find, in terms of the character in the source.
-/

namespace LoxScan

/-! ## Joined strings -/

section Strings

variable {a b s t : String} {c d : Char}

theorem isEmpty_append (h : a.isEmpty = false) : (a ++ b).isEmpty = false := by
  rw [String.isEmpty_eq_false_iff, ne_eq, ← String.toList_inj] at h ⊢
  rw [String.toList_append]
  exact fun hempty => h (List.append_eq_nil_iff.1 hempty).1

theorem append_ofList_singleton_inj :
    a ++ String.ofList [c] = b ++ String.ofList [d] ↔ a = b ∧ c = d := by
  rw [← String.toList_inj, String.toList_append, String.toList_append, String.toList_ofList,
    String.toList_ofList, List.append_singleton_inj, String.toList_inj]

theorem append_separator_inj (hs : c ∉ s.toList) (ht : c ∉ t.toList) :
    a ++ String.ofList [c] ++ s = b ++ String.ofList [c] ++ t ↔ a = b ∧ s = t := by
  have h := append_cons_inj_of_last (a := a.toList) (b := b.toList) hs ht
  rw [String.toList_inj, String.toList_inj] at h
  rw [← h, ← String.toList_inj]
  simp only [String.toList_append, String.toList_ofList, List.append_assoc, List.singleton_append]

end Strings

/-! ## The parts of a text -/

def errorFront (message filename : String) (line : Int) : String :=
  "ERROR" ++ ": " ++ message ++ "\n" ++ "  --> " ++ (filename ++ ":" ++ toString line)

namespace LexicalFault

/-- The help up to what is shown of the character, if any. -/
def helpFront : LexicalFault → String
  | unexpectedCharacter c =>
    if isPrintable c then "The character '" ++ String.ofList [c]
    else "Non-printable character (Unicode: U+" ++ String.ofList (upperCase (hexDigits 4 c.toNat))
  | unterminatedString => ""

def helpEnd : LexicalFault → String
  | unexpectedCharacter c =>
    if isPrintable c then "' is not valid in Lox source code." else ") is not allowed."
  | unterminatedString => "String literals must be closed with a matching \" quote."

theorem help_eq (fault : LexicalFault) : fault.help = fault.helpFront ++ fault.helpEnd := by
  cases fault with
  | unexpectedCharacter c =>
    rw [help, helpFront, helpEnd]
    split <;> rfl
  | unterminatedString =>
    rw [help, helpFront, helpEnd, String.empty_append]

theorem isEmpty_help (fault : LexicalFault) : fault.help.isEmpty = false := by
  cases fault with
  | unexpectedCharacter c =>
    rw [help]
    split
    · exact isEmpty_append (isEmpty_append (by decide))
    · exact isEmpty_append (isEmpty_append (by decide))
  | unterminatedString => decide

theorem text_errorAt (fault : LexicalFault) (filename : String) (line : Int) :
    (fault.errorAt ⟨some filename, line⟩).text = errorFront fault.message filename line ++ "\n"
      ++ "  help: " ++ fault.helpFront ++ fault.helpEnd ++ "\n" := by
  have hseverity : String.ofList (upperCase "error".toList) = "ERROR" := by decide
  have htext : (fault.errorAt ⟨some filename, line⟩).text =
      errorFront fault.message filename line ++ "\n" ++ ("  help: " ++ fault.help ++ "\n") := by
    rw [errorAt, LexicalError.ofMessage, LexicalError.text, Diagnostic.text, Diagnostic.helpLine,
      isEmpty_help, if_neg Bool.false_ne_true, Location.text, plainOrNone, hseverity, errorFront]
  rw [htext, help_eq]
  simp only [String.append_assoc]

end LexicalFault

/-- The line stands behind the last colon of the front. -/
theorem errorFront_inj {message filename other : String} {line line' : Int} :
    errorFront message filename line = errorFront message other line' ↔
      filename = other ∧ line = line' := by
  have hcolon (n : Int) : ':' ∉ (toString n).toList := by
    intro h
    exact absurd (eq_minus_or_isDigit_of_mem_toString h) (by decide)
  rw [errorFront, errorFront, String.append_right_inj, ← toString_int_inj]
  exact append_separator_inj (hcolon line) (hcolon line')

def helpEnds : List String :=
  ["' is not valid in Lox source code.", ") is not allowed.",
    "String literals must be closed with a matching \" quote."]

/-- None of them is the end of another one. -/
theorem helpEnds_apart : ∀ s ∈ helpEnds, ∀ t ∈ helpEnds, s.toList <:+ t.toList → s = t := by
  decide

namespace LexicalFault

variable {f g : LexicalFault}

theorem helpEnd_mem (fault : LexicalFault) : fault.helpEnd ∈ helpEnds := by
  cases fault with
  | unexpectedCharacter c =>
    rw [helpEnd]
    split
    · exact List.mem_cons_self
    · exact List.mem_cons_of_mem _ List.mem_cons_self
  | unterminatedString => exact List.mem_cons_of_mem _ (List.mem_cons_of_mem _ List.mem_cons_self)

theorem helpEnd_eq_of_append {a b : String} (h : a ++ f.helpEnd = b ++ g.helpEnd) :
    f.helpEnd = g.helpEnd := by
  have htext := congrArg String.toList h
  rw [String.toList_append, String.toList_append] at htext
  -- Of two ends of one text one is the end of the other.
  have hf : f.helpEnd.toList <:+ b.toList ++ g.helpEnd.toList := htext ▸ List.suffix_append _ _
  rcases List.suffix_or_suffix_of_suffix hf (List.suffix_append _ _) with hends | hends
  · exact helpEnds_apart _ f.helpEnd_mem _ g.helpEnd_mem hends
  · exact (helpEnds_apart _ g.helpEnd_mem _ f.helpEnd_mem hends).symm

theorem plus_not_mem_hexDigits (n : Nat) : '+' ∉ upperCase (hexDigits 4 n) := by
  intro h
  obtain ⟨c, hc, hplus⟩ := List.mem_map.1 h
  obtain ⟨digit, hdigit, rfl⟩ := exists_of_mem_hexDigits hc
  have hnone : ∀ digit < 16, (Nat.digitChar digit).toUpper ≠ '+' := by decide
  exact hnone digit hdigit hplus

theorem helpFront_of_printable {c : Char} (h : isPrintable c = true) :
    (unexpectedCharacter c).helpFront = "The character '" ++ String.ofList [c] ∧
      (unexpectedCharacter c).helpEnd = "' is not valid in Lox source code." := by
  rw [helpFront, helpEnd, h]
  exact ⟨rfl, rfl⟩

theorem helpFront_of_unprintable {c : Char} (h : isPrintable c = false) :
    (unexpectedCharacter c).helpFront = "Non-printable character (Unicode: U" ++ String.ofList ['+']
        ++ String.ofList (upperCase (hexDigits 4 c.toNat)) ∧
      (unexpectedCharacter c).helpEnd = ") is not allowed." := by
  have hplus : "Non-printable character (Unicode: U+"
      = "Non-printable character (Unicode: U" ++ String.ofList ['+'] := by decide
  rw [helpFront, helpEnd, h, ← hplus]
  exact ⟨rfl, rfl⟩

theorem helpEnd_unexpectedCharacter_ne (c : Char) :
    (unexpectedCharacter c).helpEnd ≠ unterminatedString.helpEnd := by
  cases hc : isPrintable c with
  | true =>
    rw [(helpFront_of_printable hc).2]
    decide
  | false =>
    rw [(helpFront_of_unprintable hc).2]
    decide

theorem isPrintable_eq_of_helpEnd {c d : Char}
    (h : (unexpectedCharacter c).helpEnd = (unexpectedCharacter d).helpEnd) :
    isPrintable c = isPrintable d := by
  have hne : "' is not valid in Lox source code." ≠ ") is not allowed." := by decide
  cases hc : isPrintable c <;> cases hd : isPrintable d
  · rfl
  · rw [(helpFront_of_unprintable hc).2, (helpFront_of_printable hd).2] at h
    exact absurd h.symm hne
  · rw [(helpFront_of_printable hc).2, (helpFront_of_unprintable hd).2] at h
    exact absurd h hne
  · rfl

/-- In front of the end of the help, what is shown of the character can be found. -/
theorem helpFront_unexpectedCharacter_inj {a b : String} {c d : Char}
    (hprintable : isPrintable c = isPrintable d)
    (h : a ++ (unexpectedCharacter c).helpFront = b ++ (unexpectedCharacter d).helpFront) :
    a = b ∧ c = d := by
  cases hc : isPrintable c with
  | true =>
    rw [(helpFront_of_printable hc).1, (helpFront_of_printable (hprintable ▸ hc)).1,
      ← String.append_assoc, ← String.append_assoc, append_ofList_singleton_inj,
      String.append_left_inj] at h
    exact h
  | false =>
    have hplus (n : Nat) : '+' ∉ (String.ofList (upperCase (hexDigits 4 n))).toList := by
      rw [String.toList_ofList]
      exact plus_not_mem_hexDigits n
    -- The code point stands behind the last plus sign.
    rw [(helpFront_of_unprintable hc).1, (helpFront_of_unprintable (hprintable ▸ hc)).1,
      ← String.append_assoc, ← String.append_assoc, ← String.append_assoc, ← String.append_assoc,
      append_separator_inj (hplus _) (hplus _), String.append_left_inj, String.ofList_inj] at h
    have hvalue := congrArg hexValue h.2
    rw [hexValue_upperCase_hexDigits, hexValue_upperCase_hexDigits, Char.toNat_inj] at hvalue
    exact ⟨h.1, hvalue⟩

theorem helpFront_inj {a b : String} (hend : f.helpEnd = g.helpEnd)
    (h : a ++ f.helpFront = b ++ g.helpFront) : a = b ∧ f = g := by
  match f, g with
  | unexpectedCharacter c, unexpectedCharacter d =>
    obtain ⟨hfront, rfl⟩ := helpFront_unexpectedCharacter_inj (isPrintable_eq_of_helpEnd hend) h
    exact ⟨hfront, rfl⟩
  | unexpectedCharacter c, unterminatedString =>
    exact absurd hend (helpEnd_unexpectedCharacter_ne c)
  | unterminatedString, unexpectedCharacter d =>
    exact absurd hend.symm (helpEnd_unexpectedCharacter_ne d)
  | unterminatedString, unterminatedString => exact ⟨(String.append_left_inj _).1 h, rfl⟩

/-- Equal texts are those of equal faults, on the same line of files of the same name. -/
theorem text_errorAt_inj {filename other : String} {line line' : Int} :
    (f.errorAt ⟨some filename, line⟩).text = (g.errorAt ⟨some other, line'⟩).text ↔
      f = g ∧ filename = other ∧ line = line' := by
  constructor
  · intro h
    rw [text_errorAt, text_errorAt, String.append_left_inj] at h
    -- The end of the help comes off first, then its front, then the line and the file name.
    have hend := helpEnd_eq_of_append h
    rw [hend, String.append_left_inj] at h
    obtain ⟨hfront, rfl⟩ := helpFront_inj hend h
    rw [String.append_left_inj, String.append_left_inj, errorFront_inj] at hfront
    exact ⟨rfl, hfront⟩
  · rintro ⟨rfl, rfl, rfl⟩
    rfl

end LexicalFault

/-! ## Errors that scans find -/

theorem LexicalFault.help_errorAt (fault : LexicalFault) (location : Location) :
    (fault.errorAt location).diagnostic.help = some fault.help := rfl

theorem Item.Shape.text_of_fault? {item : Item} {c : Char} (h : item.Shape)
    (hfault : item.fault? = some (.unexpectedCharacter c)) : item.text = [c] := by
  cases h with
  | form hform =>
    rw [hform.fault?_eq_none] at hfault
    cases hfault
  | unclosed => cases hfault
  | rejected =>
    cases hfault
    rfl

/-- Faults are the same if they have the same code and, for characters, the same item. -/
theorem LexicalFault.eq_iff_of_fault? {f g : LexicalFault} {item other : Item}
    (hshape : item.Shape) (hshape' : other.Shape) (hf : item.fault? = some f)
    (hg : other.fault? = some g) :
    f = g ↔ f.code = g.code ∧ (f.code = "L001" → item.text = other.text) := by
  match f, g with
  | unexpectedCharacter c, unexpectedCharacter d =>
    rw [hshape.text_of_fault? hf, hshape'.text_of_fault? hg]
    simp [code]
  | unterminatedString, unterminatedString => simp [code]
  | unexpectedCharacter c, unterminatedString => simp [code]
  | unterminatedString, unexpectedCharacter d => simp [code]

/-- The text of an error identifies it.  Texts of errors that scans find, under any file names, are
    equal exactly if the names, the lines and the codes are and, for rejected characters, what
    stands in the source.  The help shows such a character itself, or else its code point. -/
theorem error_texts :
    (∀ {State Fault : Type} (receive : Receiver State Fault) (s : Scanner) (state : State)
      (filename : String), s.filename = some filename →
        ∀ e ∈ (s.tokenize receive state).2.scanner.errors.toList,
          ∃ item, e.FoundAt filename item) ∧
    (∀ (e e' : LexicalError) (filename filename' : String) (item item' : Item),
      e.FoundAt filename item → e'.FoundAt filename' item' →
        (e.text = e'.text ↔ filename = filename' ∧ e.line = e'.line ∧
          e.diagnostic.code = e'.diagnostic.code ∧
            (e.diagnostic.code = some "L001" → item.text = item'.text))) ∧
    (∀ (e : LexicalError) (filename : String) (item : Item), e.FoundAt filename item →
      e.diagnostic.code = some "L001" → ∃ c, item.text = [c] ∧
        (isPrintable c = true → e.diagnostic.help =
          some ("The character '" ++ String.ofList [c] ++ "' is not valid in Lox source code.")) ∧
        (isPrintable c = false → ∃ digits : List Char, 4 ≤ digits.length ∧
          hexValue digits = c.toNat ∧ e.diagnostic.help =
            some ("Non-printable character (Unicode: U+" ++ String.ofList digits
              ++ ") is not allowed."))) := by
  refine ⟨fun receive s state filename hname e he => exists_foundAt hname he,
    fun e e' filename filename' item item' h h' => ?_, fun e filename item h hcode => ?_⟩
  · obtain ⟨f, line, hf, rfl⟩ := h.isFaultOf
    obtain ⟨g, line', hg, rfl⟩ := h'.isFaultOf
    rw [LexicalFault.text_errorAt_inj, LexicalFault.eq_iff_of_fault? h.shape h'.shape hf hg]
    simp only [LexicalFault.line_errorAt, LexicalFault.code_errorAt, Option.some.injEq]
    tauto
  · obtain ⟨f, line, hf, rfl⟩ := h.isFaultOf
    cases f with
    | unexpectedCharacter c =>
      refine ⟨c, h.shape.text_of_fault? hf, fun hc => ?_, fun hc => ?_⟩
      · rw [LexicalFault.help_errorAt, LexicalFault.help, if_pos hc]
        rfl
      · refine ⟨upperCase (hexDigits 4 c.toNat), ?_, hexValue_upperCase_hexDigits 4 _, ?_⟩
        · rw [upperCase, List.length_map, hexDigits, length_padLeft]
          exact Nat.le_max_left _ _
        · rw [LexicalFault.help_errorAt, LexicalFault.help, hc, if_neg Bool.false_ne_true]
          rfl
    | unterminatedString => simp [LexicalFault.code] at hcode

/-- Two characters that can not be shown, and a file name that looks like the text of an error. -/
theorem error_texts_unprintable :
    let filename := "a:1\n  help: b"
    let e := (LexicalFault.unexpectedCharacter '\x80').errorAt ⟨some "a", 1⟩
    let e' := (LexicalFault.unexpectedCharacter '\x81').errorAt ⟨some "a", 1⟩
    let named := (LexicalFault.unexpectedCharacter '\x80').errorAt ⟨some filename, 1⟩
    e.FoundAt "a" ⟨.rejected '\x80', ['\x80']⟩ ∧ e'.FoundAt "a" ⟨.rejected '\x81', ['\x81']⟩ ∧
      named.FoundAt filename ⟨.rejected '\x80', ['\x80']⟩ ∧
        e.text ≠ e'.text ∧ e.text ≠ named.text := by
  intro filename e e' named
  have he : e.FoundAt "a" ⟨.rejected '\x80', ['\x80']⟩ :=
    LexicalFault.foundAt_errorAt (by decide) _
  have he' : e'.FoundAt "a" ⟨.rejected '\x81', ['\x81']⟩ :=
    LexicalFault.foundAt_errorAt (by decide) _
  have hnamed : named.FoundAt filename ⟨.rejected '\x80', ['\x80']⟩ :=
    LexicalFault.foundAt_errorAt (by decide) _
  obtain ⟨-, htexts, -⟩ := error_texts
  refine ⟨he, he', hnamed, fun h => ?_, fun h => ?_⟩
  · obtain ⟨-, -, -, hsame⟩ := (htexts _ _ _ _ _ _ he he').1 h
    exact absurd (hsame rfl) (by decide)
  · obtain ⟨hname, -⟩ := (htexts _ _ _ _ _ _ he hnamed).1 h
    exact absurd hname (by decide)

end LoxScan
