import LoxScan.Proofs.Joining
import LoxScan.Proofs.Restart

/-! # Texts one below the other

A line feed ends every item but one: only a string that is not closed reaches over it.  So a text
with another text below it is scanned like the one and then the other, unless it leaves a string
open.

* `items_append_lineFeed` cuts up two texts with a line feed between them.
* `line_of_unterminated`: a string that is not closed is reported on the last line.
* `scan_append_lineFeed_iff`: the two scans can be put together exactly if the first text leaves no
  string open.
-/

namespace LoxScan

/-! ## The seam -/

/-- A line feed extends nothing but a string that is not closed, whatever comes after it. -/
theorem Item.extendedBy_append_lineFeed {item : Item} (hkind : item.kind ≠ .unclosed)
    {after : List Char} (h : item.extendedBy after = false) (text : List Char) :
    item.extendedBy (after ++ '\n' :: text) = false := by
  -- Two characters decide, so the line feed matters only behind fewer than two.
  rcases after with _ | ⟨c, _ | ⟨d, after⟩⟩
  · have hpart : isWordPart '\n' = false := by decide
    have hdigit : Char.isDigit '\n' = false := by decide
    unfold extendedBy
    split <;> simp_all
  · have hdigit : Char.isDigit '\n' = false := by decide
    unfold extendedBy at h ⊢
    split <;> simp_all
  · rw [← h]
    exact item.extendedBy_congr rfl

theorem items_append_lineFeed {text : List Char}
    (h : ∀ item ∈ items text, item.kind ≠ .unclosed) (other : List Char) :
    items (text ++ '\n' :: other) = items text ++ ⟨.lineFeed, ['\n']⟩ :: items other := by
  have hfits : Fits ('\n' :: other) (items text) := by
    refine (fits_items text).replace fun item hitem after hafter => ?_
    rw [List.append_nil] at hafter
    exact Item.extendedBy_append_lineFeed (h item hitem) hafter other
  have hlineFeed : items ('\n' :: other) = ⟨.lineFeed, ['\n']⟩ :: items other :=
    items_text_append (.form .lineFeed) rfl
  calc items (text ++ '\n' :: other)
      = items (joined (items text) ++ '\n' :: other) := by rw [joined_items]
    _ = items text ++ items ('\n' :: other) := items_joined_append hfits
    _ = items text ++ ⟨.lineFeed, ['\n']⟩ :: items other := by rw [hlineFeed]

/-! ## Strings that are not closed -/

section Unterminated

variable {filename : Option String} {line : Int} {error : LexicalError}

theorem code_of_error? {item : Item} (h : item.error? filename line = some error) :
    error.diagnostic.code = some "L002" ↔ item.kind = .unclosed := by
  obtain ⟨fault, hfault, rfl⟩ := Option.map_eq_some_iff.1 h
  rw [LexicalFault.code_errorAt, Option.some_inj, LexicalFault.code_eq_iff]
  rw [Item.fault?] at hfault
  split at hfault <;> cases hfault <;> simp_all

/-- The items of a text leave a string open exactly if an error says so. -/
theorem forall_code_ne_iff {found : List Item} :
    (∀ error ∈ errorsFrom filename line found, error.diagnostic.code ≠ some "L002") ↔
      ∀ item ∈ found, item.kind ≠ .unclosed := by
  constructor
  · intro h item hitem hkind
    obtain ⟨before, after, rfl⟩ := List.append_of_mem hitem
    have hfault : item.fault? = some .unterminatedString := by rw [Item.fault?, hkind]
    obtain ⟨error, herror⟩ : ∃ error,
        item.error? filename (line + countItemLines before) = some error :=
      ⟨_, by rw [Item.error?, hfault, Option.map_some]⟩
    have hmem : error ∈ errorsFrom filename line (before ++ item :: after) :=
      mem_gatherFrom.2 ⟨before, item, after, rfl, herror⟩
    exact h error hmem ((code_of_error? herror).2 hkind)
  · intro h error herror hcode
    obtain ⟨before, item, after, rfl, hgive⟩ := mem_gatherFrom.1 herror
    exact h item (by simp) ((code_of_error? hgive).1 hcode)

/-- A string that is not closed is reported on the last line of the text. -/
theorem line_of_unterminated {text : List Char}
    (h : error ∈ errorsFrom filename line (items text))
    (hcode : error.diagnostic.code = some "L002") : error.line = line + countLines text := by
  obtain ⟨before, item, after, hitems, hgive⟩ := mem_gatherFrom.1 h
  obtain rfl := eq_nil_of_unclosed_mem hitems ((code_of_error? hgive).1 hcode)
  have hlines : countItemLines before + countLines item.text = countLines text := by
    rw [← countItemLines_items text, hitems]
    simp [countItemLines]
  obtain ⟨fault, -, rfl⟩ := Option.map_eq_some_iff.1 hgive
  rw [LexicalFault.line_errorAt]
  show line + countItemLines before + countLines item.text = line + countLines text
  omega

end Unterminated

/-! ## Two texts -/

theorem dropLast_tokensToEnd (line : Int) (text : List Char) :
    (tokensToEnd line text).dropLast = tokensFrom line (items text) := by
  rw [tokensToEnd, List.dropLast_concat]

section TwoTexts

variable {text other : List Char} (h : ∀ item ∈ items text, item.kind ≠ .unclosed)

include h

theorem gatherFrom_append_lineFeed {α : Type} {give : Item → Int → Option α}
    (hgive : ∀ line, give ⟨.lineFeed, ['\n']⟩ line = none) :
    gatherFrom give 1 (items (text ++ '\n' :: other)) =
      gatherFrom give 1 (items text) ++
        gatherFrom give (1 + (1 + countLines text)) (items other) := by
  have hnext : (1 : Int) + countLines text + countLines ['\n'] = 1 + (1 + countLines text) := by
    simp [countLines]
    omega
  rw [items_append_lineFeed h, gatherFrom_append, countItemLines_items, gatherFrom, hgive, hnext]
  rfl

theorem tokensToEnd_append_lineFeed :
    tokensToEnd 1 (text ++ '\n' :: other) = tokensFrom 1 (items text) ++
      (tokensToEnd 1 other).map (Token.shiftLine (1 + countLines text)) := by
  have hline : (1 : Int) + countLines (text ++ '\n' :: other)
      = 1 + (1 + countLines text) + countLines other := by
    simp [countLines]
    omega
  rw [← tokensToEnd_add, tokensToEnd, tokensToEnd, hline, tokensFrom,
    gatherFrom_append_lineFeed h fun _ => rfl, List.append_assoc]
  rfl

theorem errorsFrom_append_lineFeed (filename : Option String) :
    errorsFrom filename 1 (items (text ++ '\n' :: other)) = errorsFrom filename 1 (items text) ++
      (errorsFrom filename 1 (items other)).map
        (LexicalError.shiftLine (1 + countLines text)) := by
  rw [← errorsFrom_add, errorsFrom, gatherFrom_append_lineFeed h fun _ => rfl]
  rfl

end TwoTexts

/-! ## Scans -/

/-- What errors are compared by: message, code, help text and place. -/
def LexicalError.finding (error : LexicalError) :
    String × Option String × Option String × Location :=
  (error.message, error.diagnostic.code, error.diagnostic.help, error.diagnostic.location)

/-- Two texts with a line feed between them are scanned like the one and then, further down, the
    other, exactly if no string of the first one is left open. -/
theorem scan_append_lineFeed_iff (a b : String) (filename : Option String) :
    ((scan (a ++ "\n" ++ b) filename).tokens.toList =
        (scan a filename).tokens.toList.dropLast ++
          (scan b filename).tokens.toList.map (Token.shiftLine (1 + countLines a.toList)) ∧
      (scan (a ++ "\n" ++ b) filename).errors.toList.map LexicalError.finding =
        ((scan a filename).errors.toList ++
          (scan b filename).errors.toList.map
            (LexicalError.shiftLine (1 + countLines a.toList))).map LexicalError.finding) ↔
      ∀ error ∈ (scan a filename).errors.toList, error.diagnostic.code ≠ some "L002" := by
  have htext : (a ++ "\n" ++ b).toList = a.toList ++ '\n' :: b.toList := by simp
  obtain ⟨hwhole, hwhole'⟩ := scan_spec (a ++ "\n" ++ b) filename
  obtain ⟨hfirst, hfirst'⟩ := scan_spec a filename
  obtain ⟨hsecond, hsecond'⟩ := scan_spec b filename
  rw [htext] at hwhole hwhole'
  rw [hwhole, hwhole', hfirst, hfirst', hsecond, hsecond']
  constructor
  · rintro ⟨-, herrors⟩ error herror hcode
    have hmem : error.finding ∈ (errorsFrom filename 1
        (items (a.toList ++ '\n' :: b.toList))).map LexicalError.finding := by
      rw [herrors]
      exact List.mem_map_of_mem (List.mem_append_left _ herror)
    obtain ⟨same, hsame, hfinding⟩ := List.mem_map.1 hmem
    simp only [LexicalError.finding, Prod.mk.injEq] at hfinding
    obtain ⟨-, hsameCode, -, hlocation⟩ := hfinding
    have hline : same.line = error.line := congrArg Location.line hlocation
    rw [line_of_unterminated hsame (hsameCode.trans hcode), line_of_unterminated herror hcode]
      at hline
    simp [countLines] at hline
    omega
  · intro h
    have hclosed := forall_code_ne_iff.1 h
    constructor
    · rw [tokensToEnd_append_lineFeed hclosed, dropLast_tokensToEnd]
    · rw [errorsFrom_append_lineFeed hclosed]

end LoxScan
