import LoxScan.Proofs.Layout

/-! # Comments and blanks

Comments and blanks hold the items apart and have no other meaning.  Whatever is done to them, as
long as no gap is closed, a scan finds the same.

* `Retouched` says how a text may differ from the items that it is made of.
* `Retouched.extendsNoMore`: in the other text no item runs into the next one.
* `tokenize_retouched`: a pass finds the same tokens and errors, on the same lines.
-/

namespace LoxScan

/-! ## Other comments, other blanks -/

/-- The texts that differ from some items in comments and blanks only. -/
inductive Retouched : List Item → List Char → Prop
  | nil : Retouched [] []
  | keep {item : Item} {found : List Item} {text : List Char} (h : Retouched found text) :
      Retouched (item :: found) (item.text ++ text)
  /-- Blanks may be put in front of every item, and at the end. -/
  | insert {found : List Item} {c : Char} {text : List Char} (hc : isBlank c = true)
      (h : Retouched found text) : Retouched found (c :: text)
  | comment {item : Item} {found : List Item} {body text : List Char}
      (hkind : item.kind = .comment) (hbody : '\n' ∉ body) (h : Retouched found text) :
      Retouched (item :: found) ('/' :: '/' :: (body ++ text))
  | removeComment {item : Item} {found : List Item} {text : List Char}
      (hkind : item.kind = .comment) (h : Retouched found text) : Retouched (item :: found) text
  /-- Some blanks next to each other may become other blanks, but at least one. -/
  | blanks {run found : List Item} {other text : List Char} (hrun : run ≠ [])
      (hkind : ∀ item ∈ run, item.kind = .blank) (hother : other ≠ [])
      (hblank : ∀ c ∈ other, isBlank c = true) (h : Retouched found text) :
      Retouched (run ++ found) (other ++ text)

/-! ## Shapes of trivia -/

theorem Item.Shape.blank {item : Item} (h : item.Shape) (hkind : item.kind = .blank) :
    ∃ c, isBlank c = true ∧ item.text = [c] := by
  cases h with
  | form hform =>
    cases hform <;> simp_all
  | unclosed | rejected => cases hkind

theorem Item.Shape.comment {item : Item} (h : item.Shape) (hkind : item.kind = .comment) :
    ∃ body, '\n' ∉ body ∧ item.text = '/' :: '/' :: body := by
  cases h with
  | form hform =>
    cases hform <;> simp_all
  | unclosed | rejected => cases hkind

theorem Item.Shape.unclosed_text {item : Item} (h : item.Shape) (hkind : item.kind = .unclosed) :
    ∃ body, '"' ∉ body ∧ item.text = '"' :: body := by
  cases h with
  | form hform =>
    cases hform <;> simp_all
  | unclosed h => exact ⟨_, h, rfl⟩
  | rejected => cases hkind

theorem lineFeed_not_mem_of_blank {text : List Char} (h : ∀ c ∈ text, isBlank c = true) :
    '\n' ∉ text :=
  fun hmem => absurd (h _ hmem) (by decide)

/-- Items of blanks are the spacing that their characters are. -/
theorem exists_map_spacingItem {run : List Item} (hshape : ∀ item ∈ run, item.Shape)
    (hkind : ∀ item ∈ run, item.kind = .blank) :
    ∃ text : List Char, (∀ c ∈ text, isBlank c = true) ∧ run = text.map spacingItem := by
  induction run with
  | nil => exact ⟨[], by simp, rfl⟩
  | cons item run ih =>
    obtain ⟨hitem, hrun⟩ := List.forall_mem_cons.1 hshape
    obtain ⟨hblank, hblanks⟩ := List.forall_mem_cons.1 hkind
    obtain ⟨c, hc, htext⟩ := hitem.blank hblank
    obtain ⟨text, htexts, rfl⟩ := ih hrun hblanks
    have hitem : item = spacingItem c := by
      have hline : c ≠ '\n' := by
        rintro rfl
        exact absurd hc (by decide)
      obtain ⟨kind, text⟩ := item
      simp_all [spacingItem]
    exact ⟨c :: text, List.forall_mem_cons.2 ⟨hc, htexts⟩, by rw [hitem, List.map_cons]⟩

/-! ## No item runs into the next one -/

/-- Whatever item the first text does not extend, the other one does not extend either.  Comments
    and strings that are not closed do not count. -/
def ExtendsNoMore (text other : List Char) : Prop :=
  ∀ item : Item, item.kind ≠ .comment → item.kind ≠ .unclosed →
    item.extendedBy text = false → item.extendedBy other = false

namespace ExtendsNoMore

variable {text other : List Char}

theorem nil : ExtendsNoMore text [] :=
  fun item _ _ _ => item.extendedBy_nil

theorem spacing {c : Char} (h : isBlank c = true ∨ c = '\n') : ExtendsNoMore text (c :: other) :=
  fun _ hcomment hunclosed _ => extendedBy_spacing h hcomment hunclosed other

theorem cons (h : ExtendsNoMore text other) (c : Char) :
    ExtendsNoMore (c :: text) (c :: other) := by
  intro item _ _ hrest
  -- A number with a fraction is extended by nothing but a digit.
  have hdigit := h ⟨.token .number, ['0', '.', '0']⟩ (by simp) (by simp)
  exact Item.extendedBy_cons hrest (by simpa [Item.extendedBy] using hdigit)

theorem append_left (h : ExtendsNoMore text other) (run : List Char) :
    ExtendsNoMore (run ++ text) (run ++ other) := by
  induction run with
  | nil => exact h
  | cons c run ih => exact ih.cons c

end ExtendsNoMore

section Gaps

variable {found : List Item} {text : List Char}

/-- Where a line or the whole text ended, there are blanks and then again such an end. -/
theorem Retouched.exists_gap (h : Retouched found text) (hfits : Fits [] found)
    (hline : (joined found).head?.any (· != '\n') = false) :
    ∃ pad after, text = pad ++ after ∧ (∀ c ∈ pad, isBlank c = true) ∧
      after.head?.any (· != '\n') = false := by
  induction h with
  | nil => exact ⟨[], [], rfl, by simp, rfl⟩
  | @keep item found text _ _ =>
    obtain ⟨hshape, -, -⟩ := fits_cons_iff.1 hfits
    obtain ⟨c, body, htext⟩ := List.exists_cons_of_ne_nil hshape.text_ne_nil
    refine ⟨[], _, rfl, by simp, ?_⟩
    simpa [htext] using hline
  | insert hc _ ih =>
    obtain ⟨pad, after, rfl, hpad, hafter⟩ := ih hfits hline
    exact ⟨_ :: pad, after, rfl, List.forall_mem_cons.2 ⟨hc, hpad⟩, hafter⟩
  | comment hkind _ _ _ | removeComment hkind _ _ =>
    obtain ⟨hshape, -, -⟩ := fits_cons_iff.1 hfits
    obtain ⟨body, -, htext⟩ := hshape.comment hkind
    simp [htext] at hline
  | @blanks run found other text hrun hkind _ _ _ _ =>
    obtain ⟨item, run, rfl⟩ := List.exists_cons_of_ne_nil hrun
    obtain ⟨hshape, -, -⟩ := fits_cons_iff.1 hfits
    obtain ⟨c, hc, htext⟩ := hshape.blank (hkind item (by simp))
    obtain rfl : c = '\n' := by simpa [htext] using hline
    exact absurd hc (by decide)

theorem Retouched.isBlank_of_nil (h : Retouched [] text) : ∀ c ∈ text, isBlank c = true := by
  generalize hfound : ([] : List Item) = found at h
  induction h with
  | nil => simp
  | insert hc _ ih => exact List.forall_mem_cons.2 ⟨hc, ih hfound⟩
  | blanks hrun => exact absurd (List.append_eq_nil_iff.1 hfound.symm).1 hrun
  | keep | comment | removeComment => cases hfound

theorem extendedBy_comment {item : Item} (hkind : item.kind = .comment) (rest : List Char) :
    item.extendedBy rest = rest.head?.any (· != '\n') := by
  simp [Item.extendedBy, hkind]

/-- Behind the same item, a retouched text extends it no more than the old one did. -/
theorem Retouched.extendsNoMore (h : Retouched found text) (hfits : Fits [] found) :
    ExtendsNoMore (joined found) text := by
  induction h with
  | nil => exact .nil
  | @keep item found text _ ih =>
    obtain ⟨-, -, hfound⟩ := fits_cons_iff.1 hfits
    exact (ih hfound).append_left item.text
  | insert hc _ _ => exact .spacing (.inl hc)
  | @comment item found body text hkind _ _ _ =>
    obtain ⟨hshape, -, -⟩ := fits_cons_iff.1 hfits
    obtain ⟨old, -, htext⟩ := hshape.comment hkind
    rw [joined_cons, htext]
    exact fun item _ _ hrest => (item.extendedBy_congr rfl).trans hrest
  | removeComment hkind h _ =>
    obtain ⟨-, hrest, hfound⟩ := fits_cons_iff.1 hfits
    rw [List.append_nil, extendedBy_comment hkind] at hrest
    obtain ⟨pad, after, rfl, hpad, hafter⟩ := h.exists_gap hfound hrest
    rcases pad with _ | ⟨c, pad⟩
    · rcases after with _ | ⟨c, after⟩
      · exact .nil
      · exact .spacing (.inr (by simpa using hafter))
    · exact .spacing (.inl (hpad c (by simp)))
  | @blanks run found other text _ _ hother hblank _ _ =>
    obtain ⟨c, other, rfl⟩ := List.exists_cons_of_ne_nil hother
    exact .spacing (.inl (hblank c (by simp)))

end Gaps

/-! ## What is found -/

/-- What is given by items does not hang on trivia: blanks, line feeds and comments give nothing,
    and of a string that is not closed only its lines count. -/
structure IgnoresTrivia {α : Type} (give : Item → Int → Option α) : Prop where
  trivia : ∀ item line, item.kind = .blank ∨ item.kind = .lineFeed ∨ item.kind = .comment →
    give item line = none
  unclosed : ∀ text other line, countLines text = countLines other →
    give ⟨.unclosed, text⟩ line = give ⟨.unclosed, other⟩ line

theorem ignoresTrivia_token? : IgnoresTrivia Item.token? where
  trivia := by
    rintro ⟨kind, text⟩ line (rfl | rfl | rfl) <;> rfl
  unclosed := fun _ _ _ _ => rfl

theorem ignoresTrivia_error? (filename : Option String) :
    IgnoresTrivia fun item line => item.error? filename line where
  trivia := by
    rintro ⟨kind, text⟩ line (rfl | rfl | rfl) <;> rfl
  unclosed := by
    intro text other line h
    simp only [Item.error?, h]
    rfl

section Gathering

variable {α : Type} {give : Item → Int → Option α} (hgive : IgnoresTrivia give)

include hgive

theorem IgnoresTrivia.spacingItem (c : Char) (line : Int) : give (spacingItem c) line = none := by
  apply hgive.trivia
  by_cases h : c = '\n' <;> simp [LoxScan.spacingItem, h]

theorem gatherFrom_blanks_append {blanks : List Char} (h : ∀ c ∈ blanks, isBlank c = true)
    (line : Int) (found : List Item) :
    gatherFrom give line (blanks.map spacingItem ++ found) = gatherFrom give line found := by
  rw [gatherFrom_spacing_append hgive.spacingItem,
    countLines_eq_zero (lineFeed_not_mem_of_blank h), Int.natCast_zero, Int.add_zero]

theorem gatherFrom_items_blanks_append {blanks : List Char} (h : ∀ c ∈ blanks, isBlank c = true)
    (line : Int) (text : List Char) :
    gatherFrom give line (items (blanks ++ text)) = gatherFrom give line (items text) := by
  have hitems := items_spacing_append ⟨blanks, fun c hc => .inl (h c hc)⟩ text
  rw [hitems, gatherFrom_blanks_append hgive h]

theorem gatherFrom_comment_cons {item : Item} (hshape : item.Shape) (hkind : item.kind = .comment)
    (line : Int) (found : List Item) :
    gatherFrom give line (item :: found) = gatherFrom give line found := by
  obtain ⟨body, hbody, htext⟩ := hshape.comment hkind
  have hlines : countLines item.text = 0 := by
    apply countLines_eq_zero
    simp [htext, hbody]
  rw [gatherFrom, hgive.trivia item line (by simp [hkind]), hlines, Int.natCast_zero, Int.add_zero]
  rfl

/-- A comment takes in the blanks behind it, which makes no difference. -/
theorem gatherFrom_items_comment {found : List Item} {body text : List Char}
    (hbody : '\n' ∉ body) (h : Retouched found text) (hfits : Fits [] found)
    (hline : (joined found).head?.any (· != '\n') = false) (line : Int) :
    gatherFrom give line (items ('/' :: '/' :: (body ++ text)))
      = gatherFrom give line (items text) := by
  obtain ⟨pad, after, rfl, hpad, hafter⟩ := h.exists_gap hfits hline
  have hform : ItemForm .comment ('/' :: '/' :: (body ++ pad)) := by
    refine .comment fun hmem => ?_
    rcases List.mem_append.1 hmem with hmem | hmem
    · exact hbody hmem
    · exact lineFeed_not_mem_of_blank hpad hmem
  have hitems : items ('/' :: '/' :: (body ++ (pad ++ after)))
      = ⟨.comment, '/' :: '/' :: (body ++ pad)⟩ :: items after := by
    rw [← items_text_append (.form hform) hafter]
    simp
  rw [hitems, gatherFrom_comment_cons hgive (.form hform) rfl,
    gatherFrom_items_blanks_append hgive hpad]

theorem gatherFrom_items_unclosed {item : Item} {found : List Item} {text : List Char}
    (hkind : item.kind = .unclosed) (hfits : Fits [] (item :: found)) (h : Retouched found text)
    (line : Int) :
    gatherFrom give line (items (item.text ++ text)) = gatherFrom give line (item :: found) := by
  obtain ⟨hshape, -, -⟩ := fits_cons_iff.1 hfits
  obtain ⟨kind, old⟩ := item
  obtain rfl : kind = .unclosed := hkind
  obtain ⟨body, hbody, rfl⟩ := hshape.unclosed_text rfl
  -- Nothing stands behind the string, so only blanks can have been added, and they belong to it.
  obtain rfl : found = [] := @eq_nil_of_unclosed_mem _ [] found _ (items_joined_iff.2 hfits) rfl
  have hblank := h.isBlank_of_nil
  have hquote : '"' ∉ body ++ text := by
    intro hmem
    rcases List.mem_append.1 hmem with hmem | hmem
    · exact hbody hmem
    · exact absurd (hblank _ hmem) (by decide)
  have hitems : items ('"' :: (body ++ text)) = [⟨.unclosed, '"' :: (body ++ text)⟩] := by
    have hcut := items_text_append (.unclosed hquote) (Item.extendedBy_nil _)
    rwa [List.append_nil, items_nil] at hcut
  have hlines : countLines ('"' :: (body ++ text)) = countLines ('"' :: body) := by
    have htext := countLines_eq_zero (lineFeed_not_mem_of_blank hblank)
    rw [← List.cons_append, countLines_append, htext, Nat.add_zero]
  rw [List.cons_append, hitems, gatherFrom, gatherFrom, hgive.unclosed _ _ line hlines]
  rfl

theorem gatherFrom_retouched {found : List Item} {text : List Char} (h : Retouched found text)
    (hfits : Fits [] found) (line : Int) :
    gatherFrom give line (items text) = gatherFrom give line found := by
  induction h generalizing line with
  | nil => rw [items_nil]
  | @keep item found text h ih =>
    obtain ⟨hshape, hrest, hfound⟩ := fits_cons_iff.1 hfits
    rw [List.append_nil] at hrest
    by_cases hcomment : item.kind = .comment
    · obtain ⟨body, hbody, htext⟩ := hshape.comment hcomment
      rw [extendedBy_comment hcomment] at hrest
      rw [gatherFrom_comment_cons hgive hshape hcomment, htext, ← ih hfound line]
      exact gatherFrom_items_comment hgive hbody h hfound hrest line
    · by_cases hunclosed : item.kind = .unclosed
      · exact gatherFrom_items_unclosed hgive hunclosed hfits h line
      · have hextended := h.extendsNoMore hfound item hcomment hunclosed hrest
        rw [items_text_append hshape hextended, gatherFrom, gatherFrom, ih hfound]
  | @insert found c text hc _ ih =>
    have hblank := gatherFrom_items_blanks_append hgive (List.forall_mem_singleton.2 hc) line text
    exact hblank.trans (ih hfits line)
  | comment hkind hbody h ih =>
    obtain ⟨hshape, hrest, hfound⟩ := fits_cons_iff.1 hfits
    rw [List.append_nil, extendedBy_comment hkind] at hrest
    rw [gatherFrom_comment_cons hgive hshape hkind, ← ih hfound line]
    exact gatherFrom_items_comment hgive hbody h hfound hrest line
  | removeComment hkind _ ih =>
    obtain ⟨hshape, -, hfound⟩ := fits_cons_iff.1 hfits
    rw [gatherFrom_comment_cons hgive hshape hkind, ih hfound]
  | @blanks run found other text _ hkind _ hblank _ ih =>
    obtain ⟨hrun, hfound⟩ := fits_append.1 hfits
    obtain ⟨old, hold, rfl⟩ := exists_map_spacingItem hrun.shape hkind
    rw [gatherFrom_items_blanks_append hgive hblank, gatherFrom_blanks_append hgive hold,
      ih hfound]

end Gathering

theorem countLines_retouched {found : List Item} {text : List Char} (h : Retouched found text)
    (hfits : Fits [] found) : countLines text = countLines (joined found) := by
  induction h with
  | nil => rfl
  | @keep item found text _ ih =>
    obtain ⟨-, -, hfound⟩ := fits_cons_iff.1 hfits
    rw [joined_cons, countLines_append, countLines_append, ih hfound]
  | @insert found c text hc _ ih =>
    have hblank := countLines_eq_zero (lineFeed_not_mem_of_blank (List.forall_mem_singleton.2 hc))
    rw [← List.singleton_append, countLines_append, hblank, ih hfits, Nat.zero_add]
  | @comment item found body text hkind hbody _ ih =>
    obtain ⟨hshape, -, hfound⟩ := fits_cons_iff.1 hfits
    obtain ⟨old, hold, htext⟩ := hshape.comment hkind
    have hnew : countLines ('/' :: '/' :: body) = 0 := countLines_eq_zero (by simp [hbody])
    have hitem : countLines item.text = 0 := countLines_eq_zero (by simp [htext, hold])
    rw [joined_cons, countLines_append, hitem, ← ih hfound, ← List.cons_append, ← List.cons_append,
      countLines_append, hnew]
  | @removeComment item found text hkind _ ih =>
    obtain ⟨hshape, -, hfound⟩ := fits_cons_iff.1 hfits
    obtain ⟨old, hold, htext⟩ := hshape.comment hkind
    have hitem : countLines item.text = 0 := countLines_eq_zero (by simp [htext, hold])
    rw [joined_cons, countLines_append, hitem, ih hfound, Nat.zero_add]
  | @blanks run found other text _ hkind _ hblank _ ih =>
    obtain ⟨hrun, hfound⟩ := fits_append.1 hfits
    obtain ⟨old, hold, rfl⟩ := exists_map_spacingItem hrun.shape hkind
    rw [joined_append, joined_map_spacingItem, countLines_append, countLines_append, ih hfound,
      countLines_eq_zero (lineFeed_not_mem_of_blank hblank),
      countLines_eq_zero (lineFeed_not_mem_of_blank hold)]

/-! ## Passes -/

/-- Comments and blanks may be changed everywhere at once: a pass finds the same tokens and the
    same errors on the same lines. -/
theorem tokenize_retouched {State Fault State' Fault' : Type} {receive : Receiver State Fault}
    {receive' : Receiver State' Fault'} (haccepts : receive.Accepts) (haccepts' : receive'.Accepts)
    {s : Scanner} {text : List Char} (h : Retouched (items s.source.toList) text) (state : State)
    (state' : State') :
    let result := s.tokenize receive state
    let other := ({ s with source := String.ofList text } : Scanner).tokenize receive' state'
    result.1 = .ok () ∧ other.1 = .ok () ∧
      other.2.scanner.tokens.toList = result.2.scanner.tokens.toList ∧
      other.2.scanner.errors.toList = result.2.scanner.errors.toList := by
  intro result other
  have hfits := fits_items s.source.toList
  have hended : result.1 = .ok () := s.tokenize_fst_of_accepts haccepts state
  have hother : other.1 = .ok () := Scanner.tokenize_fst_of_accepts haccepts' _ state'
  obtain ⟨htokens, herrors⟩ := Scanner.tokenize_spec_of_ok hended
  obtain ⟨htokens', herrors'⟩ := Scanner.tokenize_spec_of_ok hother
  rw [String.toList_ofList] at htokens' herrors'
  refine ⟨hended, hother, ?_, ?_⟩
  · have hlines := countLines_retouched h hfits
    rw [joined_items] at hlines
    rw [htokens, htokens', tokensToEnd, tokensToEnd, hlines]
    congr 1
    exact gatherFrom_retouched ignoresTrivia_token? h hfits 1
  · rw [herrors, herrors']
    exact gatherFrom_retouched (ignoresTrivia_error? s.filename) h hfits 1

/-- A number and a dot are set apart, a comment goes, and blanks get into a string that is not
    closed. -/
theorem tokenize_retouched_unclosed :
    let s := Scanner.new "1. // 5\n\"a" none
    let text := "1\t.\r\r\n\"a ".toList
    let result := s.tokenize Receiver.silent ()
    let other := ({ s with source := String.ofList text } : Scanner).tokenize Receiver.silent ()
    Receiver.silent.Accepts ∧ Retouched (items s.source.toList) text ∧
      result.1 = .ok () ∧ other.1 = .ok () ∧
      other.2.scanner.tokens.toList = result.2.scanner.tokens.toList ∧
      other.2.scanner.errors.toList = result.2.scanner.errors.toList := by
  intro s text result other
  have hitems : items s.source.toList = [⟨.token .number, ['1']⟩, ⟨.token .dot, ['.']⟩,
      ⟨.blank, [' ']⟩, ⟨.comment, ['/', '/', ' ', '5']⟩, ⟨.lineFeed, ['\n']⟩,
      ⟨.unclosed, ['"', 'a']⟩] := by decide +kernel
  have hstring : Retouched [⟨.unclosed, ['"', 'a']⟩] "\"a ".toList := .keep (.insert rfl .nil)
  have hline : Retouched [⟨.lineFeed, ['\n']⟩, ⟨.unclosed, ['"', 'a']⟩] "\n\"a ".toList :=
    .keep hstring
  have hcomment := Retouched.removeComment (rfl : (⟨.comment, "// 5".toList⟩ : Item).kind = _) hline
  have hblanks := @Retouched.blanks [⟨.blank, [' ']⟩] _ ['\r', '\r'] _ (by simp) (by simp) (by simp)
    (by simp [isBlank]) hcomment
  have hdot := @Retouched.keep ⟨.token .dot, ['.']⟩ _ _ hblanks
  have htext : Retouched (items s.source.toList) text := by
    rw [hitems]
    exact .keep (.insert (rfl : isBlank '\t' = true) hdot)
  exact ⟨Receiver.accepts_silent, htext,
    tokenize_retouched Receiver.accepts_silent Receiver.accepts_silent htext () ()⟩

end LoxScan
