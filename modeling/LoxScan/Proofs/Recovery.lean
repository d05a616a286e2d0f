import Mathlib.Data.List.Forall2
import LoxScan.Proofs.Layout

/-! # Recovery from errors

An error takes nothing away but the text that is wrong.  If that text is blanked out, a scan finds
the same tokens on the same lines, and nothing that is wrong.

* `cleaned` is a text in which everything is blanked out that a scan rejects.
* `items_cleaned`: the items of this text are the old ones, with spacing in place of the errors.
* `tokenize_cleaned`: a pass over this text has the tokens of the old one and reports nothing.
-/

namespace LoxScan

/-! ## Blanking out -/

/-- What is left of a character.  Line feeds stay, so nothing moves to another line. -/
def blankedOut (c : Char) : Char :=
  if c = '\n' then c else ' '

namespace Item

def cleanText (item : Item) : List Char :=
  match item.fault? with
  | some _ => item.text.map blankedOut
  | none => item.text

def cleanItems (item : Item) : List Item :=
  match item.fault? with
  | some _ => (item.text.map blankedOut).map spacingItem
  | none => [item]

theorem cleanItems_of_none {item : Item} (h : item.fault? = none) : item.cleanItems = [item] := by
  simp [cleanItems, h]

theorem cleanItems_of_some {item : Item} {fault : LexicalFault} (h : item.fault? = some fault) :
    item.cleanItems = (item.text.map blankedOut).map spacingItem := by
  simp [cleanItems, h]

end Item

/-- A text without errors: rejected characters are blanked out, and a string that is not closed is
    blanked out from its quote to the end. -/
def cleaned (text : List Char) : List Char :=
  (items text).flatMap Item.cleanText

theorem blankedOut_isSpacing (c : Char) :
    isBlank (blankedOut c) = true ∨ blankedOut c = '\n' := by
  by_cases h : c = '\n'
  · simp [blankedOut, h]
  · simp [blankedOut, h, isBlank]

theorem countLines_map_blankedOut (text : List Char) :
    countLines (text.map blankedOut) = countLines text := by
  have hiff (c : Char) : blankedOut c = '\n' ↔ c = '\n' := by
    by_cases h : c = '\n' <;> simp [blankedOut, h]
  simp [countLines, List.count, List.countP_map, Function.comp_def, beq_eq_decide, hiff]

theorem joined_cleanItems (item : Item) : joined item.cleanItems = item.cleanText := by
  unfold Item.cleanItems Item.cleanText
  split
  · exact joined_map_spacingItem _
  · simp

theorem joined_flatMap_cleanItems (found : List Item) :
    joined (found.flatMap Item.cleanItems) = found.flatMap Item.cleanText := by
  induction found with
  | nil => rfl
  | cons item rest ih => simp [joined_cleanItems, ih]

/-! ## What stays apart -/

def Cleans (c d : Char) : Prop :=
  d = c ∨ d = blankedOut c

theorem forall₂_cleanText (item : Item) : List.Forall₂ Cleans item.text item.cleanText := by
  unfold Item.cleanText
  split
  · rw [List.forall₂_map_right_iff]
    exact List.forall₂_same.2 fun c _ => .inr rfl
  · exact List.forall₂_same.2 fun c _ => .inl rfl

theorem forall₂_flatMap_cleanText (found : List Item) :
    List.Forall₂ Cleans (joined found) (found.flatMap Item.cleanText) := by
  induction found with
  | nil => exact .nil
  | cons item rest ih => exact List.rel_append (forall₂_cleanText item) ih

theorem extendedBy_of_cleans {item : Item} {text other : List Char}
    (h : List.Forall₂ Cleans text other) (hrest : item.extendedBy text = false) :
    item.extendedBy other = false := by
  cases h with
  | nil => exact hrest
  | @cons c d text other hc htext =>
    by_cases hsame : d = c
    · subst hsame
      refine Item.extendedBy_cons hrest fun hdigit => ?_
      cases htext with
      | nil => rfl
      | @cons e f text other he _ =>
        have hnot : (blankedOut e).isDigit = false := by
          by_cases h : e = '\n' <;> simp [blankedOut, h]
        rcases he with rfl | rfl
        · exact hdigit
        · simpa using hnot
    · obtain rfl : d = blankedOut c := hc.resolve_left hsame
      -- A character that is blanked out is no line feed, so it would extend a comment.
      have hc : c ≠ '\n' := by
        rintro rfl
        exact hsame rfl
      apply extendedBy_spacing (blankedOut_isSpacing c)
      · intro hkind
        simp [Item.extendedBy, hkind, hc] at hrest
      · intro hkind
        simp [Item.extendedBy, hkind] at hrest

theorem fits_spacing_append {text rest : List Char} {found : List Item}
    (htext : ∀ c ∈ text, isBlank c = true ∨ c = '\n') (h : Fits rest found) :
    Fits rest (text.map spacingItem ++ found) := by
  induction text with
  | nil => exact h
  | cons c text ih =>
    obtain ⟨hc, htext⟩ := List.forall_mem_cons.1 htext
    exact .cons (shape_spacingItem hc) (extendedBy_spacingItem c _) (ih htext)

theorem fits_cleanItems {found : List Item} (h : Fits [] found) :
    Fits [] (found.flatMap Item.cleanItems) := by
  induction found with
  | nil => exact .nil
  | cons item rest ih =>
    obtain ⟨hshape, hrest, hfound⟩ := fits_cons_iff.1 h
    rw [List.append_nil] at hrest
    rw [List.flatMap_cons]
    cases hfault : item.fault? with
    | none =>
      rw [Item.cleanItems_of_none hfault, List.singleton_append]
      refine .cons hshape ?_ (ih hfound)
      rw [List.append_nil, joined_flatMap_cleanItems]
      exact extendedBy_of_cleans (forall₂_flatMap_cleanText rest) hrest
    | some fault =>
      rw [Item.cleanItems_of_some hfault]
      apply fits_spacing_append _ (ih hfound)
      simp only [List.mem_map]
      rintro _ ⟨c, -, rfl⟩
      exact blankedOut_isSpacing c

/-- The items of the blanked out text are the old ones, but for those that were wrong. -/
theorem items_cleaned (text : List Char) :
    items (cleaned text) = (items text).flatMap Item.cleanItems := by
  have hjoined := joined_flatMap_cleanItems (items text)
  rw [cleaned, ← hjoined, items_joined_iff]
  exact fits_cleanItems (fits_items text)

/-! ## What is found -/

theorem fault?_of_mem_cleanItems {found : List Item} :
    ∀ item ∈ found.flatMap Item.cleanItems, item.fault? = none := by
  intro item hitem
  obtain ⟨old, -, hmem⟩ := List.mem_flatMap.1 hitem
  cases hfault : old.fault? with
  | none =>
    rw [Item.cleanItems_of_none hfault] at hmem
    rw [List.mem_singleton.1 hmem, hfault]
  | some fault =>
    rw [Item.cleanItems_of_some hfault] at hmem
    obtain ⟨c, -, rfl⟩ := List.mem_map.1 hmem
    exact fault?_spacingItem c

theorem tokensFrom_cleanItems (line : Int) (found : List Item) :
    tokensFrom line (found.flatMap Item.cleanItems) = tokensFrom line found := by
  induction found generalizing line with
  | nil => rfl
  | cons item rest ih =>
    rw [List.flatMap_cons, tokensFrom_cons]
    cases hfault : item.fault? with
    | none =>
      rw [Item.cleanItems_of_none hfault, List.singleton_append, tokensFrom_cons, ih]
    | some fault =>
      rw [Item.cleanItems_of_some hfault, tokensFrom_spacing_append, countLines_map_blankedOut, ih,
        Item.token?_eq_none_of_fault? hfault]
      rfl

theorem countLines_cleaned (text : List Char) : countLines (cleaned text) = countLines text := by
  have hitem (item : Item) : countLines item.cleanText = countLines item.text := by
    unfold Item.cleanText
    split
    · exact countLines_map_blankedOut _
    · rfl
  have hfound (found : List Item) :
      countLines (found.flatMap Item.cleanText) = countLines (joined found) := by
    induction found with
    | nil => rfl
    | cons item rest ih => simp [hitem, ih]
  rw [cleaned, hfound, joined_items]

/-! ## Passes -/

/-- If everything is blanked out that is wrong, a pass finds the same tokens on the same lines, no
    error, and has nothing to tell its receiver. -/
theorem tokenize_cleaned {State Fault State' Fault' : Type} {receive : Receiver State Fault}
    (haccepts : receive.Accepts) (receive' : Receiver State' Fault') (s : Scanner) (state : State)
    (state' : State') :
    let clean : Scanner := { s with source := String.ofList (cleaned s.source.toList) }
    let result := s.tokenize receive state
    let other := clean.tokenize receive' state'
    result.1 = .ok () ∧ other.1 = .ok () ∧ other.2.state = state' ∧
      other.2.scanner.errors.toList = [] ∧
      other.2.scanner.tokens.toList = result.2.scanner.tokens.toList := by
  intro clean result other
  have hitems : items clean.source.toList = (items s.source.toList).flatMap Item.cleanItems := by
    rw [String.toList_ofList, items_cleaned]
  have hfault : ∀ item ∈ items clean.source.toList, item.fault? = none := by
    rw [hitems]
    exact fault?_of_mem_cleanItems
  have hended : result.1 = .ok () := s.tokenize_fst_of_accepts haccepts state
  obtain ⟨hother, hstate⟩ : other.1 = .ok () ∧ other.2.state = state' := by
    obtain ⟨hresult, hleft⟩ := clean.tokenize_fst_state receive' state'
    obtain ⟨hall, hsame⟩ := Pass.takeAll_of_fault?_eq_none receive' hfault (Pass.begin clean state')
    exact ⟨hresult.trans hall, hleft.trans hsame⟩
  obtain ⟨htokens, -⟩ := Scanner.tokenize_spec_of_ok hended
  obtain ⟨htokens', herrors'⟩ := Scanner.tokenize_spec_of_ok hother
  refine ⟨hended, hother, hstate, ?_, ?_⟩
  · rw [herrors']
    refine gatherFrom_eq_nil (fun item hitem line => ?_) 1
    rw [Item.error?, hfault item hitem, Option.map_none]
  · rw [htokens, htokens', tokensToEnd, tokensToEnd, hitems, tokensFrom_cleanItems,
      String.toList_ofList, countLines_cleaned]

/-- Between numbers and dots, and in front of a string that goes on to the end. -/
theorem tokenize_cleaned_numbers :
    let s := Scanner.new "1.@2 / # \"x\ny" none
    let clean : Scanner := { s with source := String.ofList (cleaned s.source.toList) }
    let result := s.tokenize Receiver.silent ()
    let other := clean.tokenize Receiver.silent ()
    Receiver.silent.Accepts ∧ clean.source = "1. 2 /     \n " ∧ result.1 = .ok () ∧
      other.1 = .ok () ∧ other.2.state = () ∧ other.2.scanner.errors.toList = [] ∧
      other.2.scanner.tokens.toList = result.2.scanner.tokens.toList := by
  intro s clean result other
  have hclean : clean.source = "1. 2 /     \n " := by decide +kernel
  exact ⟨Receiver.accepts_silent, hclean,
    tokenize_cleaned Receiver.accepts_silent Receiver.silent s () ()⟩

end LoxScan
