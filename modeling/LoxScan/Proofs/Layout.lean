import LoxScan.Proofs.Lexeme
import LoxScan.Proofs.Yield

/-! # Laying out lexemes

Lexemes with spaces, tabs, carriage returns or line feeds between any two of them are scanned back:
the tokens are those lexemes, each of them on the line that it was put on.

* `Spacing` and `Layout` are the ways to write lexemes down.
* `items_partsText` cuts up a layout, part by part.
* `scan_layout`: a scan finds the lexemes of a layout and no error.
-/

namespace LoxScan

/-! ## Layouts -/

/-- Spaces, tabs, carriage returns and line feeds, or nothing at all. -/
structure Spacing where
  text : List Char
  isSpacing : ∀ c ∈ text, isBlank c = true ∨ c = '\n'

def partsText (parts : List (Lexeme × Spacing)) : List Char :=
  parts.flatMap fun part => part.1.text ++ part.2.text

/-- Lexemes written down with spacing around them.  Only behind the last one the spacing may be
    missing. -/
structure Layout where
  before : Spacing
  parts : List (Lexeme × Spacing)
  separated : ∀ part ∈ parts.dropLast, part.2.text ≠ []

namespace Layout

def text (layout : Layout) : List Char :=
  layout.before.text ++ partsText layout.parts

def textBefore (layout : Layout) (index : Nat) : List Char :=
  layout.before.text ++ partsText (layout.parts.take index)

end Layout

@[simp] theorem partsText_nil : partsText [] = [] := rfl

@[simp] theorem partsText_cons (part : Lexeme × Spacing) (rest : List (Lexeme × Spacing)) :
    partsText (part :: rest) = part.1.text ++ (part.2.text ++ partsText rest) := by
  simp [partsText]

/-! ## Items of spacing -/

def spacingItem (c : Char) : Item :=
  ⟨if c = '\n' then .lineFeed else .blank, [c]⟩

theorem shape_spacingItem {c : Char} (h : isBlank c = true ∨ c = '\n') :
    (spacingItem c).Shape := by
  by_cases hc : c = '\n'
  · subst hc
    exact .form .lineFeed
  · rw [spacingItem, if_neg hc]
    exact .form (.blank (h.resolve_right hc))

@[simp] theorem extendedBy_spacingItem (c : Char) (rest : List Char) :
    (spacingItem c).extendedBy rest = false := by
  by_cases hc : c = '\n' <;> simp [spacingItem, Item.extendedBy, hc]

@[simp] theorem token?_spacingItem (c : Char) (line : Int) :
    (spacingItem c).token? line = none := by
  by_cases hc : c = '\n' <;> simp [spacingItem, Item.token?, hc]

@[simp] theorem fault?_spacingItem (c : Char) : (spacingItem c).fault? = none := by
  by_cases hc : c = '\n' <;> simp [spacingItem, Item.fault?, hc]

theorem joined_map_spacingItem (text : List Char) : joined (text.map spacingItem) = text := by
  induction text with
  | nil => rfl
  | cons c text ih =>
    rw [List.map_cons, joined_cons, ih]
    rfl

theorem items_spacing_append (spacing : Spacing) (rest : List Char) :
    items (spacing.text ++ rest) = spacing.text.map spacingItem ++ items rest := by
  obtain ⟨text, h⟩ := spacing
  show items (text ++ rest) = text.map spacingItem ++ items rest
  induction text with
  | nil => rfl
  | cons c text ih =>
    obtain ⟨hc, htext⟩ := List.forall_mem_cons.1 h
    calc items (c :: (text ++ rest))
        = spacingItem c :: items (text ++ rest) :=
          items_text_append (shape_spacingItem hc) (extendedBy_spacingItem c _)
      _ = (c :: text).map spacingItem ++ items rest := by
          rw [ih htext, List.map_cons, List.cons_append]

/-! ## Items of a layout -/

/-- Spacing ends every item but comments and strings that are not closed. -/
theorem extendedBy_spacing {c : Char} (h : isBlank c = true ∨ c = '\n') {item : Item}
    (hcomment : item.kind ≠ .comment) (hunclosed : item.kind ≠ .unclosed) (rest : List Char) :
    item.extendedBy (c :: rest) = false := by
  have hclasses : c.isDigit = false ∧ isWordPart c = false ∧ c ≠ '/' ∧ c ≠ '=' ∧ c ≠ '.' := by
    simp only [isBlank, Bool.or_eq_true, beq_iff_eq] at h
    obtain ((rfl | rfl) | rfl) | rfl := h <;> decide
  unfold Item.extendedBy
  split <;> simp_all

def partItems (part : Lexeme × Spacing) : List Item :=
  part.1.item :: part.2.text.map spacingItem

theorem items_partsText {parts : List (Lexeme × Spacing)}
    (h : ∀ part ∈ parts.dropLast, part.2.text ≠ []) :
    items (partsText parts) = parts.flatMap partItems := by
  induction parts with
  | nil => exact items_nil
  | cons part rest ih =>
    obtain ⟨l, spacing⟩ := part
    have hrest : ∀ part ∈ rest.dropLast, part.2.text ≠ [] := by
      cases rest with
      | nil => simp
      | cons next rest => exact fun part hpart => h part (List.mem_cons_of_mem _ hpart)
    have hextended : l.item.extendedBy (spacing.text ++ partsText rest) = false := by
      cases hspacing : spacing.text with
      | cons c text =>
        have hc := spacing.isSpacing c (by simp [hspacing])
        exact extendedBy_spacing hc (by simp [Lexeme.item]) (by simp [Lexeme.item]) _
      | nil =>
        cases rest with
        | nil => exact Item.extendedBy_nil _
        | cons next rest => exact absurd hspacing (h (l, spacing) (by simp))
    have hcut := items_text_append l.shape_item hextended
    calc items (partsText ((l, spacing) :: rest))
        = l.item :: items (spacing.text ++ partsText rest) := by
          rw [partsText_cons, ← hcut, Lexeme.text_item]
      _ = l.item :: (spacing.text.map spacingItem ++ items (partsText rest)) := by
          rw [items_spacing_append]
      _ = ((l, spacing) :: rest).flatMap partItems := by
          rw [ih hrest, List.flatMap_cons, partItems, List.cons_append]

theorem Layout.items_text (layout : Layout) :
    items layout.text
      = layout.before.text.map spacingItem ++ layout.parts.flatMap partItems := by
  rw [Layout.text, items_spacing_append, items_partsText layout.separated]

/-! ## Tokens and errors of a layout -/

/-- Spacing gives nothing, and moves what comes after it down by its lines. -/
theorem gatherFrom_spacing_append {α : Type} {give : Item → Int → Option α}
    (hgive : ∀ c line, give (spacingItem c) line = none) (line : Int) (text : List Char)
    (found : List Item) :
    gatherFrom give line (text.map spacingItem ++ found)
      = gatherFrom give (line + countLines text) found := by
  have hlines : countItemLines (text.map spacingItem) = countLines text :=
    congrArg countLines (joined_map_spacingItem text)
  have hnone : gatherFrom give line (text.map spacingItem) = [] := by
    refine gatherFrom_eq_nil (fun item hitem line => ?_) line
    obtain ⟨c, -, rfl⟩ := List.mem_map.1 hitem
    exact hgive c line
  rw [gatherFrom_append, hnone, hlines, List.nil_append]

theorem tokensFrom_spacing_append (line : Int) (text : List Char) (found : List Item) :
    tokensFrom line (text.map spacingItem ++ found)
      = tokensFrom (line + countLines text) found :=
  gatherFrom_spacing_append token?_spacingItem line text found

theorem tokensFrom_parts (line : Int) (parts : List (Lexeme × Spacing)) :
    tokensFrom line (parts.flatMap partItems) = parts.mapIdx fun index part =>
      part.1.token (line + countLines (partsText (parts.take index))) := by
  induction parts generalizing line with
  | nil => rfl
  | cons part rest ih =>
    have hnext (index : Nat) : line + countLines part.1.text + countLines part.2.text
          + countLines (partsText (rest.take index))
        = line + countLines (partsText ((part :: rest).take (index + 1))) := by
      rw [List.take_succ_cons, partsText_cons, countLines_append, countLines_append]
      omega
    have hhead : part.1.token line
        = part.1.token (line + countLines (partsText ((part :: rest).take 0))) := by
      simp
    rw [List.flatMap_cons, partItems, List.cons_append, tokensFrom_cons, Lexeme.token?_item,
      Lexeme.text_item, tokensFrom_spacing_append, ih, List.mapIdx_cons, ← hhead,
      Option.toList_some, List.singleton_append]
    simp only [hnext]

theorem Layout.fault?_eq_none (layout : Layout) :
    ∀ item ∈ items layout.text, item.fault? = none := by
  intro item hitem
  rw [layout.items_text, List.mem_append, List.mem_flatMap] at hitem
  have hspacing : ∀ text : List Char, item ∈ text.map spacingItem → item.fault? = none := by
    intro text htext
    obtain ⟨c, -, rfl⟩ := List.mem_map.1 htext
    exact fault?_spacingItem c
  rcases hitem with hbefore | ⟨part, -, hpart⟩
  · exact hspacing _ hbefore
  · rcases List.mem_cons.1 hpart with rfl | hafter
    · exact Lexeme.fault?_item _
    · exact hspacing _ hafter

/-! ## Scans -/

/-- Lexemes that are laid out are scanned back: no error, one token for each lexeme in order, on the
    line on which it stands, and the mark of the end. -/
theorem scan_layout (layout : Layout) (filename : Option String) :
    let scanner := scan (String.ofList layout.text) filename
    scanner.errors.toList = [] ∧
      scanner.tokens.toList =
        layout.parts.mapIdx (fun index part =>
          part.1.token (1 + countLines (layout.textBefore index))) ++
        [Token.endOfInput (1 + countLines layout.text)] := by
  intro scanner
  obtain ⟨htokens, herrors⟩ := scan_spec (String.ofList layout.text) filename
  rw [String.toList_ofList] at htokens herrors
  constructor
  · rw [herrors]
    refine gatherFrom_eq_nil (fun item hitem line => ?_) 1
    rw [Item.error?, layout.fault?_eq_none item hitem, Option.map_none]
  · rw [htokens, tokensToEnd, layout.items_text, tokensFrom_spacing_append, tokensFrom_parts]
    have hline (index : Nat) : (1 : Int) + countLines layout.before.text
          + countLines (partsText (layout.parts.take index))
        = 1 + countLines (layout.textBefore index) := by
      rw [Layout.textBefore, countLines_append]
      omega
    simp only [hline]

/-- A declaration with the numeral on a line of its own, after a string that goes over two lines. -/
theorem scan_layout_declaration :
    let layout : Layout :=
      { before := ⟨['\t', ' '], by simp [isBlank]⟩
        parts :=
          [(.fixed (.keyword .varWord) "var" rfl, ⟨[' ', '\t'], by simp [isBlank]⟩),
            (.identifier 'x' ['_', '1'] rfl (List.all_eq_true.1 rfl)
              fun word => by cases word <;> decide, ⟨['\r', '\n'], by simp [isBlank]⟩),
            (.fixed .equal "=" rfl, ⟨[' '], by simp [isBlank]⟩),
            (.string ['a', '\n', 'b'] (by decide), ⟨['\n', '\n'], by simp [isBlank]⟩),
            (.number ⟨'2', [], rfl, by simp⟩ (some ⟨'5', ['0'], rfl, by simp⟩), ⟨[], by simp⟩)]
        separated := by simp }
    let text := "\t var \tx_1\r\n= \"a\nb\"\n\n2.50"
    let scanner := scan text (some "a.lox")
    String.ofList layout.text = text ∧ scanner.errors.toList = [] ∧
      scanner.tokens.toList =
        [⟨.keyword .varWord, "var", none, 1⟩, ⟨.identifier, "x_1", none, 1⟩,
          ⟨.equal, "=", none, 2⟩, ⟨.string, "\"a\nb\"", some (.text "a\nb"), 2⟩,
          ⟨.number, "2.50", some (.number (.signed false (⟨250, -2⟩ : Decimal).nearest)), 5⟩,
          Token.endOfInput 5] := by
  intro layout text scanner
  have htext : String.ofList layout.text = text := by
    decide +kernel
  obtain ⟨herrors, htokens⟩ := scan_layout layout (some "a.lox")
  rw [htext] at herrors htokens
  refine ⟨htext, herrors, htokens.trans ?_⟩
  decide +kernel

end LoxScan
