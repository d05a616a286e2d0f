import Mathlib.Data.List.Basic
import LoxScan.Proofs.Yield
import LoxScan.Proofs.ItemForm

/-! # Line numbers

A pass counts lines as it goes.  In the end every token and every error has the line that is found
by counting the line feeds before its place in the source.

* `lineAt` is the line of an offset, `placeItems` gives every item the offset that it begins at.
* `lines_of_pass`: a token has the line of its first character, a rejected character has its own
  line, and a string that is not closed has the last line of the source.
-/

namespace LoxScan

/-- The line of an offset: one more than the number of line feeds before it. -/
def lineAt (text : List Char) (offset : Nat) : Int :=
  1 + countLines (text.take offset)

theorem lineAt_length (text : List Char) : lineAt text text.length = 1 + countLines text := by
  rw [lineAt, List.take_length]

theorem lineAt_of_length_le {text : List Char} {offset : Nat} (h : text.length ≤ offset) :
    lineAt text offset = lineAt text text.length := by
  rw [lineAt, lineAt, List.take_of_length_le h, List.take_length]

theorem lineAt_add {text run : List Char} {offset : Nat} (h : run <+: text.drop offset) :
    lineAt text (offset + run.length) = lineAt text offset + countLines run := by
  obtain ⟨rest, hrest⟩ := h
  rw [lineAt, lineAt, List.take_add, ← hrest, List.take_left, countLines_append]
  omega

theorem lineAt_mono (text : List Char) {a b : Nat} (h : a ≤ b) : lineAt text a ≤ lineAt text b := by
  have hcount := (List.take_sublist_take_left h (l := text)).count_le '\n'
  unfold lineAt countLines
  omega

theorem lineAt_le (text : List Char) (offset : Nat) :
    lineAt text offset ≤ lineAt text text.length := by
  have hcount := (List.take_sublist offset text).count_le '\n'
  rw [lineAt_length]
  unfold lineAt countLines
  omega

/-! ## Items and their places -/

def placeItems (offset : Nat) : List Item → List (Nat × Item)
  | [] => []
  | item :: rest => (offset, item) :: placeItems (offset + item.text.length) rest

theorem prefix_placeItems {taken found : List Item} (h : taken <+: found) (offset : Nat) :
    placeItems offset taken <+: placeItems offset found := by
  induction taken generalizing found offset with
  | nil => exact List.nil_prefix
  | cons item rest ih =>
    obtain ⟨after, rfl⟩ := h
    exact List.cons_prefix_cons.2 ⟨rfl, ih (List.prefix_append rest after) _⟩

theorem items_drop {text : List Char} {offset : Nat} {item : Item} {after : List Item}
    (h : items (text.drop offset) = item :: after) :
    (∃ c rest, text.drop offset = c :: rest ∧
      Item.cut c rest = (item, text.drop (offset + item.text.length))) ∧
      after = items (text.drop (offset + item.text.length)) := by
  cases hdrop : text.drop offset with
  | nil => simp [hdrop] at h
  | cons c rest =>
    rw [hdrop, items_cons] at h
    obtain ⟨rfl, rfl⟩ := List.cons.inj h
    have hrest : text.drop (offset + (Item.cut c rest).1.text.length) = (Item.cut c rest).2 := by
      rw [← List.drop_drop, hdrop, ← Item.cut_append c rest, List.drop_left]
    exact ⟨⟨c, rest, rfl, Prod.ext rfl hrest.symm⟩, congrArg items hrest.symm⟩

/-- An item stands in the source where it was cut off. -/
theorem cut_of_mem_placeItems {text : List Char} {q : Nat × Item} {offset : Nat}
    (h : q ∈ placeItems offset (items (text.drop offset))) :
    ∃ c rest, text.drop q.1 = c :: rest ∧
      Item.cut c rest = (q.2, text.drop (q.1 + q.2.text.length)) := by
  generalize hfound : items (text.drop offset) = found at h
  induction found generalizing offset with
  | nil => cases h
  | cons item rest ih =>
    obtain ⟨hcut, hrest⟩ := items_drop hfound
    rcases List.mem_cons.1 h with rfl | hmem
    · exact hcut
    · exact ih hrest.symm hmem

theorem prefix_of_mem_placeItems {text : List Char} {q : Nat × Item} {offset : Nat}
    (h : q ∈ placeItems offset (items (text.drop offset))) : q.2.text <+: text.drop q.1 := by
  obtain ⟨c, rest, hdrop, hcut⟩ := cut_of_mem_placeItems h
  obtain ⟨-, happend, -⟩ := Item.cut_eq_iff.1 hcut
  exact ⟨_, happend.trans hdrop.symm⟩

/-- What items give depends on their places only. -/
theorem gatherFrom_eq_filterMap {α : Type} (give : Item → Int → Option α) {text : List Char}
    {taken : List Item} {offset : Nat} (h : taken <+: items (text.drop offset)) :
    gatherFrom give (lineAt text offset) taken
      = (placeItems offset taken).filterMap fun q => give q.2 (lineAt text q.1) := by
  induction taken generalizing offset with
  | nil => rfl
  | cons item rest ih =>
    obtain ⟨after, happend⟩ := h
    obtain ⟨⟨c, tail, hdrop, hcut⟩, hafter⟩ := items_drop happend.symm
    obtain ⟨-, htext, -⟩ := Item.cut_eq_iff.1 hcut
    have hbegins : item.text <+: text.drop offset := ⟨_, htext.trans hdrop.symm⟩
    rw [gatherFrom, placeItems, ← lineAt_add hbegins, ih ⟨after, hafter⟩]
    cases hgive : give item (lineAt text offset) <;> simp [hgive]

def faultLine (text : List Char) (offset : Nat) : LexicalFault → Int
  | .unexpectedCharacter _ => lineAt text offset
  | .unterminatedString => lineAt text text.length

theorem error?_of_mem_placeItems {text : List Char} {q : Nat × Item} {offset : Nat}
    (h : q ∈ placeItems offset (items (text.drop offset))) (filename : Option String) :
    q.2.error? filename (lineAt text q.1) =
      q.2.fault?.map fun fault => fault.errorAt ⟨filename, faultLine text q.1 fault⟩ := by
  obtain ⟨c, rest, hdrop, hcut⟩ := cut_of_mem_placeItems h
  have hbegins := prefix_of_mem_placeItems h
  obtain ⟨hshape, -, hrest⟩ := Item.cut_eq_iff.1 hcut
  have hline := lineAt_add hbegins
  rw [Item.error?]
  rw [← hline]
  generalize q.2 = item at hbegins hline hshape hrest ⊢
  cases hshape with
  | form hform => rw [hform.fault?_eq_none, Option.map_none, Option.map_none]
  | @unclosed body h =>
    -- Nothing is left behind the item, so it ends where the source ends.
    have hend := Item.eq_nil_of_unclosed hrest
    rw [lineAt_of_length_le (List.drop_eq_nil_iff.1 hend)]
    rfl
  | @rejected c h =>
    rw [hline, countLines_rejected h, Int.natCast_zero, Int.add_zero]
    rfl

/-! ## Order -/

theorem le_of_mem_placeItems {q : Nat × Item} {found : List Item} {offset : Nat}
    (h : q ∈ placeItems offset found) : offset ≤ q.1 := by
  induction found generalizing offset with
  | nil => cases h
  | cons item rest ih =>
    rcases List.mem_cons.1 h with rfl | hmem
    · exact Nat.le_refl _
    · have hle := ih hmem
      omega

theorem pairwise_placeItems (offset : Nat) (found : List Item) :
    (placeItems offset found).Pairwise fun a b => a.1 + a.2.text.length ≤ b.1 := by
  induction found generalizing offset with
  | nil => exact .nil
  | cons item rest ih => exact .cons (fun q hq => le_of_mem_placeItems hq) (ih _)

theorem line_of_token? {item : Item} {line : Int} {token : Token}
    (h : item.token? line = some token) : token.line = line := by
  rw [Item.token?] at h
  split at h
  · cases h
    rfl
  · cases h

theorem line_of_error? {item : Item} {filename : Option String} {line : Int} {error : LexicalError}
    (h : item.error? filename line = some error) : error.line = line + countLines item.text := by
  obtain ⟨fault, -, rfl⟩ := Option.map_eq_some_iff.1 h
  rw [LexicalFault.line_errorAt]

theorem pairwise_lines {α : Type} (text : List Char) {give : Nat × Item → Option α}
    {line : α → Int} {offset : Nat} {found : List Item}
    (hgive : ∀ q ∈ placeItems offset found, ∀ x, give q = some x →
      lineAt text q.1 ≤ line x ∧ line x ≤ lineAt text (q.1 + q.2.text.length)) :
    ((placeItems offset found).filterMap give).Pairwise fun x y => line x ≤ line y := by
  rw [List.pairwise_filterMap]
  refine (pairwise_placeItems offset found).imp_of_mem fun {a b} ha hb hle x hx y hy => ?_
  have hfirst := (hgive a ha x hx).2
  have hsecond := (hgive b hb y hy).1
  have hmono := lineAt_mono text hle
  omega

theorem pairwise_token_lines {Fault : Type} (text : List Char) (found : List Item)
    (result : Except Fault Unit) :
    ((placeItems 0 found).filterMap (fun q => q.2.token? (lineAt text q.1)) ++
      endMark (lineAt text text.length) result).Pairwise fun a b => a.line ≤ b.line := by
  have hend := endMark_sublist (lineAt text text.length) result
  rw [List.pairwise_append]
  refine ⟨pairwise_lines text fun q _ token htoken => ?_,
    (List.pairwise_singleton _ _).sublist hend, fun token htoken last hlast => ?_⟩
  · rw [line_of_token? htoken]
    exact ⟨Int.le_refl _, lineAt_mono text (Nat.le_add_right _ _)⟩
  · obtain ⟨q, -, htoken⟩ := List.mem_filterMap.1 htoken
    obtain rfl := List.mem_singleton.1 (hend.subset hlast)
    rw [line_of_token? htoken]
    exact lineAt_le text q.1

/-- An error stands on the line that its item ends on, which is not below that of the next item. -/
theorem pairwise_error_lines {text : List Char} {found : List Item}
    (hfound : ∀ q ∈ placeItems 0 found, q.2.text <+: text.drop q.1) (filename : Option String) :
    ((placeItems 0 found).filterMap fun q => q.2.error? filename (lineAt text q.1)).Pairwise
      fun a b => a.line ≤ b.line := by
  refine pairwise_lines text fun q hq error herror => ?_
  rw [line_of_error? herror, ← lineAt_add (hfound q hq)]
  exact ⟨lineAt_mono text (Nat.le_add_right _ _), Int.le_refl _⟩

/-! ## Passes -/

theorem Pass.line_of_reaches {State Fault : Type} {receive : Receiver State Fault} {s : Scanner}
    {state : State} {q : Pass State} (h : (Pass.begin s state).Reaches receive q) :
    q.scanner.line = lineAt s.source.toList q.scanner.current := by
  induction h with
  | refl => rfl
  | @next q r c rest hq hremaining hturn ih =>
    have hsource : q.scanner.source = s.source := (source_filename_of_reaches hq).1
    have hbegins : (Item.cut c rest).1.text <+: s.source.toList.drop q.scanner.current := by
      rw [← hsource, ← Scanner.remaining, hremaining, ← Item.cut_append c rest]
      exact List.prefix_append _ _
    rw [scanner_of_takeItem hturn, Scanner.line_takeItem, Scanner.current_takeItem,
      lineAt_add hbegins, ih]

/-- The lines of a pass, ended or broken off.  They are those of the places of the items taken, all
    of them if the pass has ended, and never go down. -/
theorem lines_of_pass {State Fault : Type} (receive : Receiver State Fault) (s : Scanner)
    (state : State) :
    let text := s.source.toList
    let result := s.tokenize receive state
    let tokens := result.2.scanner.tokens.toList
    let errors := result.2.scanner.errors.toList
    ∃ taken, taken <+: items text ∧ (result.1 = .ok () → taken = items text) ∧
      (∀ q ∈ placeItems 0 taken, q.2.text <+: text.drop q.1) ∧
      tokens = (placeItems 0 taken).filterMap (fun q => q.2.token? (lineAt text q.1)) ++
        endMark (lineAt text text.length) result.1 ∧
      errors = (placeItems 0 taken).filterMap (fun q =>
        q.2.fault?.map fun fault => fault.errorAt ⟨s.filename, faultLine text q.1 fault⟩) ∧
      tokens.Pairwise (fun a b => a.line ≤ b.line) ∧
      errors.Pairwise (fun a b => a.line ≤ b.line) := by
  intro text result tokens errors
  obtain ⟨taken, hbegins, hall, htokens, herrors⟩ := s.tokenize_spec receive state
  have hmem : ∀ q ∈ placeItems 0 taken, q ∈ placeItems 0 (items (text.drop 0)) :=
    fun q hq => (prefix_placeItems hbegins 0).subset hq
  have hstands : ∀ q ∈ placeItems 0 taken, q.2.text <+: text.drop q.1 :=
    fun q hq => prefix_of_mem_placeItems (hmem q hq)
  -- A pass counts lines from item to item; this is the same as counting from the beginning.
  have hplaced : ∀ {α : Type} (give : Item → Int → Option α), gatherFrom give 1 taken
      = (placeItems 0 taken).filterMap fun q => give q.2 (lineAt text q.1) :=
    fun give => gatherFrom_eq_filterMap give (show taken <+: items (text.drop 0) from hbegins)
  have htokens : tokens = (placeItems 0 taken).filterMap (fun q => q.2.token? (lineAt text q.1)) ++
      endMark (lineAt text text.length) result.1 := by
    rw [← hplaced, lineAt_length]
    exact htokens
  have herrors : errors = (placeItems 0 taken).filterMap
      fun q => q.2.error? s.filename (lineAt text q.1) := by
    rw [← hplaced fun item line => item.error? s.filename line]
    exact herrors
  have hlocated := fun q hq => error?_of_mem_placeItems (hmem q hq) s.filename
  refine ⟨taken, hbegins, hall, hstands, htokens,
    herrors.trans (List.filterMap_congr hlocated), ?_, ?_⟩
  · rw [htokens]
    exact pairwise_token_lines text taken result.1
  · rw [herrors]
    exact pairwise_error_lines hstands s.filename

end LoxScan
