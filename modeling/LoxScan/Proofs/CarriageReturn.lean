import LoxScan.Proofs.Layout
import LoxScan.Proofs.Rewriting

/-! # Carriage returns

A carriage return in front of a line feed adds nothing to it.  Between tokens it is a blank, a
comment takes it in, and a string keeps it.

* `dropReturns` ends all lines with the line feed alone, and `ReturnsPaired` are the texts that it
  leaves no carriage return in.
* `items_dropReturns`: some blanks go, and in all other items only carriage returns.
* `tokenize_dropReturns`: the tokens and errors are those of the old text, with the line endings in
  strings changed.
-/

namespace LoxScan

/-! ## Texts -/

/-- The text with a line feed in place of each carriage return and line feed. -/
def dropReturns : List Char → List Char
  | [] => []
  | '\r' :: '\n' :: rest => '\n' :: dropReturns rest
  | c :: rest => c :: dropReturns rest

def ReturnsPaired (text : List Char) : Prop :=
  ∀ i : Nat, text[i]? = some '\r' → text[i + 1]? = some '\n'

theorem returnsPaired_nil : ReturnsPaired [] := by
  intro i hi
  cases hi

theorem returnsPaired_cons {c : Char} {rest : List Char} :
    ReturnsPaired (c :: rest) ↔ (c = '\r' → rest.head? = some '\n') ∧ ReturnsPaired rest := by
  constructor
  · intro h
    refine ⟨fun hc => ?_, fun i => h (i + 1)⟩
    rw [List.head?_eq_getElem?]
    exact h 0 (congrArg some hc)
  · rintro ⟨hc, hrest⟩ i hi
    cases i with
    | zero => simpa [List.head?_eq_getElem?] using hc (Option.some.inj hi)
    | succ i => exact hrest i hi

instance decidableReturnsPaired : DecidablePred ReturnsPaired
  | [] => isTrue returnsPaired_nil
  | _ :: rest =>
    have := decidableReturnsPaired rest
    decidable_of_iff _ returnsPaired_cons.symm

theorem ReturnsPaired.of_append {before after : List Char} (h : ReturnsPaired (before ++ after)) :
    ReturnsPaired after := by
  induction before with
  | nil => exact h
  | cons c before ih => exact ih (returnsPaired_cons.1 h).2

/-- A text is cut between a carriage return and its line feed only in front of a line feed. -/
theorem returnsPaired_append_cons {before after : List Char} {c : Char} (hc : c ≠ '\n') :
    ReturnsPaired (before ++ c :: after) ↔
      ReturnsPaired before ∧ ReturnsPaired (c :: after) := by
  induction before with
  | nil => simp [returnsPaired_nil]
  | cons first before ih =>
    have hhead : (before ++ c :: after).head? = some '\n' ↔ before.head? = some '\n' := by
      cases before <;> simp [hc]
    rw [List.cons_append, returnsPaired_cons, returnsPaired_cons, ih, hhead, and_assoc]

theorem returnsPaired_quoted {body rest : List Char} :
    ReturnsPaired ('"' :: (body ++ ['"']) ++ rest) ↔
      ReturnsPaired body ∧ ReturnsPaired ('"' :: rest) := by
  rw [List.cons_append, List.append_assoc, List.singleton_append, returnsPaired_cons,
    returnsPaired_append_cons (by decide)]
  simp

def withoutReturns (text : List Char) : List Char :=
  text.filter (· != '\r')

theorem withoutReturns_append (before after : List Char) :
    withoutReturns (before ++ after) = withoutReturns before ++ withoutReturns after :=
  List.filter_append ..

theorem not_mem_withoutReturns {text : List Char} {c : Char} (h : c ∉ text) :
    c ∉ withoutReturns text :=
  fun hmem => h (List.mem_filter.1 hmem).1

theorem withoutReturns_eq_self {text : List Char} (h : '\r' ∉ text) : withoutReturns text = text :=
  List.filter_eq_self.2 (forall_bne_of_not_mem h)

theorem dropReturns_eq_withoutReturns {text : List Char} (h : ReturnsPaired text) :
    dropReturns text = withoutReturns text := by
  induction text with
  | nil => rfl
  | cons c rest ih =>
    obtain ⟨hc, hrest⟩ := returnsPaired_cons.1 h
    have ih := ih hrest
    by_cases hreturn : c = '\r'
    · subst hreturn
      obtain ⟨after, rfl⟩ := List.head?_eq_some_iff.1 (hc rfl)
      exact ih
    · rw [withoutReturns, List.filter_cons_of_pos (by simpa using hreturn), dropReturns, ih]
      · rfl
      · simp [hreturn]

theorem returnsPaired_of_not_mem {text : List Char} (h : '\r' ∉ text) : ReturnsPaired text :=
  fun _ hi => absurd (List.mem_of_getElem? hi) h

theorem dropReturns_of_not_mem {text : List Char} (h : '\r' ∉ text) : dropReturns text = text := by
  rw [dropReturns_eq_withoutReturns (returnsPaired_of_not_mem h), withoutReturns_eq_self h]

theorem countLines_withoutReturns (text : List Char) :
    countLines (withoutReturns text) = countLines text :=
  List.count_filter rfl

theorem head?_withoutReturns {text : List Char} (h : ReturnsPaired text) :
    (withoutReturns text).head? = text.head?.map fun c => if c = '\r' then '\n' else c := by
  cases text with
  | nil => rfl
  | cons c rest =>
    by_cases hreturn : c = '\r'
    · subst hreturn
      obtain ⟨after, rfl⟩ := List.head?_eq_some_iff.1 ((returnsPaired_cons.1 h).1 rfl)
      rfl
    · simp [withoutReturns, hreturn]

/-! ## Items -/

namespace Item

/-- What becomes of an item.  A carriage return that is an item by itself goes. -/
def trimmed (item : Item) : List Item :=
  if item.text = ['\r'] then [] else [⟨item.kind, withoutReturns item.text⟩]

theorem trimmed_of_ne {item : Item} (h : item.text ≠ ['\r']) :
    item.trimmed = [⟨item.kind, withoutReturns item.text⟩] :=
  if_neg h

theorem joined_trimmed (item : Item) :
    joined item.trimmed = withoutReturns item.text := by
  by_cases h : item.text = ['\r']
  · rw [trimmed, if_pos h, h]
    rfl
  · rw [trimmed_of_ne h]
    exact List.append_nil _

theorem countItemLines_trimmed (item : Item) :
    countItemLines item.trimmed = countLines item.text :=
  (congrArg countLines item.joined_trimmed).trans (countLines_withoutReturns item.text)

end Item

theorem joined_flatMap_trimmed (found : List Item) :
    joined (found.flatMap Item.trimmed) = withoutReturns (joined found) := by
  induction found with
  | nil => rfl
  | cons item rest ih =>
    rw [List.flatMap_cons, joined_append, ih, item.joined_trimmed, joined_cons,
      withoutReturns_append]

theorem ItemForm.return_not_mem {kind : ItemKind} {text : List Char} (h : ItemForm kind text)
    (hcomment : kind ≠ .comment) (hstring : kind ≠ .token .string) (hblank : kind ≠ .blank) :
    '\r' ∉ text :=
  fun hmem => hblank ((h.role_of_mem hcomment hstring hmem).2 rfl)

theorem Item.Shape.kind_eq_blank {item : Item} (h : item.Shape) (htext : item.text = ['\r']) :
    item.kind = .blank := by
  cases h with
  | @form kind text hform =>
    by_contra hblank
    refine hform.return_not_mem ?_ ?_ hblank (List.mem_of_mem_head? (congrArg List.head? htext))
    · rintro rfl
      cases hform with
      | comment => simp at htext
    · rintro rfl
      obtain ⟨body, -, rfl⟩ := hform.exists_body
      simp at htext
  | unclosed => simp at htext
  | rejected hc =>
    obtain rfl := List.singleton_inj.1 htext
    exact absurd hc (by decide)

/-- An item keeps its form, as no form asks for a carriage return but the one that is left out. -/
theorem ItemForm.trimmed {kind : ItemKind} {text : List Char} (h : ItemForm kind text)
    (htext : text ≠ ['\r']) : ItemForm kind (withoutReturns text) := by
  by_cases hcomment : kind = .comment
  · subst hcomment
    cases h with
    | comment hbody => exact .comment (not_mem_withoutReturns hbody)
  by_cases hstring : kind = .token .string
  · subst hstring
    obtain ⟨body, hbody, rfl⟩ := h.exists_body
    have hform := ItemForm.string (not_mem_withoutReturns hbody)
    rwa [← List.cons_append, withoutReturns_append]
  have hreturn : '\r' ∉ text := by
    by_cases hblank : kind = .blank
    · subst hblank
      cases h with
      | blank => simpa [eq_comm] using htext
    · exact h.return_not_mem hcomment hstring hblank
  rwa [withoutReturns_eq_self hreturn]

theorem Item.Shape.trimmed {item : Item} (h : item.Shape) (htext : item.text ≠ ['\r']) :
    Shape ⟨item.kind, withoutReturns item.text⟩ := by
  cases h with
  | form h => exact .form (h.trimmed htext)
  | unclosed hbody => exact .unclosed (not_mem_withoutReturns hbody)
  | @rejected c hc =>
    have hreturn : '\r' ∉ [c] := by simpa [eq_comm] using htext
    rw [withoutReturns_eq_self hreturn]
    exact .rejected hc

/-- Dropping carriage returns brings nothing nearer to an item but line feeds, which end it. -/
theorem extendedBy_trimmed {item : Item} {rest : List Char} (hpaired : ReturnsPaired rest)
    (hrest : item.extendedBy rest = false) :
    Item.extendedBy ⟨item.kind, withoutReturns item.text⟩ (withoutReturns rest) = false := by
  have hdot : '.' ∈ withoutReturns item.text ↔ '.' ∈ item.text := by simp [withoutReturns]
  rw [Item.extendedBy_congr_roles hdot rfl rfl]
  show item.extendedBy (withoutReturns rest) = false
  cases rest with
  | nil => exact hrest
  | cons c rest =>
    obtain ⟨hc, hpaired⟩ := returnsPaired_cons.1 hpaired
    by_cases hreturn : c = '\r'
    · subst hreturn
      obtain ⟨after, rfl⟩ := List.head?_eq_some_iff.1 (hc rfl)
      -- Comments and strings that are not closed would have taken in the carriage return.
      apply extendedBy_spacing (.inr rfl)
      · intro hkind
        simp [Item.extendedBy, hkind] at hrest
      · intro hkind
        simp [Item.extendedBy, hkind] at hrest
    · have hkeep : withoutReturns (c :: rest) = c :: withoutReturns rest :=
        List.filter_cons_of_pos (by simpa using hreturn)
      rw [hkeep]
      refine Item.extendedBy_cons hrest fun hdigit => ?_
      rw [head?_withoutReturns hpaired]
      cases rest with
      | nil => rfl
      | cons d rest =>
        by_cases hd : d = '\r'
        · simp [hd]
        · simpa [hd] using hdigit

theorem fits_trimmed {found : List Item} (h : Fits [] found)
    (hpaired : ReturnsPaired (joined found)) : Fits [] (found.flatMap Item.trimmed) := by
  induction h with
  | nil => exact .nil
  | @cons item found hshape hrest _ ih =>
    have hfound : ReturnsPaired (joined found) := hpaired.of_append
    rw [List.append_nil] at hrest
    rw [List.flatMap_cons]
    by_cases htext : item.text = ['\r']
    · rw [Item.trimmed, if_pos htext]
      exact ih hfound
    · rw [Item.trimmed_of_ne htext, List.singleton_append]
      refine .cons (hshape.trimmed htext) ?_ (ih hfound)
      rw [List.append_nil, joined_flatMap_trimmed]
      exact extendedBy_trimmed hfound hrest

theorem items_dropReturns {text : List Char} (h : ReturnsPaired text) :
    items (dropReturns text) = (items text).flatMap Item.trimmed := by
  have hjoined := joined_flatMap_trimmed (items text)
  rw [joined_items, ← dropReturns_eq_withoutReturns h] at hjoined
  rw [← hjoined, items_joined_iff]
  exact fits_trimmed (fits_items text) (by rwa [joined_items])

/-! ## What is found -/

/-- A carriage return of an item has its line feed in the item, or right behind it. -/
theorem ReturnsPaired.of_mem_items {text : List Char} (h : ReturnsPaired text) {item : Item}
    (hitem : item ∈ items text) : ∃ rest, ReturnsPaired (item.text ++ rest) := by
  obtain ⟨before, after, hsplit⟩ := List.append_of_mem hitem
  rw [← joined_items text, hsplit, joined_append, joined_cons] at h
  exact ⟨_, h.of_append⟩

section Tokens

variable {kind : TokenKind} {text rest : List Char} (hform : ItemForm (.token kind) text)

include hform

theorem ItemForm.return_not_mem_token (hkind : kind ≠ .string) : '\r' ∉ text :=
  hform.return_not_mem (by simp) (by simpa using hkind) (by simp)

theorem ItemForm.dropReturns_eq_self (hkind : kind ≠ .string) : dropReturns text = text :=
  dropReturns_of_not_mem (hform.return_not_mem_token hkind)

/-- Line endings inside of a token are changed as a whole. -/
theorem ItemForm.dropReturns_eq (hpaired : ReturnsPaired (text ++ rest)) :
    dropReturns text = withoutReturns text := by
  by_cases hkind : kind = .string
  · subst hkind
    obtain ⟨body, -, rfl⟩ := hform.exists_body
    -- The last character of a string is its quote, so no line ending goes over the end of it.
    have hbody := (returnsPaired_quoted.1 hpaired).1
    have hquote : ReturnsPaired ['"'] := by decide
    have hquoted := returnsPaired_quoted.2 ⟨hbody, hquote⟩
    rw [List.append_nil] at hquoted
    exact dropReturns_eq_withoutReturns hquoted
  · rw [hform.dropReturns_eq_self hkind, withoutReturns_eq_self (hform.return_not_mem_token hkind)]

theorem token?_withoutReturns (hpaired : ReturnsPaired (text ++ rest)) (line : Int) :
    Item.token? ⟨.token kind, withoutReturns text⟩ line
      = (Item.token? ⟨.token kind, text⟩ line).map (Token.rewrite dropReturns) := by
  rw [← hform.dropReturns_eq hpaired]
  refine Item.token?_rewrite hform (fun body htext => ?_) hform.dropReturns_eq_self line
  rw [hform.dropReturns_eq hpaired]
  rw [htext] at hpaired ⊢
  rw [dropReturns_eq_withoutReturns (returnsPaired_quoted.1 hpaired).1, ← List.cons_append,
    withoutReturns_append]
  rfl

end Tokens

theorem tokensFrom_trimmed {item : Item} {rest : List Char} (hshape : item.Shape)
    (hpaired : ReturnsPaired (item.text ++ rest)) (line : Int) :
    tokensFrom line item.trimmed
      = ((item.token? line).map (Token.rewrite dropReturns)).toList := by
  by_cases htext : item.text = ['\r']
  · rw [Item.trimmed, if_pos htext, Item.token?, hshape.kind_eq_blank htext]
    rfl
  · rw [Item.trimmed_of_ne htext, tokensFrom_cons]
    cases hshape with
    | unclosed | rejected => rfl
    | @form kind text hform =>
      rcases hform.trivia_or_token with htrivia | ⟨kind, rfl⟩
      · rcases htrivia with rfl | rfl | rfl <;> rfl
      · rw [token?_withoutReturns hform hpaired]
        exact List.append_nil _

theorem errorsFrom_trimmed {item : Item} (hshape : item.Shape) (filename : Option String)
    (line : Int) :
    errorsFrom filename line item.trimmed = ((item.error? filename line).map id).toList := by
  by_cases htext : item.text = ['\r']
  · rw [Item.trimmed, if_pos htext, Item.error?, Item.fault?, hshape.kind_eq_blank htext]
    rfl
  · have hlines := countLines_withoutReturns item.text
    rw [Item.trimmed_of_ne htext, errorsFrom_cons, Item.error?, hlines, Option.map_id]
    exact List.append_nil _

section Texts

variable {text : List Char} (h : ReturnsPaired text)

include h

theorem tokensToEnd_dropReturns (line : Int) :
    tokensToEnd line (dropReturns text)
      = (tokensToEnd line text).map (Token.rewrite dropReturns) := by
  refine tokensToEnd_rewrite (items_dropReturns h) rfl
    (fun item _ => item.countItemLines_trimmed) (fun item hitem line => ?_) line
  obtain ⟨rest, hpaired⟩ := h.of_mem_items hitem
  exact tokensFrom_trimmed (shape_of_mem_items item hitem) hpaired line

theorem errorsFrom_dropReturns (filename : Option String) (line : Int) :
    errorsFrom filename line (items (dropReturns text))
      = errorsFrom filename line (items text) := by
  rw [items_dropReturns h, errorsFrom, gatherFrom_flatMap
    (fun item _ => item.countItemLines_trimmed)
    (fun item hitem => errorsFrom_trimmed (shape_of_mem_items item hitem) filename) line,
    List.map_id]
  rfl

end Texts

theorem rewrite_dropReturns_eq_self {line : Int} {text : List Char} {token : Token}
    (htoken : token ∈ tokensToEnd line text) (hkind : token.kind ≠ .string) :
    token.rewrite dropReturns = token := by
  rcases List.mem_append.1 htoken with hmem | hmem
  · obtain ⟨before, item, after, hsplit, hgive⟩ := mem_gatherFrom.1 hmem
    have hitem : item ∈ items text := by simp [hsplit]
    cases shape_of_mem_items item hitem with
    | unclosed | rejected => cases hgive
    | form hform =>
      rcases hform.trivia_or_token with htrivia | ⟨kind, rfl⟩
      · rcases htrivia with rfl | rfl | rfl <;> cases hgive
      · refine Token.rewrite_eq_self hgive hkind (hform.dropReturns_eq_self ?_)
        rwa [← Option.some.inj hgive] at hkind
  · rw [List.mem_singleton.1 hmem]
    rfl

/-! ## Passes -/

/-- Lines may end with a carriage return and a line feed, or with a line feed alone.  The tokens are
    the same but for the line endings in strings, and the errors are the same. -/
theorem tokenize_dropReturns {State Fault State' Fault' : Type} {receive : Receiver State Fault}
    {receive' : Receiver State' Fault'} (haccepts : receive.Accepts) (haccepts' : receive'.Accepts)
    {s : Scanner} (h : ReturnsPaired s.source.toList) (state : State) (state' : State') :
    let result := s.tokenize receive state
    let changed : Scanner := { s with source := String.ofList (dropReturns s.source.toList) }
    let other := changed.tokenize receive' state'
    result.1 = .ok () ∧ other.1 = .ok () ∧
      other.2.scanner.tokens.toList
        = result.2.scanner.tokens.toList.map (Token.rewrite dropReturns) ∧
      (∀ token ∈ result.2.scanner.tokens.toList, token.kind ≠ .string →
        token.rewrite dropReturns = token) ∧
      other.2.scanner.errors.toList = result.2.scanner.errors.toList := by
  intro result changed other
  have hsource : changed.source.toList = dropReturns s.source.toList := String.toList_ofList
  obtain ⟨hended, htokens, herrors⟩ := s.tokenize_spec_of_accepts haccepts state
  obtain ⟨hother, htokens', herrors'⟩ := changed.tokenize_spec_of_accepts haccepts' state'
  rw [hsource] at htokens' herrors'
  refine ⟨hended, hother, ?_, ?_, ?_⟩
  · rw [htokens, htokens', tokensToEnd_dropReturns h]
  · rw [htokens]
    exact fun token => rewrite_dropReturns_eq_self
  · rw [herrors, herrors', errorsFrom_dropReturns h]

/-- Carriage returns behind a number with a dot, in a comment, and in two strings, one of them not
    closed. -/
theorem tokenize_dropReturns_mixed :
    let s := Scanner.new "1.\r\n\"\r\n\" // x\r\n\n@\r\n\"a\r\n" none
    let result := s.tokenize Receiver.silent ()
    let changed : Scanner := { s with source := String.ofList (dropReturns s.source.toList) }
    let other := changed.tokenize Receiver.silent ()
    Receiver.silent.Accepts ∧ ReturnsPaired s.source.toList ∧
      changed.source = "1.\n\"\n\" // x\n\n@\n\"a\n" ∧
      other.2.scanner.tokens.toList
        = result.2.scanner.tokens.toList.map (Token.rewrite dropReturns) ∧
      other.2.scanner.errors.toList = result.2.scanner.errors.toList := by
  intro s result changed other
  have hpaired : ReturnsPaired s.source.toList := by decide +kernel
  obtain ⟨-, -, htokens, -, herrors⟩ :=
    tokenize_dropReturns Receiver.accepts_silent Receiver.accepts_silent hpaired () ()
  exact ⟨Receiver.accepts_silent, hpaired, by decide +kernel, htokens, herrors⟩

end LoxScan
