import Mathlib.Data.List.Forall2
import LoxScan.Proofs.Lexeme
import LoxScan.Proofs.Lexing
import LoxScan.Proofs.Lines

/-! # Tokens and errors that scans find

What can be said of a token or an error when nothing is known but that some pass has found it, with
any receiver, ended or broken off.

* `Token.Scanned` says that a token was found; then it is the token of a lexeme, or the mark of the
  end (`Token.Scanned.cases`).  Every lexeme is found (`Lexeme.scanned_token`), and a text that is a
  lexeme gives this token and no error (`Lexeme.scan_text`).
* `LexicalError.FoundAt` says that an error was found, in which file, and at which item of the
  source; then it is the fault of that item (`LexicalError.FoundAt.isFaultOf`).  Every error of a
  pass is found at an item (`exists_foundAt`).
-/

namespace LoxScan

/-! ## Tokens -/

/-- A token is left behind by some pass. -/
def Token.Scanned (t : Token) : Prop :=
  ∃ (State Fault : Type) (receive : Receiver State Fault) (s : Scanner) (state : State),
    t ∈ (s.tokenize receive state).2.scanner.tokens.toList

theorem Token.scanned_of_mem_scan {t : Token} {source : String} {filename : Option String}
    (h : t ∈ (scan source filename).tokens.toList) : t.Scanned :=
  ⟨Unit, Empty, Receiver.silent, Scanner.new source filename, (), h⟩

theorem Item.Shape.exists_lexeme {item : Item} {line : Int} {t : Token} (h : item.Shape)
    (htoken : item.token? line = some t) : ∃ l : Lexeme, t = l.token line := by
  cases h with
  | @form kind text hform =>
    rcases hform.trivia_or_token with (rfl | rfl | rfl) | ⟨kind, rfl⟩
    · cases htoken
    · cases htoken
    · cases htoken
    · obtain ⟨l, rfl, rfl⟩ := Lexeme.exists_iff_form.2 hform
      have hitem := l.token?_item line
      rw [Lexeme.item, htoken] at hitem
      exact ⟨l, Option.some.inj hitem⟩
  | unclosed | rejected => cases htoken

theorem Token.Scanned.cases {t : Token} (h : t.Scanned) :
    (∃ (l : Lexeme) (line : Int), t = l.token line) ∨ ∃ line, t = Token.endOfInput line := by
  obtain ⟨State, Fault, receive, s, state, hmem⟩ := h
  obtain ⟨taken, htaken, -, htokens, -⟩ := s.tokenize_spec receive state
  rw [htokens, List.mem_append] at hmem
  rcases hmem with hmem | hmem
  · obtain ⟨before, item, after, rfl, htoken⟩ := mem_gatherFrom.1 hmem
    have hshape := shape_of_mem_items item (htaken.subset (by simp))
    obtain ⟨l, hl⟩ := hshape.exists_lexeme htoken
    exact .inl ⟨l, _, hl⟩
  · have hend := (endMark_sublist _ _).subset hmem
    exact .inr ⟨_, List.mem_singleton.1 hend⟩

theorem Token.Scanned.exists_lexeme {t : Token} (h : t.Scanned) (hkind : t.kind ≠ .eof) :
    ∃ (l : Lexeme) (line : Int), t = l.token line := by
  rcases h.cases with hlexeme | ⟨line, rfl⟩
  · exact hlexeme
  · exact absurd rfl hkind

namespace Lexeme

@[simp] theorem items_text (l : Lexeme) : items l.text = [l.item] := by
  have hitems := items_text_append l.shape_item (Item.extendedBy_nil l.item)
  rwa [List.append_nil, items_nil] at hitems

theorem scan_text (l : Lexeme) (filename : Option String) :
    (scan (String.ofList l.text) filename).tokens.toList
        = [l.token 1, Token.endOfInput (1 + countLines l.text)] ∧
      (scan (String.ofList l.text) filename).errors.toList = [] := by
  obtain ⟨htokens, herrors⟩ := scan_spec (String.ofList l.text) filename
  rw [htokens, herrors, tokensToEnd, String.toList_ofList, items_text]
  simp [tokensFrom, errorsFrom, gatherFrom, Item.error?]

theorem scanned_token (l : Lexeme) : (l.token 1).Scanned := by
  have hmem : l.token 1 ∈ (scan (String.ofList l.text) none).tokens.toList := by
    rw [(l.scan_text none).1]
    exact List.mem_cons_self
  exact Token.scanned_of_mem_scan hmem

end Lexeme

/-! ## Errors -/

def faultyItems (text : List Char) : List Item :=
  (items text).filter fun item => item.fault?.isSome

/-- An error is left behind by some pass over a file of that name.  It stands among the errors where
    the item stands among the faulty items of the source. -/
def LexicalError.FoundAt (e : LexicalError) (filename : String) (item : Item) : Prop :=
  ∃ (State Fault : Type) (receive : Receiver State Fault) (s : Scanner) (state : State) (k : Nat),
    s.filename = some filename ∧ (faultyItems s.source.toList)[k]? = some item ∧
      (s.tokenize receive state).2.scanner.errors.toList[k]? = some e

/-- An error is the fault of an item, in a file of that name. -/
def LexicalError.IsFaultOf (filename : Option String) (item : Item) (e : LexicalError) : Prop :=
  ∃ fault line, item.fault? = some fault ∧ e = fault.errorAt ⟨filename, line⟩

/-- Errors and faulty items go in step. -/
theorem forall₂_errorsFrom (filename : Option String) (line : Int) (found : List Item) :
    List.Forall₂ (LexicalError.IsFaultOf filename) (found.filter fun item => item.fault?.isSome)
      (errorsFrom filename line found) := by
  induction found generalizing line with
  | nil => exact .nil
  | cons item rest ih =>
    rw [errorsFrom_cons, Item.error?, List.filter_cons]
    cases hfault : item.fault? with
    | none => simpa using ih _
    | some fault =>
      rw [if_pos Option.isSome_some, Option.map_some, Option.toList_some, List.singleton_append]
      exact .cons ⟨fault, _, hfault, rfl⟩ (ih _)

/-- The errors of a pass, ended or broken off, go in step with the first faulty items. -/
theorem forall₂_errors {State Fault : Type} (receive : Receiver State Fault) (s : Scanner)
    (state : State) : ∃ faulty, faulty <+: faultyItems s.source.toList ∧
      List.Forall₂ (LexicalError.IsFaultOf s.filename) faulty
        (s.tokenize receive state).2.scanner.errors.toList := by
  obtain ⟨taken, htaken, -, -, herrors⟩ := s.tokenize_spec receive state
  rw [herrors]
  exact ⟨_, htaken.filter _, forall₂_errorsFrom s.filename 1 taken⟩

theorem exists_foundAt {State Fault : Type} {receive : Receiver State Fault} {s : Scanner}
    {state : State} {filename : String} {e : LexicalError} (hname : s.filename = some filename)
    (h : e ∈ (s.tokenize receive state).2.scanner.errors.toList) :
    ∃ item, e.FoundAt filename item := by
  obtain ⟨k, hk⟩ := List.mem_iff_getElem?.1 h
  obtain ⟨faulty, ⟨rest, hfaulty⟩, herrors⟩ := forall₂_errors receive s state
  -- A pass that was broken off has found a part of the faulty items only, but the first ones.
  have hlength := herrors.length_eq
  obtain ⟨hlt, -⟩ := List.getElem?_eq_some_iff.1 hk
  refine ⟨faulty[k], State, Fault, receive, s, state, k, hname, ?_, hk⟩
  rw [← hfaulty, List.getElem?_append_left (by omega), List.getElem?_eq_getElem]

namespace LexicalError.FoundAt

variable {e : LexicalError} {filename : String} {item : Item}

theorem isFaultOf (h : e.FoundAt filename item) : e.IsFaultOf (some filename) item := by
  obtain ⟨State, Fault, receive, s, state, k, hname, hitem, herror⟩ := h
  obtain ⟨faulty, ⟨rest, hfaulty⟩, herrors⟩ := forall₂_errors receive s state
  obtain ⟨hlength, hsame⟩ := List.forall₂_iff_get.1 herrors
  obtain ⟨hlt, rfl⟩ := List.getElem?_eq_some_iff.1 herror
  rw [← hfaulty, List.getElem?_append_left (by omega)] at hitem
  obtain ⟨hlt', rfl⟩ := List.getElem?_eq_some_iff.1 hitem
  rw [← hname]
  exact hsame k hlt' hlt

theorem shape (h : e.FoundAt filename item) : item.Shape := by
  obtain ⟨State, Fault, receive, s, state, k, -, hitem, -⟩ := h
  exact shape_of_mem_items item (List.mem_filter.1 (List.mem_of_getElem? hitem)).1

end LexicalError.FoundAt

/-- Every character that begins no item is found, in a file of any name. -/
theorem LexicalFault.foundAt_errorAt {c : Char} (h : CharRole.of c = .foreign) (filename : String) :
    ((unexpectedCharacter c).errorAt ⟨some filename, 1⟩).FoundAt filename ⟨.rejected c, [c]⟩ := by
  have hitems := items_text_append (.rejected h) (Item.extendedBy_nil ⟨.rejected c, [c]⟩)
  rw [List.append_nil, items_nil] at hitems
  obtain ⟨-, herrors⟩ := scan_spec (String.ofList [c]) (some filename)
  rw [String.toList_ofList, hitems] at herrors
  refine ⟨Unit, Empty, Receiver.silent, Scanner.new (String.ofList [c]) (some filename), (), 0, rfl,
    ?_, ?_⟩
  · show (faultyItems (String.ofList [c]).toList)[0]? = _
    rw [faultyItems, String.toList_ofList, hitems]
    rfl
  · show (scan (String.ofList [c]) (some filename)).errors.toList[0]? = _
    rw [herrors, errorsFrom_cons, Item.error?, countLines_rejected h]
    rfl

end LoxScan
