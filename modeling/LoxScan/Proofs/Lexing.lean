import LoxScan.Proofs.Joining
import LoxScan.Proofs.LongestMatch
import LoxScan.Proofs.Yield

/-! # Scanning is longest match lexing

`Lexes` describes, item by item, the tokens and errors that a text should give.  A pass with a
receiver that lets every report through finds the tokens and errors that `Lexes` allows for the
longest match cut of the source, and `Lexes` allows no others (`tokenize_iff_lexes`).
-/

namespace LoxScan

/-! ## The description -/

/-- The value of a token: the text between the quotes of a string, the number nearest to a
    numeral, and none for all other tokens. -/
inductive LiteralOf : TokenKind → List Char → Option Literal → Prop
  | string (body : List Char) :
      LiteralOf .string ('"' :: (body ++ ['"'])) (some (.text (String.ofList body)))
  | number (text : List Char) :
      LiteralOf .number text (some (.number (.signed false (Decimal.ofNumeral text).nearest)))
  | absent {kind : TokenKind} (text : List Char) (hstring : kind ≠ .string)
      (hnumber : kind ≠ .number) : LiteralOf kind text none

/-- The tokens, with the mark of the end, and the errors of some items that begin on a given
    line. -/
inductive Lexes (filename : Option String) :
    Int → List Item → List Token → List LexicalError → Prop
  | done {line : Int} : Lexes filename line [] [Token.endOfInput line] []
  | trivia {line : Int} {kind : ItemKind} {text : List Char} {found : List Item}
      {tokens : List Token} {errors : List LexicalError}
      (hkind : kind = .blank ∨ kind = .lineFeed ∨ kind = .comment)
      (hrest : Lexes filename (line + countLines text) found tokens errors) :
      Lexes filename line (⟨kind, text⟩ :: found) tokens errors
  | token {line : Int} {kind : TokenKind} {text : List Char} {literal : Option Literal}
      {found : List Item} {tokens : List Token} {errors : List LexicalError}
      (hliteral : LiteralOf kind text literal)
      (hrest : Lexes filename (line + countLines text) found tokens errors) :
      Lexes filename line (⟨.token kind, text⟩ :: found)
        (⟨kind, String.ofList text, literal, line⟩ :: tokens) errors
  | rejected {line : Int} {c : Char} {found : List Item} {tokens : List Token}
      {errors : List LexicalError} (hrest : Lexes filename line found tokens errors) :
      Lexes filename line (⟨.rejected c, [c]⟩ :: found) tokens
        (LexicalFault.errorAt (.unexpectedCharacter c) ⟨filename, line⟩ :: errors)
  | unclosed {line : Int} {text : List Char} {found : List Item} {tokens : List Token}
      {errors : List LexicalError}
      (hrest : Lexes filename (line + countLines text) found tokens errors) :
      Lexes filename line (⟨.unclosed, text⟩ :: found) tokens
        (LexicalFault.errorAt .unterminatedString ⟨filename, line + countLines text⟩ :: errors)

/-! ## Values of tokens -/

theorem ItemForm.exists_body {text : List Char} (h : ItemForm (.token .string) text) :
    ∃ body, '"' ∉ body ∧ text = '"' :: (body ++ ['"']) := by
  generalize hkind : ItemKind.token .string = kind at h
  cases h with
  | string hbody => exact ⟨_, hbody, rfl⟩
  | symbol h =>
    cases hkind
    unfold TokenKind.ofSymbol? at h
    split at h <;> cases h
  | alone h | pair h =>
    cases hkind
    unfold TokenKind.comparison? at h
    split at h <;> cases h
  | @word c rest =>
    simp only [ItemKind.token.injEq, TokenKind.ofWord] at hkind
    split at hkind <;> cases hkind
  | _ => cases hkind

theorem literalOf_iff {kind : TokenKind} {text : List Char} {literal : Option Literal}
    (hform : ItemForm (.token kind) text) :
    LiteralOf kind text literal ↔ literal = Item.literal? ⟨.token kind, text⟩ := by
  constructor
  · intro h
    cases h with
    | string body => simp [Item.literal?]
    | number => rfl
    | absent _ hstring hnumber =>
      rw [Item.literal?]
      split <;> simp_all
  · rintro rfl
    by_cases hstring : kind = .string
    · subst hstring
      obtain ⟨body, -, rfl⟩ := hform.exists_body
      simpa [Item.literal?] using LiteralOf.string body
    · by_cases hnumber : kind = .number
      · subst hnumber
        exact .number text
      · have hnone : Item.literal? ⟨.token kind, text⟩ = none := by
          rw [Item.literal?]
          split <;> simp_all
        rw [hnone]
        exact .absent text hstring hnumber

/-! ## Items and their results -/

theorem ItemForm.trivia_or_token {kind : ItemKind} {text : List Char} (h : ItemForm kind text) :
    (kind = .blank ∨ kind = .lineFeed ∨ kind = .comment) ∨ ∃ token, kind = .token token := by
  cases h <;> simp

section Lexes

variable {filename : Option String} {line : Int} {found : List Item} {tokens : List Token}
  {errors : List LexicalError}

theorem lexes_trivia_iff {kind : ItemKind} {text : List Char}
    (hkind : kind = .blank ∨ kind = .lineFeed ∨ kind = .comment) :
    Lexes filename line (⟨kind, text⟩ :: found) tokens errors ↔
      Lexes filename (line + countLines text) found tokens errors := by
  constructor
  · intro h
    cases h with
    | trivia _ hrest => exact hrest
    | token | rejected | unclosed => simp at hkind
  · exact .trivia hkind

theorem lexes_token_iff {kind : TokenKind} {text : List Char} (hform : ItemForm (.token kind) text) :
    Lexes filename line (⟨.token kind, text⟩ :: found) tokens errors ↔
      ∃ after, tokens =
          ⟨kind, String.ofList text, Item.literal? ⟨.token kind, text⟩, line⟩ :: after ∧
        Lexes filename (line + countLines text) found after errors := by
  constructor
  · intro h
    cases h with
    | trivia hkind _ => simp at hkind
    | @token _ _ _ _ _ after _ hliteral hrest =>
      rw [(literalOf_iff hform).1 hliteral]
      exact ⟨after, rfl, hrest⟩
  · rintro ⟨after, rfl, hrest⟩
    exact .token ((literalOf_iff hform).2 rfl) hrest

theorem lexes_rejected_iff {c : Char} :
    Lexes filename line (⟨.rejected c, [c]⟩ :: found) tokens errors ↔
      ∃ after, errors = LexicalFault.errorAt (.unexpectedCharacter c) ⟨filename, line⟩ :: after ∧
        Lexes filename line found tokens after := by
  constructor
  · intro h
    cases h with
    | trivia hkind _ => simp at hkind
    | @rejected _ _ _ _ after hrest => exact ⟨after, rfl, hrest⟩
  · rintro ⟨after, rfl, hrest⟩
    exact .rejected hrest

theorem lexes_unclosed_iff {text : List Char} :
    Lexes filename line (⟨.unclosed, text⟩ :: found) tokens errors ↔
      ∃ after, errors =
          LexicalFault.errorAt .unterminatedString ⟨filename, line + countLines text⟩ :: after ∧
        Lexes filename (line + countLines text) found tokens after := by
  constructor
  · intro h
    cases h with
    | trivia hkind _ => simp at hkind
    | @unclosed _ _ _ _ after hrest => exact ⟨after, rfl, hrest⟩
  · rintro ⟨after, rfl, hrest⟩
    exact .unclosed hrest

/-- The description fixes the tokens and errors of items that can stand in a text. -/
theorem lexes_iff (hshape : ∀ item ∈ found, item.Shape) :
    Lexes filename line found tokens errors ↔
      tokens = tokensFrom line found ++ [Token.endOfInput (line + countItemLines found)] ∧
        errors = errorsFrom filename line found := by
  induction found generalizing line tokens errors with
  | nil =>
    constructor
    · intro h
      cases h
      simp [tokensFrom, errorsFrom, gatherFrom, countItemLines]
    · rintro ⟨rfl, rfl⟩
      simpa [tokensFrom, errorsFrom, gatherFrom, countItemLines] using Lexes.done
  | cons item rest ih =>
    obtain ⟨hitem, hrest⟩ := List.forall_mem_cons.1 hshape
    have hlines : line + countItemLines (item :: rest)
        = line + countLines item.text + countItemLines rest := by
      rw [countItemLines_cons]
      omega
    rw [hlines, tokensFrom, errorsFrom, gatherFrom, gatherFrom, List.append_assoc]
    cases hitem with
    | @form kind text hform =>
      obtain hkind | ⟨token, rfl⟩ := hform.trivia_or_token
      · rw [lexes_trivia_iff hkind, ih hrest]
        obtain rfl | rfl | rfl := hkind <;> rfl
      · simp only [lexes_token_iff hform, ih hrest]
        constructor
        · rintro ⟨after, rfl, rfl, rfl⟩
          exact ⟨rfl, rfl⟩
        · rintro ⟨rfl, rfl⟩
          exact ⟨_, rfl, rfl, rfl⟩
    | unclosed h =>
      simp only [lexes_unclosed_iff, ih hrest]
      constructor
      · rintro ⟨after, rfl, rfl, rfl⟩
        exact ⟨rfl, rfl⟩
      · rintro ⟨rfl, rfl⟩
        exact ⟨_, rfl, rfl, rfl⟩
    | @rejected c h =>
      have hc : line + countLines [c] = line := by
        rw [countLines_rejected h, Int.natCast_zero, Int.add_zero]
      simp only [lexes_rejected_iff, ih hrest, hc, Item.error?, Item.fault?, Option.map_some]
      constructor
      · rintro ⟨after, rfl, rfl, rfl⟩
        exact ⟨rfl, rfl⟩
      · rintro ⟨rfl, rfl⟩
        exact ⟨_, rfl, rfl, rfl⟩

end Lexes

/-! ## Passes -/

/-- A pass finds exactly the tokens and errors of the longest match cut of its source. -/
theorem tokenize_iff_lexes {State Fault : Type} {receive : Receiver State Fault}
    (haccepts : receive.Accepts) (s : Scanner) (state : State) :
    ∃ found, LongestMatchCut s.source.toList found ∧
      (∀ other, LongestMatchCut s.source.toList other → other = found) ∧
      (found.map Item.text).flatten = s.source.toList ∧
      ∃ p, s.tokenize receive state = (.ok (), p) ∧
        ∀ tokens errors, Lexes s.filename 1 found tokens errors ↔
          tokens = p.scanner.tokens.toList ∧ errors = p.scanner.errors.toList := by
  obtain ⟨taken, -, hall, htokens, herrors⟩ := s.tokenize_spec receive state
  have hended := s.tokenize_fst_of_accepts haccepts state
  obtain rfl := hall hended
  refine ⟨items s.source.toList, longestMatchCut_iff.2 rfl, fun _ => longestMatchCut_iff.1,
    flatten_items _, (s.tokenize receive state).2, Prod.ext hended rfl, fun tokens errors => ?_⟩
  rw [lexes_iff shape_of_mem_items, htokens, herrors, hended, countItemLines_items]
  rfl

/-- A number with a dot behind it, a rejected character and a string that is not closed. -/
theorem tokenize_iff_lexes_silent :
    let s := Scanner.new "1.@\n\"" none
    Receiver.silent.Accepts ∧ ∃ found, LongestMatchCut s.source.toList found ∧
      ∃ p, s.tokenize Receiver.silent () = (.ok (), p) ∧
        Lexes s.filename 1 found p.scanner.tokens.toList p.scanner.errors.toList := by
  intro s
  obtain ⟨found, hcut, -, -, p, hp, hlexes⟩ := tokenize_iff_lexes Receiver.accepts_silent s ()
  exact ⟨Receiver.accepts_silent, found, hcut, p, hp, (hlexes _ _).2 ⟨rfl, rfl⟩⟩

end LoxScan
