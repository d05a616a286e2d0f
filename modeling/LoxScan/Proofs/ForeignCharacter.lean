import LoxScan.Proofs.Rewriting

/-! # Foreign characters

Characters that the language is not written in are all alike.  No matter which of them stand in a
text, it is cut into the same items.

* `RenamesForeign` are the functions that put foreign characters in place of foreign characters.
* `items_map`: the items of a renamed text are those of the old one, renamed.
* `tokenize_map`: the tokens are renamed, and the errors are found for the new characters.
-/

namespace LoxScan

/-- Foreign characters may become other foreign characters, and all others stay. -/
structure RenamesForeign (f : Char → Char) : Prop where
  foreign : ∀ c, isLoxChar c = false → isLoxChar (f c) = false
  fixed : ∀ c, isLoxChar c = true → f c = c

def LexicalFault.rename (f : Char → Char) : LexicalFault → LexicalFault
  | unexpectedCharacter c => unexpectedCharacter (f c)
  | unterminatedString => unterminatedString

@[simp] theorem LexicalFault.code_rename (f : Char → Char) (fault : LexicalFault) :
    (fault.rename f).code = fault.code := by
  cases fault <;> rfl

@[simp] theorem LexicalFault.message_rename (f : Char → Char) (fault : LexicalFault) :
    (fault.rename f).message = fault.message := by
  cases fault <;> rfl

def ItemKind.rename (f : Char → Char) : ItemKind → ItemKind
  | rejected c => rejected (f c)
  | kind => kind

def Item.rename (f : Char → Char) (item : Item) : Item :=
  ⟨item.kind.rename f, item.text.map f⟩

theorem Item.fault?_rename (f : Char → Char) (item : Item) :
    (item.rename f).fault? = item.fault?.map (LexicalFault.rename f) := by
  obtain ⟨kind, text⟩ := item
  cases kind <;> rfl

theorem joined_map_rename (f : Char → Char) (found : List Item) :
    joined (found.map (Item.rename f)) = (joined found).map f := by
  induction found with
  | nil => rfl
  | cons item rest ih =>
    rw [List.map_cons, joined_cons, ih, joined_cons, List.map_append]
    rfl

namespace RenamesForeign

variable {f : Char → Char} (h : RenamesForeign f)

include h

/-! ## Characters -/

theorem role_eq (c : Char) : CharRole.of (f c) = CharRole.of c := by
  cases hc : isLoxChar c with
  | true => rw [h.fixed c hc]
  | false => rw [CharRole.eq_foreign_iff.2 hc, CharRole.eq_foreign_iff.2 (h.foreign c hc)]

/-- Nothing becomes a character of the language, or is one no more. -/
theorem eq_iff {c d : Char} (hd : isLoxChar d = true) : f c = d ↔ c = d := by
  cases hc : isLoxChar c with
  | true => rw [h.fixed c hc]
  | false =>
    have hforeign := h.foreign c hc
    constructor
    all_goals
      rintro rfl
      simp_all

theorem mem_map_iff {d : Char} (hd : isLoxChar d = true) (text : List Char) :
    d ∈ text.map f ↔ d ∈ text := by
  simp [List.mem_map, h.eq_iff hd]

theorem countLines_map (text : List Char) : countLines (text.map f) = countLines text := by
  have hline (c : Char) : (f c == '\n') = (c == '\n') := by
    rw [Bool.eq_iff_iff, beq_iff_eq, beq_iff_eq, h.eq_iff rfl]
  simp [countLines, List.count, List.countP_map, Function.comp_def, hline]

theorem countLines_rename (item : Item) :
    countLines (item.rename f).text = countLines item.text :=
  h.countLines_map item.text

theorem map_eq_self {text : List Char} (htext : ∀ c ∈ text, CharRole.of c ≠ .foreign) :
    text.map f = text := by
  conv => rhs; rw [← List.map_id text]
  exact List.map_congr_left fun c hc => h.fixed c (isLoxChar_iff.2 (htext c hc))

/-! ## Items -/

theorem form_map {kind : ItemKind} {text : List Char} (hform : ItemForm kind text) :
    ItemForm kind (text.map f) := by
  by_cases hcomment : kind = .comment
  · subst hcomment
    cases hform with
    | @comment body hbody =>
      rw [List.map_cons, List.map_cons, h.fixed '/' rfl]
      exact .comment (mt (h.mem_map_iff rfl body).1 hbody)
  by_cases hstring : kind = .token .string
  · subst hstring
    obtain ⟨body, hbody, rfl⟩ := hform.exists_body
    rw [List.map_cons, List.map_append, List.map_singleton, h.fixed '"' rfl]
    exact .string (mt (h.mem_map_iff rfl body).1 hbody)
  rw [h.map_eq_self fun c hc => (hform.role_of_mem hcomment hstring hc).1]
  exact hform

theorem shape_rename {item : Item} (hshape : item.Shape) : (item.rename f).Shape := by
  cases hshape with
  | @form kind text hform =>
    have hkind : kind.rename f = kind := by
      cases hform <;> rfl
    rw [Item.rename, hkind]
    exact .form (h.form_map hform)
  | @unclosed body hbody =>
    rw [Item.rename, List.map_cons, h.fixed '"' rfl]
    exact .unclosed (mt (h.mem_map_iff rfl body).1 hbody)
  | @rejected c hc => exact .rejected ((h.role_eq c).trans hc)

/-- The text behind an item extends it just as the renamed text extends the renamed item. -/
theorem extendedBy_rename (item : Item) (rest : List Char) :
    (item.rename f).extendedBy (rest.map f) = item.extendedBy rest := by
  have hroles (next : Option Char) : (next.map f).map CharRole.of = next.map CharRole.of := by
    rw [Option.map_map]
    exact Option.map_congr fun c _ => h.role_eq c
  obtain ⟨kind, text⟩ := item
  cases kind with
  | rejected c => rfl
  | blank | lineFeed | comment | unclosed | token =>
    apply Item.extendedBy_congr_roles (h.mem_map_iff rfl text)
    · rw [List.head?_map, hroles]
    · rw [List.getElem?_map, hroles]

theorem fits_rename {found : List Item} (hfits : Fits [] found) :
    Fits [] (found.map (Item.rename f)) := by
  induction hfits with
  | nil => exact .nil
  | cons hshape hrest _ ih =>
    refine .cons (h.shape_rename hshape) ?_ ih
    rw [List.append_nil] at hrest ⊢
    rw [joined_map_rename, h.extendedBy_rename, hrest]

theorem items_map (text : List Char) : items (text.map f) = (items text).map (Item.rename f) := by
  have hjoined := joined_map_rename f (items text)
  rw [joined_items] at hjoined
  rw [← hjoined, items_joined_iff]
  exact h.fits_rename (fits_items text)

/-! ## Tokens -/

theorem token?_rename {item : Item} (hshape : item.Shape) (line : Int) :
    (item.rename f).token? line = (item.token? line).map (Token.rewrite (List.map f)) := by
  cases hshape with
  | unclosed | rejected => rfl
  | @form kind text hform =>
    rcases hform.trivia_or_token with htrivia | ⟨kind, rfl⟩
    · rcases htrivia with rfl | rfl | rfl <;> rfl
    · refine Item.token?_rewrite hform (fun body htext => ?_) (fun hkind => ?_) line
      · rw [htext, List.map_cons, List.map_append, List.map_singleton, h.fixed '"' rfl]
      · have hstring : ItemKind.token kind ≠ .token .string := by simpa using hkind
        exact h.map_eq_self fun c hc => (hform.role_of_mem (by simp) hstring hc).1

theorem tokensToEnd_map (line : Int) (text : List Char) :
    tokensToEnd line (text.map f) = (tokensToEnd line text).map (Token.rewrite (List.map f)) := by
  have hitems : items (text.map f) = (items text).flatMap fun item => [item.rename f] := by
    rw [h.items_map, List.map_eq_flatMap]
  refine tokensToEnd_rewrite hitems rfl (fun item _ => ?_) (fun item hitem line => ?_) line
  · simpa [countItemLines] using h.countLines_rename item
  · rw [tokensFrom_cons, h.token?_rename (shape_of_mem_items item hitem)]
    exact List.append_nil _

end RenamesForeign

/-! ## Faults -/

def faultsFrom (line : Int) (found : List Item) : List (LexicalFault × Int) :=
  gatherFrom (fun item line => item.fault?.map fun fault => (fault, line + countLines item.text))
    line found

theorem errorsFrom_eq_map_faultsFrom (filename : Option String) (line : Int) (found : List Item) :
    errorsFrom filename line found
      = (faultsFrom line found).map fun q => q.1.errorAt ⟨filename, q.2⟩ := by
  conv => lhs; rw [← List.map_id found]
  refine gatherFrom_map (fun _ _ => rfl) (fun item _ line => ?_) line
  rw [Option.map_map]
  rfl

theorem RenamesForeign.faultsFrom_map {f : Char → Char} (h : RenamesForeign f) (line : Int)
    (text : List Char) : faultsFrom line (items (text.map f))
      = (faultsFrom line (items text)).map fun q => (q.1.rename f, q.2) := by
  rw [h.items_map]
  refine gatherFrom_map (fun item _ => h.countLines_rename item) (fun item _ line => ?_) line
  rw [Item.fault?_rename, h.countLines_rename, Option.map_map, Option.map_map]
  rfl

/-! ## Passes -/

/-- Foreign characters may be exchanged for each other, in code, in comments and in strings.  The
    tokens stay as they are but for these characters in their texts, and each error is found again
    on its line, for the new character. -/
theorem tokenize_map {State Fault State' Fault' : Type} {receive : Receiver State Fault}
    {receive' : Receiver State' Fault'} (haccepts : receive.Accepts) (haccepts' : receive'.Accepts)
    {f : Char → Char} (hf : RenamesForeign f) (s : Scanner) (state : State) (state' : State') :
    let result := s.tokenize receive state
    let renamed : Scanner := { s with source := s.source.map f }
    let other := renamed.tokenize receive' state'
    let found := faultsFrom 1 (items s.source.toList)
    result.1 = .ok () ∧ other.1 = .ok () ∧
      other.2.scanner.tokens.toList
        = result.2.scanner.tokens.toList.map (Token.rewrite (List.map f)) ∧
      result.2.scanner.errors.toList = found.map (fun q => q.1.errorAt ⟨s.filename, q.2⟩) ∧
      other.2.scanner.errors.toList
        = found.map (fun q => (q.1.rename f).errorAt ⟨s.filename, q.2⟩) ∧
      other.2.scanner.errors.toList.map (fun e => (e.diagnostic.code, e.line, e.message))
        = result.2.scanner.errors.toList.map (fun e => (e.diagnostic.code, e.line, e.message)) := by
  intro result renamed other found
  have hsource : renamed.source.toList = s.source.toList.map f := String.toList_map
  obtain ⟨hended, htokens, herrors⟩ := s.tokenize_spec_of_accepts haccepts state
  obtain ⟨hother, htokens', herrors'⟩ := renamed.tokenize_spec_of_accepts haccepts' state'
  rw [hsource] at htokens' herrors'
  rw [errorsFrom_eq_map_faultsFrom] at herrors herrors'
  rw [hf.faultsFrom_map, List.map_map] at herrors'
  refine ⟨hended, hother, ?_, herrors, herrors', ?_⟩
  · rw [htokens, htokens', hf.tokensToEnd_map]
  · rw [herrors, herrors', List.map_map, List.map_map]
    simp [Function.comp_def]

/-- A null character and a line separator come into code, a string and a comment. -/
theorem tokenize_map_separators :
    let f : Char → Char := fun c => if c = '@' then '\x00' else if c = 'é' then '\u2028' else c
    let s := Scanner.new "1.é@5 \"@é\" //é@\n#\"é" none
    let result := s.tokenize Receiver.silent ()
    let renamed : Scanner := { s with source := s.source.map f }
    let other := renamed.tokenize Receiver.silent ()
    Receiver.silent.Accepts ∧ RenamesForeign f ∧
      renamed.source = "1.\u2028\x005 \"\x00\u2028\" //\u2028\x00\n#\"\u2028" ∧
      other.2.scanner.tokens.toList
        = result.2.scanner.tokens.toList.map (Token.rewrite (List.map f)) ∧
      other.2.scanner.errors.toList = [
        LexicalFault.errorAt (.unexpectedCharacter '\u2028') ⟨none, 1⟩,
        LexicalFault.errorAt (.unexpectedCharacter '\x00') ⟨none, 1⟩,
        LexicalFault.errorAt (.unexpectedCharacter '#') ⟨none, 2⟩,
        LexicalFault.errorAt .unterminatedString ⟨none, 2⟩] := by
  intro f s result renamed other
  have hf : RenamesForeign f := by
    constructor
    · intro c hc
      by_cases hat : c = '@'
      · simp only [f, if_pos hat]
        decide
      by_cases hacute : c = 'é'
      · simp only [f, if_neg hat, if_pos hacute]
        decide
      · simpa only [f, if_neg hat, if_neg hacute] using hc
    · intro c hc
      have hat : c ≠ '@' := by
        rintro rfl
        cases hc
      have hacute : c ≠ 'é' := by
        rintro rfl
        cases hc
      simp only [f, if_neg hat, if_neg hacute]
  obtain ⟨-, -, htokens, -, herrors, -⟩ :=
    tokenize_map Receiver.accepts_silent Receiver.accepts_silent hf s () ()
  have hfaults : faultsFrom 1 (items s.source.toList) = [(.unexpectedCharacter 'é', 1),
      (.unexpectedCharacter '@', 1), (.unexpectedCharacter '#', 2), (.unterminatedString, 2)] := by
    decide +kernel
  rw [hfaults] at herrors
  exact ⟨Receiver.accepts_silent, hf, by decide +kernel, htokens, herrors⟩

end LoxScan
