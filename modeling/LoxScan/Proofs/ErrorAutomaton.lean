import LoxScan.Proofs.Joining
import LoxScan.Proofs.Yield

/-! # Errors without lookahead

The errors of a source text can be found by reading it once, one character after the other, with
nothing to remember but the line and one of four modes.

* `FaultMode.errors` are the errors that such a reading finds.
* `FaultMode.errors_item`: reading an item finds the error that the item is, and leads back to
  where it began, as far as the text behind the item can tell.
* `errors_of_pass`: a pass finds the same errors.
-/

namespace LoxScan

/-- What the characters read so far say about the next one. -/
inductive FaultMode where
  | code
  /-- Behind a slash that may begin a comment. -/
  | slash
  | comment
  | string
deriving DecidableEq, Repr

namespace FaultMode

def next : FaultMode → Char → FaultMode
  | code, c => if c = '"' then string else if c = '/' then slash else code
  | slash, c => if c = '"' then string else if c = '/' then comment else code
  | comment, c => if c = '\n' then code else comment
  | string, c => if c = '"' then code else string

def fault? : FaultMode → Char → Option LexicalFault
  | code, c | slash, c => if isLoxChar c then none else some (.unexpectedCharacter c)
  | comment, _ | string, _ => none

def endFault? : FaultMode → Option LexicalFault
  | string => some .unterminatedString
  | code | slash | comment => none

/-- The errors found in a text that begins on a given line. -/
def errors (filename : Option String) : FaultMode → Int → List Char → List LexicalError
  | mode, line, [] => (mode.endFault?.map fun fault => fault.errorAt ⟨filename, line⟩).toList
  | mode, line, c :: rest =>
    ((mode.fault? c).map fun fault => fault.errorAt ⟨filename, line⟩).toList ++
      (mode.next c).errors filename (line + countLines [c]) rest

/-! ## Runs of characters -/

section Runs

variable {filename : Option String} {line : Int} {mode : FaultMode} {c : Char}
  {run rest : List Char}

/-- A character that changes nothing but perhaps the line. -/
def Keeps (mode : FaultMode) (c : Char) : Prop :=
  mode.next c = mode ∧ mode.fault? c = none

theorem keeps_string (h : c ≠ '"') : string.Keeps c :=
  ⟨if_neg h, rfl⟩

theorem keeps_comment (h : c ≠ '\n') : comment.Keeps c :=
  ⟨if_neg h, rfl⟩

theorem keeps_code (h : isLoxChar c = true) (hquote : c ≠ '"') (hslash : c ≠ '/') :
    code.Keeps c := by
  constructor
  · rw [next, if_neg hquote, if_neg hslash]
  · rw [fault?, if_pos h]

/-- A run of characters that change nothing is read over, and its lines are counted. -/
theorem errors_run_append (h : ∀ c ∈ run, mode.Keeps c) :
    mode.errors filename line (run ++ rest)
      = mode.errors filename (line + countLines run) rest := by
  induction run generalizing line with
  | nil => simp
  | cons c run ih =>
    obtain ⟨⟨hnext, hfault⟩, hrun⟩ := List.forall_mem_cons.1 h
    have hline : line + countLines [c] + countLines run = line + countLines (c :: run) := by
      rw [← List.singleton_append (l := run), countLines_append]
      omega
    rw [List.cons_append, errors, hnext, hfault, ih hrun, hline]
    rfl

/-- Behind a slash that begins no comment it does not matter that there was one. -/
theorem errors_slash_eq_code (h : rest.head?.any (· == '/') = false) :
    slash.errors filename line rest = code.errors filename line rest := by
  cases rest with
  | nil => rfl
  | cons c rest =>
    have hslash : c ≠ '/' := by simpa using h
    have hnext : slash.next c = code.next c := by simp [next, hslash]
    rw [errors, errors, hnext]
    rfl

/-- At the end of its line a comment is over. -/
theorem errors_comment_eq_code (h : rest.head?.any (· != '\n') = false) :
    comment.errors filename line rest = code.errors filename line rest := by
  cases rest with
  | nil => rfl
  | cons c rest =>
    obtain rfl : c = '\n' := by simpa using h
    rfl

end Runs

/-! ## Items -/

section Items

variable {filename : Option String} {line : Int} {kind : ItemKind} {text rest : List Char}

theorem keeps_of_role {c : Char} {role : CharRole} (h : CharRole.of c = role)
    (hrole : role ≠ .foreign ∧ role ≠ .quote ∧ role ≠ .slash) : code.Keeps c := by
  obtain ⟨hforeign, hquote, hslash⟩ := hrole
  subst h
  refine keeps_code (isLoxChar_iff.2 hforeign) ?_ ?_
  · rintro rfl
    exact hquote rfl
  · rintro rfl
    exact hslash rfl

theorem keeps_of_isWordPart {c : Char} (h : isWordPart c = true) : code.Keeps c := by
  rcases CharRole.isWordPart_iff.1 h with hrole | hrole
  all_goals exact keeps_of_role hrole (by simp)

theorem keeps_of_isDigit {c : Char} (h : c.isDigit = true) : code.Keeps c :=
  keeps_of_role (CharRole.of_digit h) (by simp)

theorem errors_slash (hrest : Item.extendedBy ⟨.token .slash, ['/']⟩ rest = false) :
    code.errors filename line ('/' :: rest) = code.errors filename line rest := by
  calc code.errors filename line ('/' :: rest)
      = slash.errors filename line rest := by simp [errors, fault?, next, isLoxChar, countLines]
    _ = code.errors filename line rest := errors_slash_eq_code hrest

theorem errors_comment {body : List Char} (h : '\n' ∉ body)
    (hrest : Item.extendedBy ⟨.comment, '/' :: '/' :: body⟩ rest = false) :
    code.errors filename line ('/' :: '/' :: (body ++ rest))
      = code.errors filename (line + countLines body) rest := by
  have hkeeps : ∀ c ∈ body, comment.Keeps c := by
    intro c hc
    apply keeps_comment
    rintro rfl
    exact h hc
  calc code.errors filename line ('/' :: '/' :: (body ++ rest))
      = comment.errors filename line (body ++ rest) := by
        simp [errors, fault?, next, isLoxChar, countLines]
    _ = comment.errors filename (line + countLines body) rest := errors_run_append hkeeps
    _ = code.errors filename (line + countLines body) rest := errors_comment_eq_code hrest

/-- From a quote on, the text is read over up to the next quote. -/
theorem errors_quote {body : List Char} (h : '"' ∉ body) :
    code.errors filename line ('"' :: (body ++ rest))
      = string.errors filename (line + countLines body) rest := by
  have hkeeps : ∀ c ∈ body, string.Keeps c := by
    intro c hc
    apply keeps_string
    rintro rfl
    exact h hc
  calc code.errors filename line ('"' :: (body ++ rest))
      = string.errors filename line (body ++ rest) := by
        simp [errors, fault?, next, isLoxChar, countLines]
    _ = string.errors filename (line + countLines body) rest := errors_run_append hkeeps

theorem errors_string {body : List Char} (h : '"' ∉ body) :
    code.errors filename line ('"' :: (body ++ ['"'] ++ rest))
      = code.errors filename (line + countLines body) rest := by
  calc code.errors filename line ('"' :: (body ++ ['"'] ++ rest))
      = string.errors filename (line + countLines body) ('"' :: rest) := by
        rw [List.append_assoc, errors_quote h, List.singleton_append]
    _ = code.errors filename (line + countLines body) rest := by
        simp [errors, fault?, next, countLines]

theorem errors_form (h : ItemForm kind text) (hrest : Item.extendedBy ⟨kind, text⟩ rest = false) :
    code.errors filename line (text ++ rest)
      = code.errors filename (line + countLines text) rest := by
  cases h with
  | @comment body h =>
    have hlines : countLines ('/' :: '/' :: body) = countLines body := by simp [countLines]
    rw [hlines]
    exact errors_comment h hrest
  | slash =>
    have hlines : countLines ['/'] = 0 := rfl
    rw [hlines, Int.natCast_zero, Int.add_zero]
    exact errors_slash hrest
  | @string body h =>
    have hlines : countLines ('"' :: (body ++ ['"'])) = countLines body := by simp [countLines]
    rw [hlines]
    exact errors_string h
  | blank h =>
    exact errors_run_append (List.forall_mem_singleton.2
      (keeps_of_role (CharRole.of_blank h) (by simp)))
  | lineFeed => exact errors_run_append (List.forall_mem_singleton.2 ⟨rfl, rfl⟩)
  | symbol h =>
    exact errors_run_append (List.forall_mem_singleton.2
      (keeps_of_role (CharRole.of_symbol h) (by simp)))
  | alone h =>
    exact errors_run_append (List.forall_mem_singleton.2
      (keeps_of_role (CharRole.of_comparison h) (by simp)))
  | pair h =>
    have hequal : code.Keeps '=' := ⟨rfl, rfl⟩
    exact errors_run_append (List.forall_mem_cons.2
      ⟨keeps_of_role (CharRole.of_comparison h) (by simp), List.forall_mem_singleton.2 hequal⟩)
  | whole hd hdigits =>
    exact errors_run_append (List.forall_mem_cons.2
      ⟨keeps_of_isDigit hd, fun c hc => keeps_of_isDigit (hdigits c hc)⟩)
  | fraction hd hdigits he hpart =>
    have hdot : code.Keeps '.' := ⟨rfl, rfl⟩
    refine errors_run_append ?_
    simp only [List.forall_mem_cons, List.forall_mem_append]
    exact ⟨keeps_of_isDigit hd, fun c hc => keeps_of_isDigit (hdigits c hc), hdot,
      keeps_of_isDigit he, fun c hc => keeps_of_isDigit (hpart c hc)⟩
  | word hc hword =>
    exact errors_run_append (List.forall_mem_cons.2
      ⟨keeps_of_isWordPart (CharRole.isWordPart_of_isWordStart hc),
        fun c hc => keeps_of_isWordPart (hword c hc)⟩)

/-- Reading an item finds the error that it is. -/
theorem errors_item {item : Item} (hshape : item.Shape) (hrest : item.extendedBy rest = false) :
    code.errors filename line (item.text ++ rest) =
      (item.error? filename line).toList ++
        code.errors filename (line + countLines item.text) rest := by
  cases hshape with
  | form h =>
    rw [Item.error?, h.fault?_eq_none]
    exact errors_form h hrest
  | @unclosed body h =>
    obtain rfl := Item.eq_nil_of_unclosed hrest
    have hlines : countLines ('"' :: body) = countLines body := by simp [countLines]
    rw [hlines, List.cons_append, errors_quote h, Item.error?, hlines]
    rfl
  | @rejected c h =>
    have hlox := CharRole.eq_foreign_iff.1 h
    have hquote : c ≠ '"' := by
      rintro rfl
      cases hlox
    have hslash : c ≠ '/' := by
      rintro rfl
      cases hlox
    have hlines := countLines_rejected h
    simp [errors, fault?, next, hlox, hquote, hslash, hlines, Item.error?, Item.fault?]

theorem errors_joined {found : List Item} (h : Fits [] found) :
    code.errors filename line (joined found) = errorsFrom filename line found := by
  induction found generalizing line with
  | nil => rfl
  | cons item found ih =>
    obtain ⟨hshape, hrest, hfound⟩ := fits_cons_iff.1 h
    rw [List.append_nil] at hrest
    rw [joined_cons, errors_item hshape hrest, ih hfound, errorsFrom_cons]

end Items

/-! ## The last error -/

theorem eq_of_fault? {mode : FaultMode} {c : Char} {fault : LexicalFault}
    (h : mode.fault? c = some fault) : fault = .unexpectedCharacter c := by
  unfold fault? at h
  split at h
  · simpa using (Option.ite_none_left_eq_some.1 h).2.symm
  · simpa using (Option.ite_none_left_eq_some.1 h).2.symm
  · cases h
  · cases h

theorem code_ne_of_mem_dropLast (filename : Option String) (mode : FaultMode) (line : Int)
    (text : List Char) : ∀ error ∈ (mode.errors filename line text).dropLast,
      error.diagnostic.code ≠ some "L002" := by
  induction text generalizing mode line with
  | nil =>
    rw [errors]
    cases mode.endFault? <;> simp
  | cons c rest ih =>
    have hrest := ih (mode.next c) (line + countLines [c])
    rw [errors]
    cases hfault : mode.fault? c with
    | none => exact hrest
    | some fault =>
      obtain rfl := eq_of_fault? hfault
      rw [Option.map_some, Option.toList_some, List.singleton_append]
      -- Nothing is last before another error, and an unexpected character has its own code.
      cases hlast : (mode.next c).errors filename (line + countLines [c]) rest with
      | nil => simp
      | cons other after =>
        rw [hlast] at hrest
        rw [List.dropLast_cons_cons, List.forall_mem_cons]
        exact ⟨by simp [LexicalFault.code], hrest⟩

end FaultMode

/-! ## Passes -/

/-- A pass finds the errors that reading one character after the other finds.  A string that is
    not closed is the last of them. -/
theorem errors_of_pass {State Fault : Type} {receive : Receiver State Fault}
    (haccepts : receive.Accepts) (s : Scanner) (state : State) :
    let result := s.tokenize receive state
    let errors := FaultMode.code.errors s.filename 1 s.source.toList
    result.1 = .ok () ∧ result.2.scanner.errors.toList = errors ∧
      result.2.scanner.hasErrors = !errors.isEmpty ∧
      ∀ error ∈ errors.dropLast, error.diagnostic.code ≠ some "L002" := by
  intro result errors
  have hended := s.tokenize_fst_of_accepts haccepts state
  obtain ⟨taken, -, hall, -, hfound⟩ := s.tokenize_spec receive state
  obtain rfl := hall hended
  have herrors : result.2.scanner.errors.toList = errors := by
    calc result.2.scanner.errors.toList
        = errorsFrom s.filename 1 (items s.source.toList) := hfound
      _ = FaultMode.code.errors s.filename 1 (joined (items s.source.toList)) :=
          (FaultMode.errors_joined (fits_items _)).symm
      _ = errors := by rw [joined_items]
  refine ⟨hended, herrors, ?_, FaultMode.code_ne_of_mem_dropLast _ _ _ _⟩
  rw [← herrors, Scanner.hasErrors]
  simp

/-- A slash before a rejected character, a comment with a quote in it, and a string with slashes
    that is not closed. -/
theorem errors_of_pass_slashes :
    let s := Scanner.new "/@ // \"\n\"//" none
    let result := s.tokenize Receiver.silent ()
    let errors := FaultMode.code.errors none 1 s.source.toList
    Receiver.silent.Accepts ∧ result.1 = .ok () ∧ result.2.scanner.errors.toList = errors ∧
      result.2.scanner.hasErrors = !errors.isEmpty ∧
      (∀ error ∈ errors.dropLast, error.diagnostic.code ≠ some "L002") ∧
      errors = [LexicalFault.errorAt (.unexpectedCharacter '@') ⟨none, 1⟩,
        LexicalFault.errorAt .unterminatedString ⟨none, 2⟩] := by
  intro s result errors
  obtain ⟨hended, herrors, hhas, hlast⟩ := errors_of_pass Receiver.accepts_silent s ()
  exact ⟨Receiver.accepts_silent, hended, herrors, hhas, hlast, by decide⟩

end LoxScan
