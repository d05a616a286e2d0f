import LoxScan.Proofs.Pass

/-! # What a pass finds

The tokens and errors of a pass depend on nothing but the items that it takes, the line that they
begin on and the file name.

* `tokensFrom` and `errorsFrom` are the tokens and errors of some items.
* `tokenize_spec` is what any pass leaves behind.
* `adds_of_reaches` is what a pass adds that goes on from between two turns.
-/

namespace LoxScan

/-- What items give one after the other, each of them knowing the line that it begins on. -/
def gatherFrom {α : Type} (give : Item → Int → Option α) (line : Int) : List Item → List α
  | [] => []
  | item :: rest => (give item line).toList ++ gatherFrom give (line + countLines item.text) rest

def tokensFrom (line : Int) (found : List Item) : List Token :=
  gatherFrom Item.token? line found

def errorsFrom (filename : Option String) (line : Int) (found : List Item) : List LexicalError :=
  gatherFrom (fun item line => item.error? filename line) line found

/-- The mark of the end of the source, for a pass that has ended. -/
def endMark {Fault : Type} (line : Int) : Except Fault Unit → List Token
  | .ok () => [Token.endOfInput line]
  | .error _ => []

theorem endMark_sublist {Fault : Type} (line : Int) (result : Except Fault Unit) :
    (endMark line result).Sublist [Token.endOfInput line] := by
  cases result with
  | error fault => exact List.nil_sublist _
  | ok => exact List.Sublist.refl _

def tokensToEnd (line : Int) (text : List Char) : List Token :=
  tokensFrom line (items text) ++ [Token.endOfInput (line + countLines text)]

def countItemLines (found : List Item) : Nat :=
  countLines (found.map Item.text).flatten

@[simp] theorem countItemLines_cons (item : Item) (rest : List Item) :
    countItemLines (item :: rest) = countLines item.text + countItemLines rest := by
  simp [countItemLines]

@[simp] theorem countItemLines_items (text : List Char) :
    countItemLines (items text) = countLines text := by
  rw [countItemLines, flatten_items]

theorem gatherFrom_append {α : Type} (give : Item → Int → Option α) (line : Int)
    (taken left : List Item) :
    gatherFrom give line (taken ++ left)
      = gatherFrom give line taken ++ gatherFrom give (line + countItemLines taken) left := by
  induction taken generalizing line with
  | nil => simp [gatherFrom, countItemLines]
  | cons item rest ih =>
    rw [List.cons_append, gatherFrom, gatherFrom, ih, List.append_assoc, countItemLines_cons,
      Int.natCast_add, Int.add_assoc]

theorem tokensFrom_cons (line : Int) (item : Item) (rest : List Item) :
    tokensFrom line (item :: rest) =
      (item.token? line).toList ++ tokensFrom (line + countLines item.text) rest := rfl

theorem errorsFrom_cons (filename : Option String) (line : Int) (item : Item) (rest : List Item) :
    errorsFrom filename line (item :: rest) =
      (item.error? filename line).toList ++
        errorsFrom filename (line + countLines item.text) rest := rfl

/-- Whatever some items give comes from one of them, which begins where those before it end. -/
theorem mem_gatherFrom {α : Type} {give : Item → Int → Option α} {line : Int} {found : List Item}
    {x : α} :
    x ∈ gatherFrom give line found ↔ ∃ before item after, found = before ++ item :: after ∧
      give item (line + countItemLines before) = some x := by
  constructor
  · intro h
    induction found generalizing line with
    | nil => cases h
    | cons item rest ih =>
      rcases List.mem_append.1 h with hitem | hrest
      · refine ⟨[], item, rest, rfl, ?_⟩
        simpa [countItemLines] using hitem
      · obtain ⟨before, other, after, rfl, hgive⟩ := ih hrest
        refine ⟨item :: before, other, after, rfl, ?_⟩
        rw [countItemLines_cons, Int.natCast_add, ← Int.add_assoc]
        exact hgive
  · rintro ⟨before, item, after, rfl, hgive⟩
    rw [gatherFrom_append, gatherFrom, hgive]
    simp

theorem gatherFrom_eq_nil {α : Type} {give : Item → Int → Option α} {found : List Item}
    (h : ∀ item ∈ found, ∀ line, give item line = none) (line : Int) :
    gatherFrom give line found = [] := by
  refine List.eq_nil_iff_forall_not_mem.2 fun x hx => ?_
  obtain ⟨before, item, after, rfl, hgive⟩ := mem_gatherFrom.1 hx
  rw [h item (by simp)] at hgive
  cases hgive

namespace Scanner

/-- What a scanner holds after some items. -/
theorem takeAll_spec (found : List Item) (s : Scanner) :
    let t := found.foldl takeItem s
    t.filename = s.filename ∧ t.line = s.line + countItemLines found ∧
      t.tokens.toList = s.tokens.toList ++ tokensFrom s.line found ∧
      t.errors.toList = s.errors.toList ++ errorsFrom s.filename s.line found := by
  induction found generalizing s with
  | nil => simp [countItemLines, tokensFrom, errorsFrom, gatherFrom]
  | cons item rest ih =>
    obtain ⟨hname, hline, htokens, herrors⟩ := ih (s.takeItem item)
    refine ⟨?_, ?_, ?_, ?_⟩
    · simpa using hname
    · rw [List.foldl_cons, hline, line_takeItem, countItemLines_cons]
      omega
    · simpa [tokensFrom, gatherFrom] using htokens
    · simpa [errorsFrom, gatherFrom] using herrors

variable {State Fault : Type}

/-- What a pass leaves behind, ended or broken off: the tokens and errors of a beginning of the
    items, and of all of them, with the mark of the end, if it has ended. -/
theorem tokenize_spec (receive : Receiver State Fault) (s : Scanner) (state : State) :
    ∃ taken, taken <+: items s.source.toList ∧
      ((s.tokenize receive state).1 = .ok () → taken = items s.source.toList) ∧
      (s.tokenize receive state).2.scanner.tokens.toList = tokensFrom 1 taken ++
        endMark (1 + countLines s.source.toList) (s.tokenize receive state).1 ∧
      (s.tokenize receive state).2.scanner.errors.toList = errorsFrom s.filename 1 taken := by
  obtain ⟨taken, hbegins, htaken, hall⟩ :=
    Pass.scanner_takeAll receive (items s.source.toList) (Pass.begin s state)
  obtain ⟨-, hline, htokens, herrors⟩ := takeAll_spec taken (Pass.begin s state).scanner
  rw [← htaken] at hline htokens herrors
  refine ⟨taken, hbegins, ?_⟩
  rw [tokenize]
  rcases heq : Pass.takeAll receive (items s.source.toList) (Pass.begin s state) with ⟨_ | _, q⟩
  all_goals rw [heq] at hline htokens herrors hall
  case error =>
    refine ⟨(fun h => by cases h), ?_, herrors⟩
    rw [htokens, endMark, List.append_nil]
    rfl
  case ok =>
    obtain rfl := hall rfl
    refine ⟨fun _ => rfl, ?_, ?_⟩
    · rw [Pass.toList_tokens_finish, htokens, hline, countItemLines_items]
      rfl
    · rw [Pass.errors_finish, herrors]
      rfl

theorem tokenize_spec_of_ok {receive : Receiver State Fault} {s : Scanner} {state : State}
    (h : (s.tokenize receive state).1 = .ok ()) :
    (s.tokenize receive state).2.scanner.tokens.toList = tokensToEnd 1 s.source.toList ∧
      (s.tokenize receive state).2.scanner.errors.toList
        = errorsFrom s.filename 1 (items s.source.toList) := by
  obtain ⟨taken, -, hall, htokens, herrors⟩ := s.tokenize_spec receive state
  obtain rfl := hall h
  rw [h] at htokens
  exact ⟨htokens, herrors⟩

theorem tokenize_spec_of_accepts {receive : Receiver State Fault} (h : receive.Accepts)
    (s : Scanner) (state : State) :
    (s.tokenize receive state).1 = .ok () ∧
      (s.tokenize receive state).2.scanner.tokens.toList = tokensToEnd 1 s.source.toList ∧
      (s.tokenize receive state).2.scanner.errors.toList
        = errorsFrom s.filename 1 (items s.source.toList) := by
  have hended := s.tokenize_fst_of_accepts h state
  exact ⟨hended, tokenize_spec_of_ok hended⟩

end Scanner

/-! ## From between two turns -/

namespace Pass

variable {State Fault : Type}

/-- What is found after a pass stood between two turns: some tokens and errors if the pass has
    ended, and a beginning of them if a receiver has broken it off. -/
structure Adds (p : Pass State) (result : Except Fault Unit × Pass State) (tokens : List Token)
    (errors : List LexicalError) : Prop where
  tokens : ∃ added, added <+: tokens ∧ (result.1 = .ok () → added = tokens) ∧
    result.2.scanner.tokens.toList = p.scanner.tokens.toList ++ added
  errors : ∃ added, added <+: errors ∧ (result.1 = .ok () → added = errors) ∧
    result.2.scanner.errors.toList = p.scanner.errors.toList ++ added

theorem adds_of_reaches {receive : Receiver State Fault} {s : Scanner} {state : State}
    {p : Pass State} (hp : (begin s state).Reaches receive p) :
    p.Adds (s.tokenize receive state)
      (tokensToEnd p.scanner.line p.scanner.remaining)
      (errorsFrom p.scanner.filename p.scanner.line (items p.scanner.remaining)) := by
  obtain ⟨taken, ⟨left, hleft⟩, htaken, hall⟩ :=
    scanner_takeAll receive (items p.scanner.remaining) p
  obtain ⟨-, hline, htokens, herrors⟩ := Scanner.takeAll_spec taken p.scanner
  rw [← htaken] at hline htokens herrors
  rw [Scanner.tokenize_of_reaches hp]
  rcases heq : takeAll receive (items p.scanner.remaining) p with ⟨_ | _, q⟩
  all_goals rw [heq] at hline htokens herrors hall
  case error =>
    -- What was taken is a beginning of the items, so what it gave is a beginning of what they give.
    refine ⟨⟨_, ?_, (fun h => by cases h), htokens⟩, ⟨_, ?_, (fun h => by cases h), herrors⟩⟩
    · rw [tokensToEnd, tokensFrom, tokensFrom, ← hleft, gatherFrom_append, List.append_assoc]
      exact List.prefix_append _ _
    · rw [errorsFrom, errorsFrom, ← hleft, gatherFrom_append]
      exact List.prefix_append _ _
  case ok =>
    obtain rfl := hall rfl
    refine ⟨⟨_, List.prefix_rfl, fun _ => rfl, ?_⟩, ⟨_, List.prefix_rfl, fun _ => rfl, ?_⟩⟩
    · rw [toList_tokens_finish, htokens, hline, countItemLines_items, List.append_assoc,
        tokensToEnd]
    · rw [errors_finish, herrors]

end Pass

theorem scan_spec (source : String) (filename : Option String) :
    (scan source filename).tokens.toList = tokensToEnd 1 source.toList ∧
      (scan source filename).errors.toList = errorsFrom filename 1 (items source.toList) :=
  Scanner.tokenize_spec_of_ok
    ((Scanner.new source filename).tokenize_fst_of_accepts Receiver.accepts_silent ())

end LoxScan
