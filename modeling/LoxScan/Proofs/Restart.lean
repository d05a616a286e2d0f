import LoxScan.Proofs.Yield

/-! # Restarts

What a pass finds from between two turns on depends on the text that remains and on nothing else,
apart from the line.  So two passes that have the same text to come find the same, and so does a
new pass over that text.

* `Token.shiftLine` and `LexicalError.shiftLine` move to another line and change nothing else.
* `adds_of_remaining_eq`: passes with the same text to come add the same, up to one shift.
-/

namespace LoxScan

def Token.shiftLine (lines : Int) (token : Token) : Token :=
  { token with line := token.line + lines }

def LexicalError.shiftLine (lines : Int) (error : LexicalError) : LexicalError :=
  { error with
    diagnostic := { error.diagnostic with
      location := { error.diagnostic.location with line := error.line + lines } } }

/-! ## Items on other lines -/

theorem gatherFrom_add {α : Type} {give : Item → Int → Option α} {shift : α → α} {lines : Int}
    (hgive : ∀ item line, give item (line + lines) = (give item line).map shift) (line : Int)
    (found : List Item) :
    gatherFrom give (line + lines) found = (gatherFrom give line found).map shift := by
  induction found generalizing line with
  | nil => rfl
  | cons item rest ih =>
    have hnext : line + lines + countLines item.text = line + countLines item.text + lines := by
      omega
    rw [gatherFrom, gatherFrom, List.map_append, hgive, hnext, ih]
    cases give item line <;> rfl

theorem tokensFrom_add (line lines : Int) (found : List Item) :
    tokensFrom (line + lines) found = (tokensFrom line found).map (Token.shiftLine lines) := by
  refine gatherFrom_add (fun item line => ?_) line found
  rw [Item.token?, Item.token?]
  split <;> rfl

theorem errorsFrom_add (filename : Option String) (line lines : Int) (found : List Item) :
    errorsFrom filename (line + lines) found
      = (errorsFrom filename line found).map (LexicalError.shiftLine lines) := by
  refine gatherFrom_add (fun item line => ?_) line found
  rw [Item.error?, Item.error?, Option.map_map, Int.add_right_comm]
  rfl

theorem tokensToEnd_add (line lines : Int) (text : List Char) :
    tokensToEnd (line + lines) text = (tokensToEnd line text).map (Token.shiftLine lines) := by
  rw [tokensToEnd, tokensToEnd, tokensFrom_add, List.map_append, Int.add_right_comm]
  rfl

/-! ## Passes with the same text to come -/

/-- Two passes, over any sources and with any receivers, that have the same text to come add the
    same tokens and errors, up to the lines between them: those that a new pass finds in that
    text. -/
theorem adds_of_remaining_eq {State State' Fault Fault' : Type} {receive : Receiver State Fault}
    {receive' : Receiver State' Fault'} {s t : Scanner} {state : State} {state' : State'}
    {p : Pass State} {q : Pass State'} (hfilename : s.filename = t.filename)
    (hp : (Pass.begin s state).Reaches receive p) (hq : (Pass.begin t state').Reaches receive' q)
    (hremaining : p.scanner.remaining = q.scanner.remaining) :
    ∃ tokens errors, p.Adds (s.tokenize receive state) tokens errors ∧
      q.Adds (t.tokenize receive' state')
        (tokens.map (Token.shiftLine (q.scanner.line - p.scanner.line)))
        (errors.map (LexicalError.shiftLine (q.scanner.line - p.scanner.line))) ∧
      let fresh := scan (String.ofList p.scanner.remaining) s.filename
      tokens = fresh.tokens.toList.map (Token.shiftLine (p.scanner.line - 1)) ∧
        errors = fresh.errors.toList.map (LexicalError.shiftLine (p.scanner.line - 1)) := by
  obtain ⟨-, hpname⟩ := Pass.source_filename_of_reaches hp
  obtain ⟨-, hqname⟩ := Pass.source_filename_of_reaches hq
  have hname : q.scanner.filename = p.scanner.filename := by
    rw [hpname, hqname]
    exact hfilename.symm
  -- All three find what the same items give, from three different lines on.
  have hpadds := Pass.adds_of_reaches hp
  have hqadds := Pass.adds_of_reaches hq
  have hqline : q.scanner.line = p.scanner.line + (q.scanner.line - p.scanner.line) := by omega
  have hpline : p.scanner.line = 1 + (p.scanner.line - 1) := by omega
  obtain ⟨htokens, herrors⟩ := scan_spec (String.ofList p.scanner.remaining) s.filename
  refine ⟨_, _, hpadds, ?_, ?_, ?_⟩
  · rw [← tokensToEnd_add, ← errorsFrom_add, ← hqline, hremaining, ← hname]
    exact hqadds
  · rw [htokens, ← tokensToEnd_add, ← hpline, String.toList_ofList]
  · rw [herrors, ← errorsFrom_add, ← hpline, String.toList_ofList, hpname]
    rfl

/-- After a line feed and after a blank the same text adds the same, one line further down. -/
theorem adds_of_remaining_eq_lineFeed :
    let s := Scanner.new "\n@ b" none
    let t := Scanner.new " @ b" none
    ∃ p q, s.filename = t.filename ∧ (Pass.begin s ()).Reaches Receiver.silent p ∧
      (Pass.begin t ()).Reaches Receiver.silent q ∧ p.scanner.remaining = q.scanner.remaining ∧
      ∃ tokens errors, p.Adds (s.tokenize Receiver.silent ()) tokens errors ∧
        q.Adds (t.tokenize Receiver.silent ())
          (tokens.map (Token.shiftLine (q.scanner.line - p.scanner.line)))
          (errors.map (LexicalError.shiftLine (q.scanner.line - p.scanner.line))) := by
  intro s t
  have hfilename : s.filename = t.filename := rfl
  have hfirst : (Pass.begin s ()).scanner.remaining = ['\n', '@', ' ', 'b'] := by decide
  have hsecond : (Pass.begin t ()).scanner.remaining = [' ', '@', ' ', 'b'] := by decide
  have hp : (Pass.begin s ()).Reaches Receiver.silent
      ((Pass.begin s ()).takeItem Receiver.silent (Item.cut '\n' ['@', ' ', 'b']).1).2 :=
    .next .refl hfirst rfl
  have hq : (Pass.begin t ()).Reaches Receiver.silent
      ((Pass.begin t ()).takeItem Receiver.silent (Item.cut ' ' ['@', ' ', 'b']).1).2 :=
    .next .refl hsecond rfl
  have hremaining : ((Pass.begin s ()).takeItem Receiver.silent
        (Item.cut '\n' ['@', ' ', 'b']).1).2.scanner.remaining
      = ((Pass.begin t ()).takeItem Receiver.silent
        (Item.cut ' ' ['@', ' ', 'b']).1).2.scanner.remaining := by decide
  obtain ⟨tokens, errors, hpadds, hqadds, -⟩ := adds_of_remaining_eq hfilename hp hq hremaining
  exact ⟨_, _, hfilename, hp, hq, hremaining, tokens, errors, hpadds, hqadds⟩

end LoxScan
