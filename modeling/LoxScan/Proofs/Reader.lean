import LoxScan.Scanner

/-! # Readers

A scanner can take an item by reading one character after the other.  Each such reading asks for
characters at offsets that might lie outside the source, for numbers that might not be numerals, and
goes round loops that might never end.  Here all of these can fail.

* `Program` is the type of what changes a state and may fail, and `Program.repeatWhile` a loop; it
  fails if a round gets no nearer to the end.
* `Stop` lists what may go wrong with a reading, and `Reader` is the type of readings.
* `Reader.item` reads one item, with `Reader.word`, `Reader.number`, `Reader.string` and
  `Reader.slash` for those of any length.
-/

namespace LoxScan

/-! ## Programs -/

/-- Something that changes a state and may stop early. -/
abbrev Program (σ ε α : Type) := ExceptT ε (StateM σ) α

namespace Program

variable {σ ε α β : Type}

@[simp] theorem bind_apply (x : Program σ ε α) (f : α → Program σ ε β) (s : σ) :
    (x >>= f) s = match x s with
      | (.ok a, t) => f a t
      | (.error e, t) => (.error e, t) := by
  show StateT.bind (m := Id) x (ExceptT.bindCont f) s = _
  rw [StateT.bind]
  simp only [bind]
  rcases x s with ⟨_ | _, t⟩ <;> rfl

@[simp] theorem map_apply (f : α → β) (x : Program σ ε α) (s : σ) :
    (f <$> x) s = match x s with
      | (.ok a, t) => (.ok (f a), t)
      | (.error e, t) => (.error e, t) := by
  rw [← bind_pure_comp, bind_apply]
  rfl

@[simp] theorem pure_apply (a : α) (s : σ) : (pure a : Program σ ε α) s = (.ok a, s) := rfl

@[simp] theorem get_apply (s : σ) : (get : Program σ ε σ) s = (.ok s, s) := rfl

@[simp] theorem throw_apply (e : ε) (s : σ) : (throw e : Program σ ε α) s = (.error e, s) := rfl

@[simp] theorem modify_apply (f : σ → σ) (s : σ) :
    (modify f : Program σ ε PUnit) s = (.ok (), f s) := rfl

@[simp] theorem tryCatch_apply (x : Program σ ε α) (handle : ε → Program σ ε α) (s : σ) :
    (tryCatch x handle : Program σ ε α) s = match x s with
      | (.ok a, t) => (.ok a, t)
      | (.error e, t) => handle e t := by
  show ExceptT.tryCatch x handle s = _
  simp only [ExceptT.tryCatch, ExceptT.mk, bind, StateT.bind]
  rcases x s with ⟨_ | _, t⟩ <;> rfl

/-- Goes round as long as a test says so.  `left` is how far it still is to the end: a round after
    which it is as far as before would be one of infinitely many. -/
def repeatWhile (left : σ → Nat) (stuck : ε) (test : Program σ ε Bool) (body : Program σ ε Unit) :
    Program σ ε Unit := fun s =>
  match test s with
  | (.error e, t) => (.error e, t)
  | (.ok false, t) => (.ok (), t)
  | (.ok true, t) =>
    match body t with
    | (.error e, u) => (.error e, u)
    | (.ok (), u) =>
      if left u < left s then repeatWhile left stuck test body u else (.error stuck, u)
termination_by s => left s

inductive Rounds (test : Program σ ε Bool) (body : Program σ ε Unit) (s : σ) : σ → Prop
  | start : Rounds test body s s
  | round {t u v : σ} (h : Rounds test body s t) (htest : test t = (.ok true, u))
      (hbody : body u = (.ok (), v)) : Rounds test body s v

section Loop

variable {left : σ → Nat} {stuck : ε} {test : Program σ ε Bool} {body : Program σ ε Unit} {s t : σ}

theorem repeatWhile_of_false (htest : test s = (.ok false, s)) :
    repeatWhile left stuck test body s = (.ok (), s) := by
  rw [repeatWhile, htest]

theorem repeatWhile_of_true (htest : test s = (.ok true, s)) (hbody : body s = (.ok (), t))
    (hleft : left t < left s) :
    repeatWhile left stuck test body s = repeatWhile left stuck test body t := by
  rw [repeatWhile, htest]
  simp only [hbody, if_pos hleft]

end Loop

end Program

/-! ## Single characters -/

inductive Stop where
  /-- An error of the source text, a character outside of the source, or a code point that was asked
      of more than one character. -/
  | failure (cause : Failure)
  /-- A text that is no numeral was taken for a number. -/
  | notNumeral (text : List Char)
  /-- A loop went round and did not come nearer to its end. -/
  | stuck
deriving DecidableEq, Repr

namespace Scanner

def left (s : Scanner) : Nat :=
  s.remaining.length

def slice (s : Scanner) (first last : Nat) : List Char :=
  (s.source.toList.take last).drop first

end Scanner

abbrev Reader := Program Scanner Stop

namespace Reader

/-- The character at an offset, which has to lie in the source. -/
def charAt (index : Nat) : Reader Char := do
  match (← get).source.toList[index]? with
  | some c => pure c
  | none => throw (.failure .readPastEnd)

def atEnd : Reader Bool := do
  return (← get).atEnd

def peek : Reader Char := do
  if ← atEnd then pure endCharacter else charAt (← get).current

def peekNext : Reader Char := do
  let s ← get
  if s.source.length ≤ s.current + 1 then pure endCharacter else charAt (s.current + 1)

def advance : Reader Char := do
  let c ← charAt (← get).current
  modify fun s => { s with current := s.current + 1 }
  pure c

def skip : Reader Unit := do
  let _ ← advance
  pure ()

def accept (expected : Char) : Reader Bool := do
  if ← atEnd then pure false
  else if (← charAt (← get).current) = expected then
    modify fun s => { s with current := s.current + 1 }
    pure true
  else pure false

/-! ## Items -/

def newLine : Reader Unit :=
  modify fun s => { s with line := s.line + 1 }

/-- Adds a token with the text read so far.  It has the line of the cursor if no other is given. -/
def addToken (kind : TokenKind) (literal : Option Literal) (line : Option Int) : Reader Unit :=
  modify fun s => { s with
    tokens := s.tokens.push
      ⟨kind, String.ofList (s.slice s.start s.current), literal, line.getD s.line⟩ }

def skipWhile (p : Char → Bool) : Reader Unit :=
  Program.repeatWhile Scanner.left .stuck (do return p (← peek)) skip

def awaits (c : Char) : Reader Bool := do
  if (← peek) = c then pure false else return !(← atEnd)

def skipTo (c : Char) : Reader Unit :=
  Program.repeatWhile Scanner.left .stuck (awaits c) skip

def word : Reader Unit := do
  skipWhile isWordPart
  let s ← get
  addToken (.ofWord (String.ofList (s.slice s.start s.current))) none none

def isNumeral (text : List Char) : Bool :=
  let whole := text.takeWhile Char.isDigit
  !whole.isEmpty && match text.dropWhile Char.isDigit with
    | [] => true
    | dot :: part => dot == '.' && !part.isEmpty && part.all Char.isDigit

def valueOf (text : List Char) : Reader Literal :=
  if isNumeral text then pure (.number (.signed false (Decimal.ofNumeral text).nearest))
  else throw (.notNumeral text)

def fraction : Reader Unit := do
  if (← peek) = '.' then
    if (← peekNext).isDigit then
      let _ ← advance
      skipWhile Char.isDigit

def closeNumber : Reader Unit := do
  let s ← get
  let value ← valueOf (s.slice s.start s.current)
  addToken .number (some value) none

def number : Reader Unit := do
  skipWhile Char.isDigit
  fraction
  closeNumber

def countNewLine : Reader Unit := do
  if (← peek) = '\n' then newLine

def closeString (line : Int) : Reader Unit := do
  let _ ← advance
  let s ← get
  let body := s.slice (s.start + 1) (s.current - 1)
  addToken .string (some (.text (String.ofList body))) (some line)

def string : Reader Unit := do
  let line := (← get).line
  Program.repeatWhile Scanner.left .stuck (awaits '"') (do countNewLine; skip)
  if ← atEnd then
    throw (.failure (.lexical (LexicalFault.errorAt .unterminatedString (← get).location)))
  else closeString line

/-- Refuses a character.  The help for it may need its code point. -/
def reject (c : Char) : Reader Unit := do
  match LexicalError.ofRejected (String.singleton c) (← get).location with
  | .ok error => throw (.failure (.lexical error))
  | .error cause => throw (.failure cause)

def comparison (alone pair : TokenKind) : Reader Unit := do
  if ← accept '=' then addToken pair none none else addToken alone none none

def slash : Reader Unit := do
  if ← accept '/' then skipTo '\n' else addToken .slash none none

def item : Reader Unit := do
  let c ← advance
  match CharRole.of c with
  | .symbol kind => addToken kind none none
  | .comparison alone pair => comparison alone pair
  | .slash => slash
  | .blank => pure ()
  | .lineFeed => newLine
  | .quote => string
  | .digit => number
  | .wordStart => word
  | .foreign => reject c

end Reader

end LoxScan
