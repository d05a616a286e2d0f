import LoxScan.Failure
import LoxScan.Item
import LoxScan.Log

/-! # Scanners

A scanner holds a source text, a cursor in it, and what it has found so far.  A *pass* starts at the
beginning, takes one item after the other, and ends with the mark of the end of input.  Errors do
not end a pass: each is kept, noted in the log, and handed to a receiver.  Only a receiver that
fails ends a pass early.

* `Scanner.consume` is what taking one item does to a scanner, `Scanner.keep` what finding an error
  does.
* `Receiver` is anything that takes reports; `Receiver.silent` takes them all and does nothing.
* `Scanner.tokenize` is a whole pass with any receiver, `Scanner.run` one with the silent receiver.
* `scan` and `tokenizeText` are passes of a new scanner.
* `Scanner.step` takes a single item from wherever the cursor stands.
-/

namespace LoxScan

/-! ## The scanner -/

/-- Offsets count characters.  `start` is where the item that was taken last begins, `current` is
    the first character not yet read, and `line` the line that it is on. -/
structure Scanner where
  source : String
  filename : Option String
  start : Nat := 0
  current : Nat := 0
  line : Int := 1
  tokens : Array Token := #[]
  errors : Array LexicalError := #[]
deriving DecidableEq, Repr

def unknownFilename : String := "<unknown>"

def textFilename : String := "<string>"

/-- What stands for the next character when there is none. -/
def endCharacter : Char := '\x00'

namespace Scanner

def new (source : String) (filename : Option String) : Scanner :=
  { source, filename }

/-- The scanner as it is when a pass begins: only its source and file name stay. -/
def restart (s : Scanner) : Scanner :=
  new s.source s.filename

def remaining (s : Scanner) : List Char :=
  s.source.toList.drop s.current

def location (s : Scanner) : Location :=
  ⟨s.filename, s.line⟩

def hasErrors (s : Scanner) : Bool :=
  !s.errors.isEmpty

/-! ## Single characters -/

def atEnd (s : Scanner) : Bool :=
  s.source.length ≤ s.current

def peek? (s : Scanner) : Option Char :=
  s.source.toList[s.current]?

def peekNext? (s : Scanner) : Option Char :=
  s.source.toList[s.current + 1]?

def advance (s : Scanner) : Except Failure Char × Scanner :=
  match s.peek? with
  | some c => (.ok c, { s with current := s.current + 1 })
  | none => (.error .readPastEnd, s)

def accept (s : Scanner) (expected : Char) : Bool × Scanner :=
  if s.peek? = some expected then (true, { s with current := s.current + 1 }) else (false, s)

/-! ## Single items -/

/-- Moves the cursor over an item.  The line goes up by the line feeds in it, wherever they
    stand. -/
def moveOver (s : Scanner) (item : Item) : Scanner :=
  { s with
    start := s.current
    current := s.current + item.text.length
    line := s.line + countLines item.text }

def emit (s : Scanner) : Option Token → Scanner
  | some token => { s with tokens := s.tokens.push token }
  | none => s

/-- Takes an item.  Its token has the line on which the item starts. -/
def consume (s : Scanner) (item : Item) : Scanner :=
  (s.moveOver item).emit (item.token? s.line)

@[simp] theorem source_emit (s : Scanner) (token : Option Token) :
    (s.emit token).source = s.source := by
  cases token <;> rfl

@[simp] theorem filename_emit (s : Scanner) (token : Option Token) :
    (s.emit token).filename = s.filename := by
  cases token <;> rfl

@[simp] theorem start_emit (s : Scanner) (token : Option Token) :
    (s.emit token).start = s.start := by
  cases token <;> rfl

@[simp] theorem current_emit (s : Scanner) (token : Option Token) :
    (s.emit token).current = s.current := by
  cases token <;> rfl

@[simp] theorem line_emit (s : Scanner) (token : Option Token) :
    (s.emit token).line = s.line := by
  cases token <;> rfl

@[simp] theorem errors_emit (s : Scanner) (token : Option Token) :
    (s.emit token).errors = s.errors := by
  cases token <;> rfl

@[simp] theorem toList_tokens_emit (s : Scanner) (token : Option Token) :
    (s.emit token).tokens.toList = s.tokens.toList ++ token.toList := by
  cases token <;> simp [emit]

@[simp] theorem source_consume (s : Scanner) (item : Item) :
    (s.consume item).source = s.source := by
  simp [consume, moveOver]

@[simp] theorem filename_consume (s : Scanner) (item : Item) :
    (s.consume item).filename = s.filename := by
  simp [consume, moveOver]

@[simp] theorem start_consume (s : Scanner) (item : Item) :
    (s.consume item).start = s.current := by
  simp [consume, moveOver]

@[simp] theorem current_consume (s : Scanner) (item : Item) :
    (s.consume item).current = s.current + item.text.length := by
  simp [consume, moveOver]

@[simp] theorem line_consume (s : Scanner) (item : Item) :
    (s.consume item).line = s.line + countLines item.text := by
  simp [consume, moveOver]

@[simp] theorem errors_consume (s : Scanner) (item : Item) :
    (s.consume item).errors = s.errors := by
  simp [consume, moveOver]

@[simp] theorem toList_tokens_consume (s : Scanner) (item : Item) :
    (s.consume item).tokens.toList = s.tokens.toList ++ (item.token? s.line).toList := by
  simp [consume, moveOver]

/-- The error that an item is, for a scanner that has taken it.  Its line is the one that the item
    ends on. -/
def errorOf? (s : Scanner) (item : Item) : Option LexicalError :=
  item.fault?.map fun fault => fault.errorAt s.location

def keep (s : Scanner) (error : LexicalError) : Scanner :=
  { s with errors := s.errors.push error }

inductive StepResult where
  | taken
  | faulty (error : LexicalError)
  | atEnd
deriving DecidableEq, Repr

/-- Takes the item at the cursor.  An error is not kept.  At the end of the source only `start`
    moves. -/
def step (s : Scanner) : StepResult × Scanner :=
  match s.remaining with
  | [] => (.atEnd, { s with start := s.current })
  | c :: rest =>
    let item := (Item.cut c rest).1
    let after := s.consume item
    match after.errorOf? item with
    | some error => (.faulty error, after)
    | none => (.taken, after)

end Scanner

/-! ## Receivers -/

/-- Something that takes reports: a report changes its state and may fail. -/
abbrev Receiver (State Fault : Type) := Report → State → Except Fault Unit × State

/-- Takes every report and does nothing. -/
def Receiver.silent : Receiver Unit Empty :=
  fun _ state => (.ok (), state)

/-! ## Passes -/

/-- A pass under way: the scanner, the state of the receiver, and the log so far. -/
structure Pass (State : Type) where
  scanner : Scanner
  state : State
  log : Array LogRecord
deriving DecidableEq, Repr

namespace Pass

variable {State Fault : Type}

def begin (s : Scanner) (state : State) : Pass State :=
  ⟨s.restart, state, #[.started s.filename s.source.length]⟩

def consume (p : Pass State) (item : Item) : Pass State :=
  { p with scanner := p.scanner.consume item }

def keep (p : Pass State) (error : LexicalError) : Pass State :=
  { p with
    scanner := p.scanner.keep error
    log := p.log.push (.found error.diagnostic.location error.message) }

def report (receive : Receiver State Fault) (p : Pass State) (error : LexicalError) :
    Except Fault Unit × Pass State :=
  let p := p.keep error
  let (result, state) := receive error.report p.state
  (result, { p with state })

def finish (p : Pass State) : Pass State :=
  let scanner := p.scanner.emit (some (Token.endOfInput p.scanner.line))
  { p with
    scanner
    log := p.log.push (.finished scanner.filename scanner.tokens.size scanner.errors.size) }

/-- Takes items one after the other, until they end or the receiver fails. -/
def takeAll (receive : Receiver State Fault) :
    List Item → Pass State → Except Fault Unit × Pass State
  | [], p => (.ok (), p)
  | item :: rest, p =>
    let p := p.consume item
    match p.scanner.errorOf? item with
    | none => takeAll receive rest p
    | some error =>
      match p.report receive error with
      | (.ok (), p) => takeAll receive rest p
      | failed => failed

end Pass

namespace Scanner

variable {State Fault : Type}

/-- A whole pass.  If the receiver fails the pass stands where it was then, with no mark of the end
    of input. -/
def tokenize (receive : Receiver State Fault) (s : Scanner) (state : State) :
    Except Fault Unit × Pass State :=
  match Pass.takeAll receive (items s.source.toList) (Pass.begin s state) with
  | (.ok (), p) => (.ok (), p.finish)
  | failed => failed

def run (s : Scanner) : Pass Unit :=
  (s.tokenize Receiver.silent ()).2

end Scanner

/-! ## Passes of new scanners -/

def scan (source : String) (filename : Option String) : Scanner :=
  (Scanner.new source filename).run.scanner

/-- The tokens of a text, if it is lexically correct, and else its first error. -/
def tokenizeText (source : String) (filename : Option String) :
    Except LexicalError (List Token) :=
  let scanner := scan source filename
  match scanner.errors.toList with
  | [] => .ok scanner.tokens.toList
  | error :: _ => .error error

def logOfPasses : Nat → Scanner → List LogRecord
  | 0, _ => []
  | passes + 1, s =>
    let p := s.run
    p.log.toList ++ logOfPasses passes p.scanner

end LoxScan
