import LoxScan.Workspace.Basic

/-! # Commands on a workspace

* `Command` lists what can be asked of a workspace, `Answer` what can come back.
* `Workspace.perform` carries out one command; what happened before a failure stays.
* A `Request` is a command together with a scanner to look at afterwards; `Workspace.reply` adds to
  the response where that scanner stands.
* `Workspace.session` carries out a list of requests.
-/

namespace LoxScan

/-! ## Commands -/

inductive DiagnosticEdit where
  | line (value : Int)
  | message (value : String)
  | severity (value : String)
  | code (value : Option String)
  | help (value : Option String)
deriving DecidableEq, Repr

/-- A change of one field of a scanner.  A reporter is given by the name of its sink. -/
inductive ScannerEdit where
  | source (value : String)
  | filename (value : Option String)
  | line (value : Int)
  | current (value : Nat)
  | reporter (value : Option String)
deriving DecidableEq, Repr

inductive Command where
  | makeSink (name : String) (sink : Sink)
  | report (sink : String) (report : Report)
  | clear (sink : String)
  | sinkState (sink : String)
  | makeScanner (name source : String) (filename reporter : Option String)
  | tokenize (scanner : String) (hold : Option String)
  | scan (source : String) (filename reporter : Option String)
  | hasErrors (scanner : String)
  | diagnostics (scanner : String) (hold : Option String)
  | contents (scanner : String)
  | held (name : String)
  | heldPop (name : String)
  | sameTokens (a b : String)
  | editDiagnostic (scanner : String) (index : Int) (edit : DiagnosticEdit)
  | set (scanner : String) (edit : ScannerEdit)
  | step (scanner : String)
  | stepReport (scanner : String)
  | advance (scanner : String)
  | peek (scanner : String)
  | peekNext (scanner : String)
  | accept (scanner : String) (expected : Char)
  | atEnd (scanner : String)
deriving DecidableEq, Repr

/-- A command, and the name of a scanner to look at when it is carried out. -/
structure Request where
  command : Command
  watched : Option String
deriving DecidableEq, Repr

/-! ## Answers -/

inductive Answer where
  | done
  | sink (sink : Sink)
  | tokens (tokens : List Token)
  | errors (errors : List LexicalError)
  | contents (tokens : List Token) (errors : List LexicalError)
  | held (items : HeldItems)
  | flag (value : Bool)
  | character (value : Char)
  | edited (error : LexicalError)
  | added (tokens : List Token)
  /-- The error that a step found and handed on. -/
  | reported (error : LexicalError)
deriving DecidableEq, Repr

structure Response where
  result : Except Failure Answer
  shown : String := ""

structure ScannerSummary where
  start : Nat
  current : Nat
  line : Int
  tokens : Nat
  errors : Nat
deriving DecidableEq, Repr

structure Reply where
  response : Response
  summary : Option ScannerSummary

/-! ## Edits -/

def DiagnosticEdit.apply (d : Diagnostic) : DiagnosticEdit → Diagnostic
  | line value => { d with location := { d.location with line := value } }
  | message value => { d with message := value }
  | severity value => { d with severity := value }
  | code value => { d with code := value }
  | help value => { d with help := value }

/-- The place in a list of some size that an index means; a negative index counts from the end. -/
def place? (size : Nat) (index : Int) : Option Nat :=
  let place := if index < 0 then index + size else index
  if 0 ≤ place ∧ place < size then some place.toNat else none

namespace Scanner

def editError (s : Scanner) (index : Int) (edit : DiagnosticEdit) :
    Except Failure LexicalError × Scanner :=
  match place? s.errors.size index with
  | none => (.error .noSuchError, s)
  | some place =>
    match s.errors[place]? with
    | none => (.error .noSuchError, s)
    | some error =>
      let edited := { error with diagnostic := edit.apply error.diagnostic }
      (.ok edited, { s with errors := s.errors.setIfInBounds place edited })

def summary (s : Scanner) : ScannerSummary :=
  ⟨s.start, s.current, s.line, s.tokens.size, s.errors.size⟩

end Scanner

namespace Workspace

/-! ## Carrying out a command -/

def quiet (result : Except Failure Answer) : Response :=
  ⟨result, ""⟩

def onScanner (w : Workspace) (name : String)
    (act : Scanner → Except Failure Answer × Scanner) : Response × Workspace :=
  match w.scanners.find? name with
  | none => (quiet (.error (.unknownName name)), w)
  | some wired =>
    let (result, scanner) := act wired.scanner
    (quiet result, w.setScanner name { wired with scanner })

def askScanner (w : Workspace) (name : String) (question : Scanner → Answer) :
    Response × Workspace :=
  match w.scanners.find? name with
  | none => (quiet (.error (.unknownName name)), w)
  | some wired => (quiet (.ok (question wired.scanner)), w)

/-- The sink that has a name now, with the way to find it again. -/
def currentSink (w : Workspace) (name : String) : Except Failure (SinkRef × Sink) :=
  match (w.sinkRef? name).bind fun ref => (w.sink? ref).map fun sink => (ref, sink) with
  | some found => .ok found
  | none => .error (.unknownName name)

def onSink (w : Workspace) (name : String) (act : Sink → Delivery) : Response × Workspace :=
  match w.currentSink name with
  | .error failure => (quiet (.error failure), w)
  | .ok (ref, sink) =>
    let delivery := act sink
    (⟨delivery.result.map fun _ => .sink delivery.sink, delivery.shown⟩,
      w.setSink ref delivery.sink)

/-- A pass of a scanner.  Lists that were handed out keep what they have.  The new token list can be
    held only if the pass came to its end. -/
def tokenize (w : Workspace) (name : String) (hold : Option String) : Response × Workspace :=
  match w.scanners.find? name with
  | none => (quiet (.error (.unknownName name)), w)
  | some wired =>
    let (result, pass) :=
      wired.scanner.tokenize Outlet.receive (w.outlet wired.reporter)
    -- lists are copied out of the scanner as it was before the pass
    let after := ((w.detach name).setScanner name { wired with scanner := pass.scanner }).setOutlet
      wired.reporter pass.state
    match result with
    | .ok () =>
      (⟨.ok (.tokens pass.scanner.tokens.toList), pass.state.shown⟩,
        after.hold hold (.tokensOf name))
    | .error failure => (⟨.error failure, pass.state.shown⟩, after)

def scan (w : Workspace) (source : String) (filename reporter : Option String) :
    Response × Workspace :=
  match w.resolve reporter with
  | .error failure => (quiet (.error failure), w)
  | .ok ref =>
    let (result, pass) := scanTo (w.outlet ref) source filename
    (⟨result.map fun _ => .tokens pass.scanner.tokens.toList, pass.state.shown⟩,
      w.setOutlet ref pass.state)

def addedTokens (before after : Scanner) : List Token :=
  after.tokens.toList.drop before.tokens.size

/-- One item of a scanner.  An error is a failure and is not kept. -/
def step (w : Workspace) (name : String) : Response × Workspace :=
  w.onScanner name fun before =>
    match before.step with
    | (.taken, after) => (.ok (.added (addedTokens before after)), after)
    | (.faulty error, after) => (.error (.lexical error), after)
    | (.atEnd, after) => (.error .readPastEnd, after)

/-- One item of a scanner.  An error is kept and handed to the scanner's reporter. -/
def stepReport (w : Workspace) (name : String) : Response × Workspace :=
  match w.scanners.find? name with
  | none => (quiet (.error (.unknownName name)), w)
  | some wired =>
    match wired.scanner.step with
    | (.taken, after) =>
      (quiet (.ok (.added (addedTokens wired.scanner after))),
        w.setScanner name { wired with scanner := after })
    | (.atEnd, after) =>
      (quiet (.error .readPastEnd), w.setScanner name { wired with scanner := after })
    | (.faulty error, after) =>
      let (result, outlet) := Outlet.receive error.report (w.outlet wired.reporter)
      (⟨result.map fun _ => .reported error, outlet.shown⟩,
        (w.setScanner name { wired with scanner := after.keep error }).setOutlet
          wired.reporter outlet)

def edit (w : Workspace) (name : String) (edit : ScannerEdit) : Response × Workspace :=
  match edit with
  | .source value => w.onScanner name fun s => (.ok .done, { s with source := value })
  | .filename value => w.onScanner name fun s => (.ok .done, { s with filename := value })
  | .line value => w.onScanner name fun s => (.ok .done, { s with line := value })
  | .current value => w.onScanner name fun s => (.ok .done, { s with current := value })
  | .reporter value =>
    match w.scanners.find? name, w.resolve value with
    | none, _ => (quiet (.error (.unknownName name)), w)
    | _, .error failure => (quiet (.error failure), w)
    | some wired, .ok ref => (quiet (.ok .done), w.setScanner name { wired with reporter := ref })

def perform (w : Workspace) : Command → Response × Workspace
  | .makeSink name sink => (quiet (.ok (.sink sink)), w.addSink name sink)
  | .report sink report => w.onSink sink fun s => s.receive report
  | .clear sink => w.onSink sink fun s => ⟨.ok (), s.clear, ""⟩
  | .sinkState sink => (quiet ((w.currentSink sink).map fun found => .sink found.2), w)
  | .makeScanner name source filename reporter =>
    match w.resolve reporter with
    | .error failure => (quiet (.error failure), w)
    | .ok ref =>
      (quiet (.ok .done), (w.detach name).setScanner name ⟨.new source filename, ref⟩)
  | .tokenize scanner hold => w.tokenize scanner hold
  | .scan source filename reporter => w.scan source filename reporter
  | .hasErrors scanner => w.askScanner scanner fun s => .flag s.hasErrors
  | .diagnostics scanner hold =>
    match w.scanners.find? scanner with
    | none => (quiet (.error (.unknownName scanner)), w)
    | some wired =>
      (quiet (.ok (.errors wired.scanner.errors.toList)),
        w.hold hold (.errorsOf scanner wired.scanner.errors.size))
  | .contents scanner =>
    w.askScanner scanner fun s => .contents s.tokens.toList s.errors.toList
  | .held name =>
    match w.held.find? name with
    | none => (quiet (.error (.unknownName name)), w)
    | some held => (quiet (.ok (.held (w.heldItems held))), w)
  | .heldPop name =>
    match w.held.find? name with
    | none => (quiet (.error (.unknownName name)), w)
    | some held =>
      match w.popHeld name held with
      | .error failure => (quiet (.error failure), w)
      | .ok after =>
        (quiet (.ok (.held (after.heldItems ((after.held.find? name).getD held)))), after)
  | .sameTokens a b =>
    match w.scanners.find? a, w.scanners.find? b with
    | some x, some y =>
      (quiet (.ok (.flag (Token.equalLists x.scanner.tokens.toList y.scanner.tokens.toList))), w)
    | none, _ => (quiet (.error (.unknownName a)), w)
    | _, none => (quiet (.error (.unknownName b)), w)
  | .editDiagnostic scanner index edit =>
    w.onScanner scanner fun s =>
      let (result, after) := s.editError index edit
      (result.map .edited, after)
  | .set scanner edit => w.edit scanner edit
  | .step scanner => w.step scanner
  | .stepReport scanner => w.stepReport scanner
  | .advance scanner =>
    w.onScanner scanner fun s =>
      let (result, after) := s.advance
      (result.map .character, after)
  | .peek scanner => w.askScanner scanner fun s => .character (s.peek?.getD endCharacter)
  | .peekNext scanner => w.askScanner scanner fun s => .character (s.peekNext?.getD endCharacter)
  | .accept scanner expected =>
    w.onScanner scanner fun s =>
      let (result, after) := s.accept expected
      (.ok (.flag result), after)
  | .atEnd scanner => w.askScanner scanner fun s => .flag s.atEnd

/-- Carries out one command and looks at the watched scanner, if there is one of that name. -/
def reply (w : Workspace) (request : Request) : Reply × Workspace :=
  let (response, after) := w.perform request.command
  let summary := request.watched.bind fun name =>
    (after.scanners.find? name).map fun wired => wired.scanner.summary
  (⟨response, summary⟩, after)

def session : List Request → Workspace → List Reply × Workspace
  | [], w => ([], w)
  | request :: rest, w =>
    let (first, w) := w.reply request
    let (others, w) := session rest w
    (first :: others, w)

end Workspace

end LoxScan
