import LoxScan.Sink
import LoxScan.Workspace.Registry

/-! # Workspaces

A workspace keeps scanners, sinks, and lists that were handed out, each under a name.

* A name of a sink may be used again.  A scanner goes on reporting to the sink that it was wired to,
  so a `SinkRef` also says which of the sinks of one name is meant.
* A `Held` list is what a pass returned or what a scanner listed as its errors.  As long as it is
  the list that the scanner itself works on, or shares its errors, it is kept as a view of the
  scanner; it is copied out at the moment when the scanner begins a new list.

The operations here are on the parts of a workspace; `LoxScan.Workspace.Command` has the commands.
-/

namespace LoxScan

/-- One of the sinks that have had a name, counted from zero. -/
structure SinkRef where
  name : String
  version : Nat
deriving DecidableEq, Repr

structure WiredScanner where
  scanner : Scanner
  reporter : Option SinkRef
deriving DecidableEq, Repr

inductive HeldItems where
  | tokens (items : List Token)
  | errors (items : List LexicalError)
deriving DecidableEq, Repr

def HeldItems.pop? : HeldItems → Option HeldItems
  | tokens items => if items.isEmpty then none else some (tokens items.dropLast)
  | errors items => if items.isEmpty then none else some (errors items.dropLast)

inductive Held where
  /-- The token list of a scanner, as it stands at any moment. -/
  | tokensOf (scanner : String)
  /-- The first errors of a scanner, as they stand at any moment. -/
  | errorsOf (scanner : String) (count : Nat)
  /-- A list that no scanner works on any more. -/
  | copy (items : HeldItems)
deriving DecidableEq, Repr

def Held.owner? : Held → Option String
  | tokensOf scanner => some scanner
  | errorsOf scanner _ => some scanner
  | copy _ => none

structure Workspace where
  scanners : Registry WiredScanner := .empty
  sinks : Registry (List Sink) := .empty
  held : Registry Held := .empty
deriving DecidableEq, Repr

namespace Workspace

def empty : Workspace := {}

/-! ## Sinks -/

def sinksNamed (w : Workspace) (name : String) : List Sink :=
  (w.sinks.find? name).getD []

def sinkRef? (w : Workspace) (name : String) : Option SinkRef :=
  match w.sinksNamed name with
  | [] => none
  | _ :: older => some ⟨name, older.length⟩

def sink? (w : Workspace) (ref : SinkRef) : Option Sink :=
  (w.sinksNamed ref.name)[ref.version]?

/-- Gives a name to a new sink.  The sinks that had it stay for the scanners wired to them. -/
def addSink (w : Workspace) (name : String) (sink : Sink) : Workspace :=
  { w with sinks := w.sinks.insert name (w.sinksNamed name ++ [sink]) }

def setSink (w : Workspace) (ref : SinkRef) (sink : Sink) : Workspace :=
  { w with sinks := w.sinks.insert ref.name ((w.sinksNamed ref.name).set ref.version sink) }

def outlet (w : Workspace) (reporter : Option SinkRef) : Outlet :=
  .ofSink (reporter.bind w.sink?)

def setOutlet (w : Workspace) (reporter : Option SinkRef) (outlet : Outlet) : Workspace :=
  match reporter, outlet.sink with
  | some ref, some sink => w.setSink ref sink
  | _, _ => w

/-- The sink that a reporter's name stands for; no name is no reporter. -/
def resolve (w : Workspace) : Option String → Except Failure (Option SinkRef)
  | none => .ok none
  | some name =>
    match w.sinkRef? name with
    | some ref => .ok (some ref)
    | none => .error (.unknownName name)

/-! ## Scanners -/

def setScanner (w : Workspace) (name : String) (wired : WiredScanner) : Workspace :=
  { w with scanners := w.scanners.insert name wired }

/-! ## Held lists -/

def setHeld (w : Workspace) (name : String) (held : Held) : Workspace :=
  { w with held := w.held.insert name held }

def hold (w : Workspace) (name : Option String) (held : Held) : Workspace :=
  match name with
  | some name => w.setHeld name held
  | none => w

def heldItems (w : Workspace) : Held → HeldItems
  | .tokensOf name =>
    .tokens ((w.scanners.find? name).elim [] fun wired => wired.scanner.tokens.toList)
  | .errorsOf name count =>
    .errors (((w.scanners.find? name).elim [] fun wired => wired.scanner.errors.toList).take count)
  | .copy items => items

/-- Copies out every held list that is a view of a scanner. -/
def detach (w : Workspace) (name : String) : Workspace :=
  { w with
    held := w.held.mapValues fun held =>
      if held.owner? = some name then .copy (w.heldItems held) else held }

/-- Takes the last item off a held list.  The token list of a scanner loses it in the scanner
    itself; a list of errors is a list of its own, even while it shares the errors. -/
def popHeld (w : Workspace) (name : String) (held : Held) : Except Failure Workspace :=
  match held with
  | .tokensOf scanner =>
    match w.scanners.find? scanner with
    | none => .error .emptyList
    | some wired =>
      if wired.scanner.tokens.isEmpty then .error .emptyList
      else
        let scanner' := { wired.scanner with tokens := wired.scanner.tokens.pop }
        .ok (w.setScanner scanner { wired with scanner := scanner' })
  -- the scanner keeps its errors; only the list that was handed out gets shorter
  | .errorsOf _ 0 => .error .emptyList
  | .errorsOf scanner (count + 1) => .ok (w.setHeld name (.errorsOf scanner count))
  | .copy items =>
    match items.pop? with
    | none => .error .emptyList
    | some items => .ok (w.setHeld name (.copy items))

end Workspace

end LoxScan
