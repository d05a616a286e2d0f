import LoxScan.Scanner

/-! # Sinks

A sink is a receiver of reports with a state that can be looked at.

* `Sink` lists the kinds of sink, `Sink.receive` is what each does with a report.
* `Outlet` joins a sink that may be absent with the text that reaches the terminal; a scan reports
  to it by `Outlet.receive`.
-/

namespace LoxScan

inductive Sink where
  /-- Keeps every report as an error of a file of its own. -/
  | collector (filename : Option String) (errors : Array LexicalError)
  /-- Writes a line for every report and remembers whether there was any. -/
  | stream (written : String) (hadError : Bool)
  /-- Writes the same lines to the terminal. -/
  | terminal (hadError : Bool)
  /-- A stream that is closed: no report gets through. -/
  | closed
  /-- A sink that cannot take reports. -/
  | unimplemented
  /-- Takes reports and fails as soon as it holds a given number. -/
  | limited (limit : Int) (reports : Array Report)
deriving DecidableEq, Repr

/-- What a report leads to: whether it got through, the sink after it, and the text that goes to
    the terminal. -/
structure Delivery where
  result : Except Failure Unit
  sink : Sink
  shown : String

namespace Sink

def hadError : Sink → Bool
  | collector _ errors => !errors.isEmpty
  | stream _ hadError => hadError
  | terminal hadError => hadError
  | _ => false

def written : Sink → String
  | stream written _ => written
  | _ => ""

def newStream : Sink :=
  stream "" false

def receive (r : Report) : Sink → Delivery
  | collector filename errors =>
    let error := LexicalError.ofMessage r.message ⟨filename, r.line⟩ none none
    ⟨.ok (), collector filename (errors.push error), ""⟩
  | stream written _ => ⟨.ok (), stream (written ++ r.text) true, ""⟩
  | terminal _ => ⟨.ok (), terminal true, r.text⟩
  | closed => ⟨.error .closedStream, closed, ""⟩
  | unimplemented => ⟨.error .noReceiver, unimplemented, ""⟩
  | limited limit reports =>
    let reports := reports.push r
    let result : Except Failure Unit :=
      if limit ≤ reports.size then .error .reportLimit else .ok ()
    ⟨result, limited limit reports, ""⟩

def clear : Sink → Sink
  | collector filename _ => collector filename #[]
  | other => other

end Sink

/-! ## Outlets -/

/-- Where a scan reports to: a sink, if there is one, and the text on the terminal. -/
structure Outlet where
  sink : Option Sink
  shown : String
deriving DecidableEq, Repr

namespace Outlet

def ofSink (sink : Option Sink) : Outlet :=
  ⟨sink, ""⟩

/-- Reports go to the sink; without a sink they are dropped. -/
def receive : Receiver Outlet Failure := fun report outlet =>
  match outlet.sink with
  | none => (.ok (), outlet)
  | some sink =>
    let delivery := sink.receive report
    (delivery.result, ⟨some delivery.sink, outlet.shown ++ delivery.shown⟩)

end Outlet

def scanTo (outlet : Outlet) (source : String) (filename : Option String) :
    Except Failure Unit × Pass Outlet :=
  (Scanner.new source filename).tokenize Outlet.receive outlet

end LoxScan
