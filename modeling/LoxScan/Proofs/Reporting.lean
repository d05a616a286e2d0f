import LoxScan.Proofs.Interruption
import LoxScan.Proofs.SinkState

/-! # Passes and their receivers

A pass tells its receiver of every error that it keeps, in order, and of nothing else.  What it
finds does not depend on the receiver, unless the receiver fails.

* `Receiver.Hears` says what a receiver was told, up to where it failed; `Receiver.AcceptsFrom` are
  the receivers that never fail.
* `Pass.Tells` is what some turns of a pass tell the receiver and the log; `tokenize_tells` is about
  whole passes.
* `tokenize_observed`: passes with different receivers find the same, and each receiver and the log
  have the errors in their own form.
-/

namespace LoxScan

variable {State Fault : Type}

/-! ## What a receiver hears -/

namespace Receiver

/-- A receiver is told some reports, one after the other; only the last one may make it fail. -/
inductive Hears (receive : Receiver State Fault) :
    State → List Report → Except Fault Unit → State → Prop
  | nil {state : State} : Hears receive state [] (.ok ()) state
  | fails {first last : State} {report : Report} {fault : Fault}
      (h : receive report first = (.error fault, last)) :
      Hears receive first [report] (.error fault) last
  | cons {first second last : State} {report : Report} {reports : List Report}
      {result : Except Fault Unit} (h : receive report first = (.ok (), second))
      (hrest : Hears receive second reports result last) :
      Hears receive first (report :: reports) result last

def AcceptsFrom (receive : Receiver State Fault) (state : State) : Prop :=
  ∀ reports, ∃ last, receive.Takes state reports last

variable {receive : Receiver State Fault} {first mid last : State} {reports : List Report}
  {result : Except Fault Unit}

theorem Hears.append {after : List Report} (h : receive.Hears first reports (.ok ()) mid)
    (hafter : receive.Hears mid after result last) :
    receive.Hears first (reports ++ after) result last := by
  generalize hok : Except.ok () = ended at h
  induction h with
  | nil => exact hafter
  | fails => cases hok
  | cons hreport _ ih => exact .cons hreport (ih hafter hok)

/-- The state of a receiver is made by what it was told. -/
theorem Hears.state_eq (h : receive.Hears first reports result last) :
    last = reports.foldl (fun state report => (receive report state).2) first := by
  induction h with
  | nil => rfl
  | fails hreport => simp [hreport]
  | cons hreport _ ih => simpa [hreport] using ih

/-- A receiver that would take more than it was told has not failed. -/
theorem Hears.ok_of_takes {all : List Report} {other : State}
    (h : receive.Hears first reports result last) (hstart : reports <+: all)
    (htakes : receive.Takes first all other) : result = .ok () := by
  induction h generalizing all with
  | nil => rfl
  | fails hreport =>
    obtain ⟨after, rfl⟩ := hstart
    cases htakes with
    | cons htaken _ =>
      rw [hreport] at htaken
      cases htaken
  | cons hreport _ ih =>
    obtain ⟨after, rfl⟩ := hstart
    cases htakes with
    | cons htaken hrest =>
      rw [hreport] at htaken
      cases htaken
      exact ih (List.prefix_append _ after) hrest

theorem Hears.ok_of_nil (h : receive.Hears first [] result last) : result = .ok () := by
  cases h
  rfl

theorem Hears.error_of_cons {report : Report} {fault : Fault}
    (h : receive.Hears first (report :: reports) result last)
    (hreport : receive report first = (.error fault, mid)) : result = .error fault := by
  cases h with
  | fails hfails =>
    rw [hreport] at hfails
    cases hfails
    rfl
  | cons htaken =>
    rw [hreport] at htaken
    cases htaken

theorem acceptsFrom_silent : silent.AcceptsFrom () :=
  fun reports => ⟨(), takes_silent reports⟩

end Receiver

/-! ## What a pass tells -/

namespace Pass

def withCalls (p : Pass State) (calls : List Report) : Pass (State × List Report) :=
  ⟨p.scanner, (p.state, calls), p.log⟩

/-- Some turns of a pass that keep some errors, one after the other.  The log and the receiver have
    each of them once, also if the receiver failed in the end. -/
structure Tells (receive : Receiver State Fault) (p : Pass State) (kept : List LexicalError)
    (ended : Except Fault Unit × Pass State) : Prop where
  errors : ended.2.scanner.errors.toList = p.scanner.errors.toList ++ kept
  log : ended.2.log.toList = p.log.toList ++ kept.map LexicalError.record
  hears : receive.Hears p.state (kept.map LexicalError.report) ended.1 ended.2.state

variable {receive : Receiver State Fault} {p q : Pass State}

theorem Tells.trans {first second : List LexicalError} {ended : Except Fault Unit × Pass State}
    (h : p.Tells receive first (.ok (), q)) (hrest : q.Tells receive second ended) :
    p.Tells receive (first ++ second) ended where
  errors := by rw [hrest.errors, h.errors, List.append_assoc]
  log := by rw [hrest.log, h.log, List.map_append, List.append_assoc]
  hears := by
    rw [List.map_append]
    exact h.hears.append hrest.hears

theorem takeItem_of_error?_eq_none (receive : Receiver State Fault) (p : Pass State) {item : Item}
    (h : item.error? p.scanner.filename p.scanner.line = none) :
    p.takeItem receive item = (.ok (), p.consume item) := by
  rw [takeItem, show (p.consume item).scanner.errorOf? item = none from
    (p.scanner.errorOf?_consume item).trans h]

theorem takeItem_tells (receive : Receiver State Fault) (p : Pass State) (item : Item) :
    p.Tells receive (item.error? p.scanner.filename p.scanner.line).toList
      (p.takeItem receive item) := by
  cases herror : item.error? p.scanner.filename p.scanner.line with
  | none =>
    rw [takeItem_of_error?_eq_none receive p herror]
    exact ⟨by simp [consume], by simp [consume], .nil⟩
  | some error =>
    rw [takeItem_of_error receive p herror]
    refine ⟨by simp [herror], by simp, ?_⟩
    rcases hreport : receive error.report p.state with ⟨_ | _, next⟩
    · exact .fails hreport
    · exact .cons hreport .nil

/-- To write down what the receiver is told changes nothing else. -/
theorem takeItem_recorded (receive : Receiver State Fault) (p : Pass State) (item : Item)
    (calls : List Report) :
    (p.withCalls calls).takeItem receive.recorded item =
      ((p.takeItem receive item).1, (p.takeItem receive item).2.withCalls (calls ++
        (item.error? p.scanner.filename p.scanner.line).toList.map LexicalError.report)) := by
  cases herror : item.error? p.scanner.filename p.scanner.line with
  | none =>
    have hcalls := takeItem_of_error?_eq_none receive.recorded (p.withCalls calls) herror
    rw [takeItem_of_error?_eq_none receive p herror, hcalls]
    simp [withCalls, consume]
  | some error =>
    have hcalls := takeItem_of_error receive.recorded (p.withCalls calls) herror
    rw [takeItem_of_error receive p herror, hcalls]
    rfl

theorem takeAll_tells (receive : Receiver State Fault) (found : List Item) (p : Pass State) :
    ∃ errors, p.Tells receive errors (takeAll receive found p) ∧
      ∀ calls, takeAll receive.recorded found (p.withCalls calls) =
        ((takeAll receive found p).1, (takeAll receive found p).2.withCalls
          (calls ++ errors.map LexicalError.report)) := by
  induction found generalizing p with
  | nil => exact ⟨[], ⟨by simp [takeAll], by simp [takeAll], .nil⟩, by simp [takeAll]⟩
  | cons item rest ih =>
    have htells := takeItem_tells receive p item
    have hrecorded := takeItem_recorded receive p item
    rw [takeAll_cons]
    simp only [takeAll_cons, hrecorded]
    rcases hturn : p.takeItem receive item with ⟨_ | _, q⟩
    all_goals rw [hturn] at htells
    case error => exact ⟨_, htells, fun calls => rfl⟩
    case ok =>
      obtain ⟨errors, hrest, hcalls⟩ := ih q
      refine ⟨_, htells.trans hrest, fun calls => ?_⟩
      rw [List.map_append, ← List.append_assoc]
      exact hcalls _

end Pass

/-! ## Whole passes -/

namespace Scanner

theorem source_filename_foldl_takeItem (taken : List Item) (s : Scanner) :
    (taken.foldl takeItem s).source = s.source ∧
      (taken.foldl takeItem s).filename = s.filename := by
  induction taken generalizing s with
  | nil => exact ⟨rfl, rfl⟩
  | cons item taken ih =>
    obtain ⟨hsource, hfilename⟩ := ih (s.takeItem item)
    exact ⟨hsource.trans (s.source_takeItem item), hfilename.trans (s.filename_takeItem item)⟩

/-- A pass goes on with the text and the file name that it began with, even if it is broken off. -/
theorem source_filename_tokenize (receive : Receiver State Fault) (s : Scanner) (state : State) :
    (s.tokenize receive state).2.scanner.source = s.source ∧
      (s.tokenize receive state).2.scanner.filename = s.filename := by
  obtain ⟨taken, -, htaken, -⟩ :=
    Pass.scanner_takeAll receive (items s.source.toList) (Pass.begin s state)
  obtain ⟨hsource, hfilename⟩ := source_filename_foldl_takeItem taken (Pass.begin s state).scanner
  rw [← htaken] at hsource hfilename
  rw [tokenize]
  rcases heq : Pass.takeAll receive (items s.source.toList) (Pass.begin s state) with ⟨_ | _, q⟩
  all_goals rw [heq] at hsource hfilename
  case error => exact ⟨hsource, hfilename⟩
  case ok => exact ⟨(source_emit ..).trans hsource, (filename_emit ..).trans hfilename⟩

def endRecord (s : Scanner) : Except Fault Unit → List LogRecord
  | .ok () => [.finished s.filename s.tokens.size s.errors.size]
  | .error _ => []

/-- A pass tells its receiver of the errors that the scanner has in the end, and so does its log. -/
theorem tokenize_tells (receive : Receiver State Fault) (s : Scanner) (state : State) :
    let ended := s.tokenize receive state
    let errors := ended.2.scanner.errors.toList
    receive.Hears state (errors.map LexicalError.report) ended.1 ended.2.state ∧
      s.tokenize receive.recorded (state, []) =
        (ended.1, ended.2.withCalls (errors.map LexicalError.report)) ∧
      ended.2.log.toList = .started s.filename s.source.length ::
        errors.map LexicalError.record ++ ended.2.scanner.endRecord ended.1 := by
  obtain ⟨errors, ⟨hkept, hlog, hhears⟩, hcalls⟩ :=
    Pass.takeAll_tells receive (items s.source.toList) (Pass.begin s state)
  have hcalls := hcalls []
  rw [show (Pass.begin s state).withCalls [] = Pass.begin s (state, []) from rfl] at hcalls
  simp only [tokenize]
  rw [hcalls]
  rcases heq : Pass.takeAll receive (items s.source.toList) (Pass.begin s state) with ⟨_ | _, q⟩
  all_goals rw [heq] at hkept hlog hhears
  case error =>
    obtain rfl : q.scanner.errors.toList = errors := hkept
    exact ⟨hhears, rfl, by rw [hlog]; simp [endRecord, Pass.begin]⟩
  case ok =>
    obtain rfl : q.scanner.errors.toList = errors := hkept
    rw [Pass.errors_finish]
    refine ⟨hhears, rfl, ?_⟩
    change q.log.toList = _ at hlog
    simp only [Pass.finish, Array.toList_push, hlog]
    rfl

theorem scanner_of_ended {receive : Receiver State Fault} {s : Scanner} {state : State}
    (h : (s.tokenize receive state).1 = .ok ()) :
    let whole := (items s.source.toList).foldl takeItem s.restart
    (s.tokenize receive state).2.scanner = whole.emit (some (Token.endOfInput whole.line)) := by
  obtain ⟨taken, -, htaken, hall⟩ :=
    Pass.scanner_takeAll receive (items s.source.toList) (Pass.begin s state)
  have hended := (tokenize_fst_state receive s state).1.symm.trans h
  obtain rfl := hall hended
  rw [tokenize]
  rcases heq : Pass.takeAll receive (items s.source.toList) (Pass.begin s state) with ⟨_ | _, q⟩
  all_goals rw [heq] at htaken hended
  case error => cases hended
  case ok =>
    change q.scanner = _ at htaken
    simp only [Pass.finish, htaken]
    rfl

/-- The receiver of a pass that has ended has no part in what was found. -/
theorem eq_run_of_ended {receive : Receiver State Fault} {s : Scanner} {state : State}
    (h : (s.tokenize receive state).1 = .ok ()) :
    (s.tokenize receive state).2.scanner = s.run.scanner ∧
      (s.tokenize receive state).2.log = s.run.log := by
  have hsilent := s.tokenize_fst_of_accepts Receiver.accepts_silent ()
  have hscanner : (s.tokenize receive state).2.scanner = s.run.scanner :=
    (scanner_of_ended h).trans (scanner_of_ended hsilent).symm
  obtain ⟨-, -, hlog⟩ := tokenize_tells receive s state
  obtain ⟨-, -, hsilentLog⟩ := tokenize_tells Receiver.silent s ()
  rw [h, hscanner] at hlog
  rw [hsilent] at hsilentLog
  exact ⟨hscanner, Array.toList_inj.1 (hlog.trans hsilentLog.symm)⟩

/-- The errors of a pass that was broken off are the first errors of the text. -/
theorem errors_prefix (receive : Receiver State Fault) (s : Scanner) (state : State) :
    (s.tokenize receive state).2.scanner.errors.toList <+: s.run.scanner.errors.toList := by
  obtain ⟨taken, ⟨left, hitems⟩, -, -, herrors⟩ := s.tokenize_spec receive state
  obtain ⟨-, hrun⟩ := tokenize_spec_of_ok (s.tokenize_fst_of_accepts Receiver.accepts_silent ())
  change s.run.scanner.errors.toList = _ at hrun
  rw [herrors, hrun, ← hitems]
  exact ⟨_, (gatherFrom_append _ 1 taken left).symm⟩

theorem tokenize_of_takes_all {receive : Receiver State Fault} {s : Scanner} {state last : State}
    (h : receive.Takes state (s.run.scanner.errors.toList.map LexicalError.report) last) :
    s.tokenize receive state = (.ok (), ⟨s.run.scanner,
      (s.run.scanner.errors.toList.map LexicalError.report).foldl
        (fun state report => (receive report state).2) state, s.run.log⟩) := by
  obtain ⟨hhears, -, -⟩ := tokenize_tells receive s state
  have hended := hhears.ok_of_takes ((s.errors_prefix receive state).map _) h
  obtain ⟨hscanner, hlog⟩ := eq_run_of_ended hended
  have hstate := hhears.state_eq
  rw [hscanner] at hstate
  rw [← hended, ← hstate, ← hscanner, ← hlog]

theorem tokenize_of_acceptsFrom {receive : Receiver State Fault} {state : State}
    (h : receive.AcceptsFrom state) (s : Scanner) :
    s.tokenize receive state = (.ok (), ⟨s.run.scanner,
      (s.run.scanner.errors.toList.map LexicalError.report).foldl
        (fun state report => (receive report state).2) state, s.run.log⟩) := by
  obtain ⟨last, htakes⟩ := h (s.run.scanner.errors.toList.map LexicalError.report)
  exact tokenize_of_takes_all htakes

end Scanner

/-! ## Outlets -/

namespace Outlet

theorem receive_some (r : Report) (sink : Sink) (shown : String) :
    receive r ⟨some sink, shown⟩ = ((sink.receive r).result,
      ⟨some (sink.receive r).sink, shown ++ (sink.receive r).shown⟩) := rfl

theorem foldl_receive (sink : Sink) (shown : String) (reports : List Report) :
    reports.foldl (fun outlet r => (receive r outlet).2) ⟨some sink, shown⟩ =
      ⟨some ((reports.map .report).foldl Sink.meet sink), shown ++ sink.textShown reports⟩ := by
  induction reports generalizing sink shown with
  | nil => rw [Sink.textShown_nil, String.append_empty]; rfl
  | cons r reports ih =>
    rw [List.foldl_cons, receive_some, ih, Sink.textShown_cons, String.append_assoc]
    rfl

theorem foldl_receive_none (shown : String) (reports : List Report) :
    reports.foldl (fun outlet r => (receive r outlet).2) ⟨none, shown⟩ = ⟨none, shown⟩ := by
  induction reports with
  | nil => rfl
  | cons r reports ih => exact ih

theorem acceptsFrom_none (shown : String) : receive.AcceptsFrom ⟨none, shown⟩ := by
  intro reports
  refine ⟨⟨none, shown⟩, ?_⟩
  induction reports with
  | nil => exact .nil
  | cons r reports ih => exact .cons rfl ih

theorem acceptsFrom_of_accepts {sink : Sink} (h : sink.accepts) (shown : String) :
    receive.AcceptsFrom ⟨some sink, shown⟩ := by
  intro reports
  induction reports generalizing sink shown with
  | nil => exact ⟨_, .nil⟩
  | cons r reports ih =>
    obtain ⟨last, hlast⟩ := ih (Sink.accepts_receive h r) (shown ++ (sink.receive r).shown)
    refine ⟨last, .cons ?_ hlast⟩
    rw [receive_some, Sink.result_receive_of_accepts h]

end Outlet

/-! ## Observers -/

namespace Scanner

variable (s : Scanner)

theorem tokenize_of_sink_accepts {sink : Sink} (h : sink.accepts) :
    let reports := s.run.scanner.errors.toList.map LexicalError.report
    s.tokenize Outlet.receive (.ofSink (some sink)) =
      (.ok (), ⟨s.run.scanner, ⟨some ((reports.map .report).foldl Sink.meet sink),
        sink.textShown reports⟩, s.run.log⟩) := by
  intro reports
  have hpass := tokenize_of_acceptsFrom (Outlet.acceptsFrom_of_accepts h "") s
  rw [Outlet.foldl_receive, String.empty_append] at hpass
  exact hpass

theorem tokenize_no_sink :
    s.tokenize Outlet.receive (.ofSink none) =
      (.ok (), ⟨s.run.scanner, .ofSink none, s.run.log⟩) := by
  have hpass := tokenize_of_acceptsFrom (Outlet.acceptsFrom_none "") s
  rw [Outlet.foldl_receive_none] at hpass
  exact hpass

theorem tokenize_collector (filename : Option String) (held : Array LexicalError) :
    s.tokenize Outlet.receive (.ofSink (some (.collector filename held))) =
      (.ok (), ⟨s.run.scanner, .ofSink (some (.collector filename
        (held ++ s.run.scanner.errors.map fun e => e.report.errorIn filename))), s.run.log⟩) := by
  have hcollected : ((s.run.scanner.errors.toList.map LexicalError.report).map
      (Report.errorIn filename)).toArray
        = s.run.scanner.errors.map fun e => e.report.errorIn filename := by
    apply Array.toList_inj.1
    simp
  rw [s.tokenize_of_sink_accepts rfl, Sink.foldl_meet_collector, sinceClear_map_report, hcollected,
    if_neg (by simp)]
  rfl

theorem tokenize_stream (written : String) (hadError : Bool) :
    s.tokenize Outlet.receive (.ofSink (some (.stream written hadError))) =
      (.ok (), ⟨s.run.scanner, .ofSink (some (.stream
        (written ++ reportLines (s.run.scanner.errors.toList.map LexicalError.report))
        (hadError || !s.run.scanner.errors.isEmpty))), s.run.log⟩) := by
  rw [s.tokenize_of_sink_accepts rfl, Sink.foldl_meet_stream, reportsOf_map_report,
    List.isEmpty_map, Array.isEmpty_toList]
  rfl

theorem tokenize_terminal (hadError : Bool) :
    s.tokenize Outlet.receive (.ofSink (some (.terminal hadError))) =
      (.ok (), ⟨s.run.scanner, ⟨some (.terminal (hadError || !s.run.scanner.errors.isEmpty)),
        reportLines (s.run.scanner.errors.toList.map LexicalError.report)⟩, s.run.log⟩) := by
  rw [s.tokenize_of_sink_accepts rfl, Sink.foldl_meet_terminal, reportsOf_map_report,
    List.isEmpty_map, Array.isEmpty_toList]
  rfl

end Scanner

/-- Receivers that do not fail leave a pass as it is.  Each is told of every error once, in order;
    collectors, streams and the log have the errors in their own form. -/
theorem tokenize_observed {State' Fault' : Type} {receive : Receiver State Fault}
    {other : Receiver State' Fault'} {state : State} {state' : State'}
    (haccepts : receive.AcceptsFrom state) (haccepts' : other.AcceptsFrom state') (s : Scanner) :
    let p := (s.tokenize receive state).2
    let errors := p.scanner.errors
    let lines := String.join (errors.toList.map fun e =>
      "[line " ++ toString e.line ++ "] Error: " ++ e.message ++ "\n")
    (s.tokenize receive state).1 = .ok () ∧ (s.tokenize other state').1 = .ok () ∧
      (s.tokenize other state').2.scanner = p.scanner ∧ (s.tokenize other state').2.log = p.log ∧
      s.tokenize receive.recorded (state, []) =
        (.ok (), ⟨p.scanner, (p.state, errors.toList.map fun e => ⟨e.line, e.message⟩), p.log⟩) ∧
      s.tokenize Outlet.receive (.ofSink none) = (.ok (), ⟨p.scanner, .ofSink none, p.log⟩) ∧
      (∀ filename held, s.tokenize Outlet.receive (.ofSink (some (.collector filename held))) =
        (.ok (), ⟨p.scanner, .ofSink (some (.collector filename (held ++ errors.map fun e =>
          .ofMessage e.message ⟨filename, e.line⟩ none none))), p.log⟩)) ∧
      (∀ written hadError, s.tokenize Outlet.receive (.ofSink (some (.stream written hadError))) =
        (.ok (), ⟨p.scanner, .ofSink (some (.stream (written ++ lines)
          (hadError || !errors.isEmpty))), p.log⟩)) ∧
      (∀ hadError, s.tokenize Outlet.receive (.ofSink (some (.terminal hadError))) =
        (.ok (), ⟨p.scanner, ⟨some (.terminal (hadError || !errors.isEmpty)), lines⟩, p.log⟩)) ∧
      p.log.toList = .started s.filename s.source.length ::
        (errors.toList.map fun e => .found e.diagnostic.location e.message) ++
          [.finished s.filename p.scanner.tokens.size errors.size] := by
  intro p errors lines
  have hpass := Scanner.tokenize_of_acceptsFrom haccepts s
  have hpass' := Scanner.tokenize_of_acceptsFrom haccepts' s
  have hended : (s.tokenize receive state).1 = .ok () := by rw [hpass]
  have hscanner : s.run.scanner = p.scanner := by simp only [p, hpass]
  have hlog : s.run.log = p.log := by simp only [p, hpass]
  obtain ⟨-, hrecorded, hrecords⟩ := Scanner.tokenize_tells receive s state
  have hfilename : p.scanner.filename = s.filename :=
    (s.source_filename_tokenize receive state).2
  have hlines : lines = reportLines (errors.toList.map LexicalError.report) := by
    simp only [lines, reportLines, List.map_map]
    rfl
  rw [hended] at hrecorded hrecords
  rw [Scanner.endRecord, hfilename] at hrecords
  rw [hscanner, hlog] at hpass'
  rw [hpass', hlines]
  refine ⟨hended, rfl, rfl, rfl, hrecorded, ?_, ?_, ?_, ?_, ?_⟩
  · rw [s.tokenize_no_sink, hscanner, hlog]
  · intro filename held
    rw [s.tokenize_collector, hscanner, hlog]
    rfl
  · intro written hadError
    rw [s.tokenize_stream, hscanner, hlog]
  · intro hadError
    rw [s.tokenize_terminal, hscanner, hlog]
  · exact hrecords

/-- A rejected character and a string that is not closed, reported to a collector of another file
    and to no one. -/
theorem tokenize_observed_collector :
    let s := Scanner.new "@\n\"a" (some "a.lox")
    let collected := Outlet.ofSink (some (.collector none #[]))
    let p := (s.tokenize Outlet.receive collected).2
    Outlet.receive.AcceptsFrom collected ∧ Receiver.silent.AcceptsFrom () ∧
      (s.tokenize Receiver.silent ()).2.scanner = p.scanner ∧
      p.state = .ofSink (some (.collector none #[
        .ofMessage "Unexpected character." ⟨none, 1⟩ none none,
        .ofMessage "Unterminated string." ⟨none, 2⟩ none none])) ∧
      p.log.toList = [.started (some "a.lox") 4,
        .found ⟨some "a.lox", 1⟩ "Unexpected character.",
        .found ⟨some "a.lox", 2⟩ "Unterminated string.", .finished (some "a.lox") 1 2] := by
  intro s collected p
  have haccepts : Outlet.receive.AcceptsFrom collected := Outlet.acceptsFrom_of_accepts rfl ""
  obtain ⟨-, -, hscanner, -, -, -, hcollector, -, -, -⟩ :=
    tokenize_observed haccepts Receiver.acceptsFrom_silent s
  have hstate : p.state = .ofSink (some (.collector none (#[] ++ p.scanner.errors.map fun e =>
      .ofMessage e.message ⟨none, e.line⟩ none none))) :=
    congrArg (fun ended => ended.2.state) (hcollector none #[])
  refine ⟨haccepts, Receiver.acceptsFrom_silent, hscanner, hstate.trans ?_, ?_⟩
  all_goals decide +kernel

end LoxScan
