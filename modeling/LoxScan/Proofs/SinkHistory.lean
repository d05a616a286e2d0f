import LoxScan.Proofs.Frame
import LoxScan.Proofs.Reporting

/-! # Sinks in the course of a session

Scanners, texts that are scanned once, and direct reports share the sinks of a workspace.  What a
sink has in the end depends only on what it met in the meantime.

* `Workspace.eventsAt` is what one command lets a sink meet, `Workspace.events` what a session does.
* `sink?_perform` and `sink?_session`: a sink becomes what its events make of it.
* `Workspace.Alarms` are the commands that have to report; `reportsOf_eventsAt_ne_nil_iff` says that
  they do, and no other ones.
* `sinks_of_session` has collectors, open streams and closed streams after any session.
-/

namespace LoxScan

def Scanner.reportsTo (s : Scanner) (outlet : Outlet) : List Report :=
  (s.tokenize Outlet.receive.recorded (outlet, [])).2.state.2

namespace Workspace

/-- What a sink meets in a pass of a scanner that reports to it, or to another one. -/
def passEvents (w : Workspace) (ref : SinkRef) (s : Scanner) (reporter : Option SinkRef) :
    List SinkEvent :=
  if reporter = some ref then (s.reportsTo (w.outlet reporter)).map .report else []

def stepEvents (ref : SinkRef) (wired : WiredScanner) : List SinkEvent :=
  match wired.scanner.step.1 with
  | .faulty error => if wired.reporter = some ref then [.report error.report] else []
  | _ => []

def eventsAt (w : Workspace) (ref : SinkRef) : Command → List SinkEvent
  | .report name r => if w.sinkRef? name = some ref then [.report r] else []
  | .clear name => if w.sinkRef? name = some ref then [.clear] else []
  | .tokenize name _ =>
    (w.scanners.find? name).elim [] fun wired => w.passEvents ref wired.scanner wired.reporter
  | .scan source filename reporter =>
    w.passEvents ref (.new source filename) (reporter.bind w.sinkRef?)
  | .stepReport name => (w.scanners.find? name).elim [] (stepEvents ref)
  | _ => []

def events (ref : SinkRef) : List Request → Workspace → List SinkEvent
  | [], _ => []
  | request :: rest, w => w.eventsAt ref request.command ++ events ref rest (w.reply request).2

/-- The commands that make a report to a sink: direct reports, and passes over a text with a lexical
    error. -/
inductive Alarms (w : Workspace) (ref : SinkRef) : Command → Prop
  | report {name : String} {r : Report} (href : w.sinkRef? name = some ref) :
      Alarms w ref (.report name r)
  | tokenize {name : String} {hold : Option String} {wired : WiredScanner}
      (hfind : w.scanners.find? name = some wired) (href : wired.reporter = some ref)
      (hfaulty : (LoxScan.scan wired.scanner.source wired.scanner.filename).hasErrors) :
      Alarms w ref (.tokenize name hold)
  | scan {source name : String} {filename : Option String} (href : w.sinkRef? name = some ref)
      (hfaulty : (LoxScan.scan source filename).hasErrors) :
      Alarms w ref (.scan source filename name)
  | stepReport {name : String} {wired : WiredScanner} {error : LexicalError}
      (hfind : w.scanners.find? name = some wired) (href : wired.reporter = some ref)
      (hfaulty : wired.scanner.step.1 = .faulty error) : Alarms w ref (.stepReport name)

def hadErrorAfter (requests : List Request) (w : Workspace) (ref : SinkRef) : Bool :=
  ((session requests w).2.sink? ref).any Sink.hadError

end Workspace

/-! ## Reports of a pass -/

namespace Scanner

variable (s : Scanner)

theorem reportsTo_eq (outlet : Outlet) :
    s.reportsTo outlet =
      (s.tokenize Outlet.receive outlet).2.scanner.errors.toList.map LexicalError.report := by
  obtain ⟨-, hrecorded, -⟩ := tokenize_tells Outlet.receive s outlet
  exact congrArg (fun ended => ended.2.state.2) hrecorded

theorem hears_reportsTo (outlet : Outlet) :
    let ended := s.tokenize Outlet.receive outlet
    Outlet.receive.Hears outlet (s.reportsTo outlet) ended.1 ended.2.state := by
  rw [reportsTo_eq]
  exact (tokenize_tells Outlet.receive s outlet).1

theorem sink_tokenize (sink : Sink) :
    (s.tokenize Outlet.receive (.ofSink (some sink))).2.state.sink =
      some (((s.reportsTo (.ofSink (some sink))).map .report).foldl Sink.meet sink) := by
  rw [(s.hears_reportsTo _).state_eq, Outlet.ofSink, Outlet.foldl_receive]

theorem eq_run_of_reportsTo_eq_nil {outlet : Outlet} (h : s.reportsTo outlet = []) :
    (s.tokenize Outlet.receive outlet).2.scanner = s.run.scanner := by
  have hhears := s.hears_reportsTo outlet
  rw [h] at hhears
  exact (eq_run_of_ended hhears.ok_of_nil).1

/-- A pass makes reports just if its text has an error, whatever the sink does with them. -/
theorem reportsTo_ne_nil_iff (outlet : Outlet) :
    s.reportsTo outlet ≠ [] ↔ (scan s.source s.filename).hasErrors := by
  have hfresh : (scan s.source s.filename).hasErrors ↔ s.run.scanner.errors.toList ≠ [] := by
    rw [hasErrors, Bool.not_eq_true', ← Array.isEmpty_toList, List.isEmpty_eq_false_iff]
    rfl
  rw [hfresh, not_iff_not]
  constructor
  · intro hnone
    have hkept := s.reportsTo_eq outlet
    rw [s.eq_run_of_reportsTo_eq_nil hnone, hnone] at hkept
    exact List.map_eq_nil_iff.1 hkept.symm
  · intro hnone
    have hstart := s.errors_prefix Outlet.receive outlet
    rw [hnone, List.prefix_nil] at hstart
    rw [reportsTo_eq, hstart, List.map_nil]

/-- A closed stream breaks off every pass that reports to it. -/
theorem tokenize_closed (h : (scan s.source s.filename).hasErrors) :
    (s.tokenize Outlet.receive (.ofSink (some .closed))).1 = .error .closedStream := by
  obtain ⟨r, reports, hreports⟩ := List.exists_cons_of_ne_nil
    ((s.reportsTo_ne_nil_iff (.ofSink (some .closed))).2 h)
  have hhears := s.hears_reportsTo (.ofSink (some .closed))
  rw [hreports] at hhears
  exact hhears.error_of_cons (Outlet.receive_some r .closed "")

end Scanner

namespace Workspace

variable {w v : Workspace} {ref : SinkRef} {sink : Sink}

/-! ## Single commands -/

theorem sink?_onSink (hsink : w.sink? ref = some sink) (name : String) (act : Sink → Delivery) :
    (w.onSink name act).2.sink? ref =
      some (if w.sinkRef? name = some ref then (act sink).sink else sink) := by
  rw [onSink]
  cases hfound : w.currentSink name with
  | error failure =>
    have hne : w.sinkRef? name ≠ some ref := by
      intro href
      rw [currentSink_eq href hsink] at hfound
      cases hfound
    rw [if_neg hne]
    exact hsink
  | ok found =>
    have href := sinkRef?_of_currentSink hfound
    obtain ⟨other, otherSink⟩ := found
    simp only [sink?_setSink_of_some w hsink, href, Option.some.injEq]
    by_cases hother : other = ref
    · rw [hother] at href
      rw [currentSink_eq href hsink] at hfound
      cases hfound
      rfl
    · rw [if_neg hother, if_neg hother]

theorem sink?_setOutlet (hsink : w.sink? ref = some sink) (reporter : Option SinkRef)
    (outlet : Outlet) :
    (w.setOutlet reporter outlet).sink? ref =
      some (if reporter = some ref then outlet.sink.getD sink else sink) := by
  obtain ⟨after, shown⟩ := outlet
  cases reporter with
  | none => exact hsink
  | some other =>
    cases after with
    | none =>
      simp only [setOutlet, Option.getD_none, ite_self]
      exact hsink
    | some after =>
      simp only [setOutlet, sink?_setSink_of_some w hsink, Option.some.injEq, Option.getD_some]

theorem outlet_some (hsink : w.sink? ref = some sink) :
    w.outlet (some ref) = .ofSink (some sink) := by
  rw [outlet, Option.bind_some, hsink]

theorem sink?_passed (hsinks : v.sinks = w.sinks) (hsink : w.sink? ref = some sink) (s : Scanner)
    (reporter : Option SinkRef) :
    (v.setOutlet reporter (s.tokenize Outlet.receive (w.outlet reporter)).2.state).sink? ref =
      some ((w.passEvents ref s reporter).foldl Sink.meet sink) := by
  rw [sink?_setOutlet ((sink?_congr hsinks ref).trans hsink), passEvents]
  split
  case isTrue href =>
    rw [href, outlet_some hsink, s.sink_tokenize]
    rfl
  case isFalse => rfl

theorem sink?_tokenize (hsink : w.sink? ref = some sink) (name : String) (hold : Option String) :
    (w.tokenize name hold).2.sink? ref =
      some ((w.eventsAt ref (.tokenize name hold)).foldl Sink.meet sink) := by
  simp only [Workspace.tokenize, eventsAt]
  cases w.scanners.find? name with
  | none => exact hsink
  | some wired =>
    have hpassed := sink?_passed (w := w) (v := (w.detach name).setScanner name
      { wired with scanner := (wired.scanner.tokenize Outlet.receive
        (w.outlet wired.reporter)).2.scanner }) rfl hsink wired.scanner wired.reporter
    simp only
    rcases heq : wired.scanner.tokenize Outlet.receive (w.outlet wired.reporter) with
      ⟨_ | _, pass⟩
    all_goals rw [heq] at hpassed
    case error => exact hpassed
    case ok => exact (sink?_congr (sinks_hold _ _ _) ref).trans hpassed

theorem sink?_scan (hsink : w.sink? ref = some sink) (source : String)
    (filename reporter : Option String) :
    (w.scan source filename reporter).2.sink? ref =
      some ((w.eventsAt ref (.scan source filename reporter)).foldl Sink.meet sink) := by
  simp only [Workspace.scan, eventsAt, bind_sinkRef?]
  cases w.resolve reporter with
  | error failure =>
    rw [passEvents, if_neg fun href => nomatch href]
    exact hsink
  | ok found => exact sink?_passed rfl hsink (.new source filename) found

theorem sink?_stepReport (hsink : w.sink? ref = some sink) (name : String) :
    (w.stepReport name).2.sink? ref =
      some ((w.eventsAt ref (.stepReport name)).foldl Sink.meet sink) := by
  simp only [Workspace.stepReport, eventsAt]
  cases w.scanners.find? name with
  | none => exact hsink
  | some wired =>
    simp only [Option.elim_some, stepEvents]
    rcases wired.scanner.step with ⟨_ | error | _, after⟩
    case taken | atEnd => exact hsink
    case faulty =>
      refine (sink?_setOutlet (w := w.setScanner name _) hsink _ _).trans ?_
      split
      case isTrue href =>
        rw [href, outlet_some hsink]
        rfl
      case isFalse => rfl

theorem sink?_heldPop (hsink : w.sink? ref = some sink) (name : String) :
    (w.perform (.heldPop name)).2.sink? ref = some sink := by
  simp only [perform]
  cases w.held.find? name with
  | none => exact hsink
  | some held =>
    cases hpop : w.popHeld name held with
    | error failure =>
      simp only [hpop]
      exact hsink
    | ok after =>
      simp only [hpop]
      exact (sink?_congr (sinks_popHeld hpop) ref).trans hsink

theorem sink?_perform (hsink : w.sink? ref = some sink) (command : Command) :
    (w.perform command).2.sink? ref = some ((w.eventsAt ref command).foldl Sink.meet sink) := by
  have hstill : ∀ {v : Workspace}, v.sinks = w.sinks → v.sink? ref = some sink :=
    fun h => (sink?_congr h ref).trans hsink
  cases command with
  | makeSink name added => exact sink?_addSink w hsink name added
  | report name | clear name =>
    rw [perform, sink?_onSink hsink, eventsAt]
    split <;> rfl
  | tokenize name hold => exact sink?_tokenize hsink name hold
  | scan source filename reporter => exact sink?_scan hsink source filename reporter
  | stepReport name => exact sink?_stepReport hsink name
  | heldPop name => exact sink?_heldPop hsink name
  | makeScanner =>
    simp only [perform]
    split <;> exact hsink
  | diagnostics =>
    simp only [perform]
    split
    case h_1 => exact hsink
    case h_2 => exact hstill (w.sinks_hold _ _)
  | held | sameTokens =>
    simp only [perform]
    split <;> exact hsink
  | set name edit => exact hstill (w.sinks_edit name edit)
  | sinkState | hasErrors | contents | peek | peekNext | atEnd =>
    simp only [perform, askScanner_snd]
    exact hsink
  | editDiagnostic | step | advance | accept => exact hstill (w.sinks_onScanner ..)

/-! ## Commands that make reports -/

theorem reportsOf_passEvents_ne_nil_iff {s : Scanner} {reporter : Option SinkRef} :
    reportsOf (w.passEvents ref s reporter) ≠ [] ↔
      reporter = some ref ∧ (LoxScan.scan s.source s.filename).hasErrors := by
  rw [passEvents]
  split
  case isTrue href =>
    rw [reportsOf_map_report, s.reportsTo_ne_nil_iff, and_iff_right href]
  case isFalse href => simp [href]

theorem alarms_of_reportsOf_ne_nil {command : Command}
    (h : reportsOf (w.eventsAt ref command) ≠ []) : w.Alarms ref command := by
  cases command with
  | report name r =>
    rw [eventsAt] at h
    split at h
    case isTrue href => exact .report href
    case isFalse => exact absurd rfl h
  | clear name =>
    rw [eventsAt] at h
    split at h <;> exact absurd rfl h
  | tokenize name hold =>
    rw [eventsAt] at h
    cases hfind : w.scanners.find? name with
    | none =>
      rw [hfind] at h
      exact absurd rfl h
    | some wired =>
      rw [hfind] at h
      obtain ⟨href, hfaulty⟩ := reportsOf_passEvents_ne_nil_iff.1 h
      exact .tokenize hfind href hfaulty
  | scan source filename reporter =>
    obtain ⟨href, hfaulty⟩ := reportsOf_passEvents_ne_nil_iff.1 h
    obtain ⟨name, rfl, href⟩ := Option.bind_eq_some_iff.1 href
    exact .scan href hfaulty
  | stepReport name =>
    rw [eventsAt] at h
    cases hfind : w.scanners.find? name with
    | none =>
      rw [hfind] at h
      exact absurd rfl h
    | some wired =>
      rw [hfind, Option.elim_some, stepEvents] at h
      split at h
      case h_1 error hfaulty =>
        split at h
        case isTrue href => exact .stepReport hfind href hfaulty
        case isFalse => exact absurd rfl h
      case h_2 => exact absurd rfl h
  | _ => exact absurd rfl h

/-- A command reports to a sink just if it is one that has to. -/
theorem reportsOf_eventsAt_ne_nil_iff {command : Command} :
    reportsOf (w.eventsAt ref command) ≠ [] ↔ w.Alarms ref command := by
  refine ⟨alarms_of_reportsOf_ne_nil, fun h => ?_⟩
  cases h with
  | report href =>
    rw [eventsAt, if_pos href]
    exact List.cons_ne_nil _ _
  | tokenize hfind href hfaulty =>
    rw [eventsAt, hfind]
    exact reportsOf_passEvents_ne_nil_iff.2 ⟨href, hfaulty⟩
  | scan href hfaulty =>
    rw [eventsAt, Option.bind_some, href]
    exact reportsOf_passEvents_ne_nil_iff.2 ⟨rfl, hfaulty⟩
  | stepReport hfind href hfaulty =>
    simp only [eventsAt, hfind, Option.elim_some, stepEvents, hfaulty, if_pos href]
    exact List.cons_ne_nil _ _

theorem perform_closed {command : Command} (hsink : w.sink? ref = some .closed)
    (h : w.Alarms ref command) : (w.perform command).1.result = .error .closedStream := by
  cases h with
  | report href =>
    rw [perform, onSink, currentSink_eq href hsink]
    rfl
  | @tokenize name hold wired hfind href hfaulty =>
    have hpass := wired.scanner.tokenize_closed hfaulty
    simp only [perform, Workspace.tokenize, hfind, href, outlet_some hsink]
    rcases heq : wired.scanner.tokenize Outlet.receive (.ofSink (some .closed)) with ⟨_, pass⟩
    rw [heq] at hpass
    obtain rfl : _ = Except.error Failure.closedStream := hpass
    rfl
  | @scan source name filename href hfaulty =>
    have hpass := (Scanner.new source filename).tokenize_closed hfaulty
    have hfound : w.resolve (some name) = .ok (some ref) := by rw [resolve, href]
    simp only [perform, Workspace.scan, hfound, outlet_some hsink, scanTo, hpass]
    rfl
  | @stepReport name wired error hfind href hfaulty =>
    rcases hstep : wired.scanner.step with ⟨_, after⟩
    rw [hstep] at hfaulty
    obtain rfl : _ = Scanner.StepResult.faulty error := hfaulty
    simp only [perform, Workspace.stepReport, hfind, hstep, href, outlet_some hsink]
    rfl

/-! ## Sessions -/

theorem sink?_session (requests : List Request) (hsink : w.sink? ref = some sink) :
    (session requests w).2.sink? ref =
      some ((events ref requests w).foldl Sink.meet sink) := by
  induction requests generalizing w sink with
  | nil => exact hsink
  | cons request rest ih =>
    rw [events, List.foldl_append]
    exact ih (sink?_perform hsink request.command)

theorem events_append (earlier later : List Request) :
    events ref (earlier ++ later) w =
      events ref earlier w ++ events ref later (session earlier w).2 := by
  induction earlier generalizing w with
  | nil => rfl
  | cons request earlier ih =>
    rw [List.cons_append, events, ih, events, List.append_assoc]
    rfl

/-- A sink was told something in a session just if some command had to tell it. -/
theorem reportsOf_events_ne_nil_iff {requests : List Request} :
    reportsOf (events ref requests w) ≠ [] ↔
      ∃ earlier request later, requests = earlier ++ request :: later ∧
        (session earlier w).2.Alarms ref request.command := by
  induction requests generalizing w with
  | nil => simp [events]
  | cons request rest ih =>
    have hnil : reportsOf (events ref (request :: rest) w) ≠ [] ↔
        reportsOf (w.eventsAt ref request.command) ≠ [] ∨
          reportsOf (events ref rest (w.reply request).2) ≠ [] := by
      rw [events, reportsOf_append, Ne, List.append_eq_nil_iff, not_and_or]
    rw [hnil, reportsOf_eventsAt_ne_nil_iff, ih]
    constructor
    · rintro (hfirst | ⟨earlier, other, later, rfl, hother⟩)
      · exact ⟨[], request, rest, rfl, hfirst⟩
      · exact ⟨request :: earlier, other, later, rfl, hother⟩
    · rintro ⟨earlier, other, later, hsplit, hother⟩
      cases earlier with
      | nil =>
        obtain ⟨rfl, rfl⟩ := List.cons.inj hsplit
        exact .inl hother
      | cons first earlier =>
        obtain ⟨rfl, rfl⟩ := List.cons.inj hsplit
        exact .inr ⟨earlier, other, later, rfl, hother⟩

/-- The sinks that write lines remember an error just if they were told one. -/
theorem hadErrorAfter_iff (requests : List Request)
    (hsink : w.sink? ref = some .newStream ∨ w.sink? ref = some (.terminal false)) :
    hadErrorAfter requests w ref ↔ reportsOf (events ref requests w) ≠ [] := by
  obtain hsink | hsink := hsink
  · rw [hadErrorAfter, sink?_session requests hsink, Sink.newStream, Sink.foldl_meet_stream]
    simp [Sink.hadError]
  · rw [hadErrorAfter, sink?_session requests hsink, Sink.foldl_meet_terminal]
    simp [Sink.hadError]

theorem hadErrorAfter_append (earlier later : List Request)
    (hsink : w.sink? ref = some .newStream ∨ w.sink? ref = some (.terminal false))
    (h : hadErrorAfter earlier w ref) : hadErrorAfter (earlier ++ later) w ref := by
  rw [hadErrorAfter_iff _ hsink] at h ⊢
  rw [events_append, reportsOf_append]
  exact List.append_ne_nil_of_left_ne_nil h _

end Workspace

/-- Collectors hold what was reported since they were last cleared, open streams have a line for every
    report, and closed streams fail at every report.  Once an open stream remembers an error it does
    so for ever; it does so just if a text with a lexical error was scanned for it, or it was told
    of an error directly. -/
theorem sinks_of_session (ref : SinkRef) (requests : List Request) (w : Workspace) :
    let events := Workspace.events ref requests w
    let after := (Workspace.session requests w).2.sink? ref
    let hadError := fun requests => Workspace.hadErrorAfter requests w ref
    (∀ filename, w.sink? ref = some (.collector filename #[]) →
      let collected := (sinceClear events).map fun r =>
        LexicalError.ofMessage r.message ⟨filename, r.line⟩ none none
      after = some (.collector filename collected.toArray) ∧
        (hadError requests ↔ collected ≠ [])) ∧
    (w.sink? ref = some .newStream →
      after = some (.stream (String.join ((reportsOf events).map fun r =>
        "[line " ++ toString r.line ++ "] Error: " ++ r.message ++ "\n")) (hadError requests))) ∧
    (w.sink? ref = some .newStream ∨ w.sink? ref = some (.terminal false) →
      (hadError requests ↔ reportsOf events ≠ []) ∧
        (hadError requests ↔ ∃ earlier request later, requests = earlier ++ request :: later ∧
          (Workspace.session earlier w).2.Alarms ref request.command) ∧
        ∀ earlier later, requests = earlier ++ later → hadError earlier → hadError requests) ∧
    (w.sink? ref = some .closed →
      after = some .closed ∧ hadError requests = false ∧
        ∀ earlier request later, requests = earlier ++ request :: later →
          (Workspace.session earlier w).2.Alarms ref request.command →
          ((Workspace.session earlier w).2.reply request).1.response.result
            = .error .closedStream) := by
  intro events after hadError
  refine ⟨?_, ?_, ?_, ?_⟩
  · intro filename hsink collected
    have hafter : after = some (.collector filename collected.toArray) := by
      have hmet := Workspace.sink?_session requests hsink
      rw [Sink.foldl_meet_collector, ite_self, Array.empty_append] at hmet
      exact hmet
    have hremembers : hadError requests = (Sink.collector filename collected.toArray).hadError := by
      simp only [hadError, Workspace.hadErrorAfter]
      rw [show (Workspace.session requests w).2.sink? ref = _ from hafter, Option.any_some]
    refine ⟨hafter, ?_⟩
    simp [hremembers, Sink.hadError]
  · intro hsink
    have hmet := Workspace.sink?_session requests hsink
    rw [Sink.newStream, Sink.foldl_meet_stream, String.empty_append, Bool.false_or] at hmet
    have hremembers : hadError requests = !(reportsOf events).isEmpty := by
      simp only [hadError, Workspace.hadErrorAfter, hmet, Option.any_some, Sink.hadError]
      rfl
    rw [hremembers]
    exact hmet
  · intro hsink
    have hremembers := Workspace.hadErrorAfter_iff requests hsink
    refine ⟨hremembers, hremembers.trans Workspace.reportsOf_events_ne_nil_iff, ?_⟩
    rintro earlier later rfl hearlier
    exact Workspace.hadErrorAfter_append earlier later hsink hearlier
  · intro hsink
    have hclosed : ∀ requests, (Workspace.session requests w).2.sink? ref = some .closed := by
      intro requests
      rw [Workspace.sink?_session requests hsink, Sink.foldl_meet_closed]
    refine ⟨hclosed requests, ?_, fun earlier request later _ halarms => ?_⟩
    · simp only [hadError, Workspace.hadErrorAfter, hclosed]
      rfl
    · exact Workspace.perform_closed (hclosed earlier) halarms

/-- A collector that is cleared between two reports, a stream that two scanners share, and a closed
    stream. -/
theorem sinks_of_session_shared :
    let w := (Workspace.session [⟨.makeSink "c" (.collector (some "log") #[]), none⟩,
      ⟨.makeSink "s" .newStream, none⟩, ⟨.makeSink "x" .closed, none⟩,
      ⟨.makeScanner "a" "@" none (some "s"), none⟩,
      ⟨.makeScanner "b" "\n\"" none (some "s"), none⟩] .empty).2
    let requests : List Request := [⟨.report "c" ⟨7, "early"⟩, none⟩, ⟨.clear "c", none⟩,
      ⟨.scan "1\n@" (some "f.lox") (some "c"), none⟩, ⟨.tokenize "a" none, none⟩,
      ⟨.tokenize "b" none, none⟩]
    let last : Request := ⟨.scan "@" none (some "x"), none⟩
    let after := (Workspace.session requests w).2
    after.sink? ⟨"c", 0⟩ = some (.collector (some "log")
        #[.ofMessage "Unexpected character." ⟨some "log", 2⟩ none none]) ∧
      after.sink? ⟨"s", 0⟩ = some (.stream
        "[line 1] Error: Unexpected character.\n[line 2] Error: Unterminated string.\n" true) ∧
      Workspace.hadErrorAfter requests w ⟨"s", 0⟩ ∧ after.sink? ⟨"x", 0⟩ = some .closed ∧
      (after.reply last).1.response.result = .error .closedStream := by
  intro w requests last after
  obtain ⟨hcollector, -⟩ := sinks_of_session ⟨"c", 0⟩ requests w
  obtain ⟨-, hstream, hremembers, -⟩ := sinks_of_session ⟨"s", 0⟩ requests w
  obtain ⟨-, -, -, hclosed⟩ := sinks_of_session ⟨"x", 0⟩ (requests ++ [last]) w
  have hlast := (hclosed (by decide +kernel)).2.2 requests last [] rfl
    (.scan (by decide +kernel) (by decide +kernel))
  refine ⟨(hcollector (some "log") (by decide +kernel)).1.trans (by decide +kernel),
    (hstream (by decide +kernel)).trans (by decide +kernel), ?_, by decide +kernel, hlast⟩
  exact (hremembers (.inl (by decide +kernel))).2.2 (requests.take 4) (requests.drop 4) rfl
    (by decide +kernel)

end LoxScan
