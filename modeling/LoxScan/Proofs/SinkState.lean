import Mathlib.Data.List.DropRight
import LoxScan.Sink

/-! # What sinks hold

A sink is met by reports and by clearings.  What it holds after some of them is said without going
through them one by one.

* `SinkEvent` is what may happen to a sink, `Sink.meet` is what it does to the sink.
* `sinceClear` gives the reports since the last clearing, `reportsOf` all of them.
* `foldl_meet_collector`, `foldl_meet_stream`, `foldl_meet_terminal` and `foldl_meet_closed` are the
  kinds of sink after any events.
-/

namespace LoxScan

inductive SinkEvent where
  | report (report : Report)
  | clear
deriving DecidableEq, Repr

def SinkEvent.report? : SinkEvent → Option Report
  | report r => some r
  | clear => none

def reportsOf (events : List SinkEvent) : List Report :=
  events.filterMap SinkEvent.report?

/-- The reports among some events that no clearing comes after. -/
def sinceClear (events : List SinkEvent) : List Report :=
  reportsOf (events.rtakeWhile (· != .clear))

def Sink.meet (sink : Sink) : SinkEvent → Sink
  | .report r => (sink.receive r).sink
  | .clear => sink.clear

/-- The error that a report stands for in a file.  Only its line and message are known. -/
def Report.errorIn (filename : Option String) (r : Report) : LexicalError :=
  .ofMessage r.message ⟨filename, r.line⟩ none none

def reportLines (reports : List Report) : String :=
  String.join (reports.map Report.text)

/-! ## Reports among events -/

@[simp] theorem reportsOf_nil : reportsOf [] = [] := rfl

@[simp] theorem reportsOf_map_report (reports : List Report) :
    reportsOf (reports.map .report) = reports := by
  induction reports with
  | nil => rfl
  | cons r reports ih => exact congrArg (r :: ·) ih

theorem reportsOf_append (before after : List SinkEvent) :
    reportsOf (before ++ after) = reportsOf before ++ reportsOf after :=
  List.filterMap_append

@[simp] theorem sinceClear_nil : sinceClear [] = [] := rfl

theorem sinceClear_append_report (events : List SinkEvent) (r : Report) :
    sinceClear (events ++ [.report r]) = sinceClear events ++ [r] := by
  rw [sinceClear, List.rtakeWhile_concat_pos _ _ _ rfl, reportsOf_append]
  rfl

theorem sinceClear_append_clear (events : List SinkEvent) :
    sinceClear (events ++ [.clear]) = [] := by
  rw [sinceClear, List.rtakeWhile_concat_neg _ _ _ (by decide)]
  rfl

theorem sinceClear_eq_reportsOf {events : List SinkEvent} (h : .clear ∉ events) :
    sinceClear events = reportsOf events := by
  rw [sinceClear, List.rtakeWhile_eq_self_iff.2]
  intro event hevent
  exact bne_iff_ne.2 fun heq => h (heq ▸ hevent)

@[simp] theorem sinceClear_map_report (reports : List Report) :
    sinceClear (reports.map .report) = reports := by
  rw [sinceClear_eq_reportsOf (by simp), reportsOf_map_report]

/-! ## The kinds of sink -/

namespace Sink

/-- A collector holds what was reported since it was last cleared; what it had before stays as long
    as it is not cleared. -/
theorem foldl_meet_collector (filename : Option String) (held : Array LexicalError)
    (events : List SinkEvent) :
    events.foldl meet (collector filename held) =
      collector filename ((if .clear ∈ events then #[] else held)
        ++ ((sinceClear events).map (Report.errorIn filename)).toArray) := by
  induction events using List.reverseRecOn with
  | nil => simp
  | append_singleton events event ih =>
    rw [List.foldl_append, ih]
    cases event with
    | report r =>
      rw [sinceClear_append_report]
      simp [meet, receive, Report.errorIn]
    | clear =>
      rw [sinceClear_append_clear]
      simp [meet, clear]

theorem foldl_meet_stream (written : String) (hadError : Bool) (events : List SinkEvent) :
    events.foldl meet (stream written hadError) =
      stream (written ++ reportLines (reportsOf events))
        (hadError || !(reportsOf events).isEmpty) := by
  induction events generalizing written hadError with
  | nil => simp [reportsOf, reportLines]
  | cons event events ih =>
    cases event with
    | report r =>
      rw [List.foldl_cons, meet, receive, ih]
      simp [reportsOf, reportLines, SinkEvent.report?, String.append_assoc]
    | clear => exact ih written hadError

theorem foldl_meet_terminal (hadError : Bool) (events : List SinkEvent) :
    events.foldl meet (terminal hadError) =
      terminal (hadError || !(reportsOf events).isEmpty) := by
  induction events generalizing hadError with
  | nil => simp [reportsOf]
  | cons event events ih =>
    cases event with
    | report r =>
      rw [List.foldl_cons, meet, receive, ih]
      simp [reportsOf, SinkEvent.report?]
    | clear => exact ih hadError

theorem foldl_meet_closed (events : List SinkEvent) : events.foldl meet closed = closed := by
  induction events with
  | nil => rfl
  | cons event events ih => cases event <;> exact ih

/-! ## The terminal -/

def textShown (reports : List Report) : Sink → String
  | terminal _ => reportLines reports
  | _ => ""

theorem textShown_nil (sink : Sink) : sink.textShown [] = "" := by
  cases sink <;> rfl

theorem textShown_cons (sink : Sink) (r : Report) (reports : List Report) :
    sink.textShown (r :: reports) =
      (sink.receive r).shown ++ (sink.receive r).sink.textShown reports := by
  cases sink with
  | terminal => simp [textShown, receive, reportLines]
  | _ => rfl

/-! ## Sinks that take every report -/

def accepts : Sink → Bool
  | collector .. | stream .. | terminal .. => true
  | _ => false

theorem result_receive_of_accepts {sink : Sink} (h : sink.accepts) (r : Report) :
    (sink.receive r).result = .ok () := by
  cases sink with
  | collector | stream | terminal => rfl
  | closed | unimplemented | limited => cases h

theorem accepts_receive {sink : Sink} (h : sink.accepts) (r : Report) :
    (sink.receive r).sink.accepts := by
  cases sink with
  | collector | stream | terminal => rfl
  | closed | unimplemented | limited => cases h

end Sink

end LoxScan
