import LoxScan.Proofs.Frame
import LoxScan.Proofs.Reporting

/-! # Scanners that are used again

A scanner may have a past: passes that ended, passes that its sink broke off, questions that were
asked.  Nothing of it shows in the next pass, and the next pass changes nothing of what was handed
out before.

* `Workspace.text?` is the text of a scanner with its file name, all that a pass depends on, and
  `Workspace.list?` is what a held list has.
* `Workspace.Edits` says which commands edit a held list; `perform_keeps` is what every command
  leaves as it is, `text?_session` and `list?_session` what a session does.
* `session_reuse` is about the next pass after any session, and about all lists from before it.
-/

namespace LoxScan

def Command.replacesText (name : String) : Command → Bool
  | .makeScanner other .. => other == name
  | .set other (.source _) | .set other (.filename _) => other == name
  | _ => false

def Command.hold? : Command → Option String
  | .tokenize _ hold | .diagnostics _ hold => hold
  | _ => none

def Answer.list? : Answer → Option HeldItems
  | tokens items => some (.tokens items)
  | errors items => some (.errors items)
  | _ => none

def Held.view (s : Scanner) : Held → HeldItems
  | tokensOf _ => .tokens s.tokens.toList
  | errorsOf _ count => .errors (s.errors.toList.take count)
  | copy items => items

def WiredScanner.text (wired : WiredScanner) : String × Option String :=
  (wired.scanner.source, wired.scanner.filename)

/-! ## Actions on a scanner -/

namespace Scanner

variable (s : Scanner)

theorem exists_advance : ∃ current, s.advance.2 = { s with current } := by
  unfold advance
  split <;> exact ⟨_, rfl⟩

theorem exists_accept (expected : Char) : ∃ current, (s.accept expected).2 = { s with current } := by
  unfold accept
  split <;> exact ⟨_, rfl⟩

theorem exists_editError (index : Int) (edit : DiagnosticEdit) :
    ∃ errors, (s.editError index edit).2 = { s with errors } := by
  unfold editError
  split
  · exact ⟨_, rfl⟩
  · split <;> exact ⟨_, rfl⟩

/-- A step does not keep the error that it may find. -/
theorem exists_step :
    ∃ start current line tokens, s.step.2 = { s with start, current, line, tokens } := by
  unfold step
  cases s.remaining with
  | nil => exact ⟨_, _, _, _, rfl⟩
  | cons c rest =>
    have hconsume : ∃ start current line tokens,
        s.consume (Item.cut c rest).1 = { s with start, current, line, tokens } := by
      unfold consume
      cases (Item.cut c rest).1.token? s.line <;> exact ⟨_, _, _, _, rfl⟩
    simp only
    split <;> exact hconsume

end Scanner

theorem Held.view_congr {s s' : Scanner} (htokens : s'.tokens = s.tokens)
    (herrors : s'.errors = s.errors) (held : Held) : held.view s' = held.view s := by
  cases held with
  | tokensOf => rw [view, htokens, view]
  | errorsOf => rw [view, herrors, view]
  | copy => rfl

namespace Workspace

def text? (w : Workspace) (name : String) : Option (String × Option String) :=
  (w.scanners.find? name).map WiredScanner.text

def list? (w : Workspace) (list : String) : Option HeldItems :=
  (w.held.find? list).map w.heldItems

/-- Whether a command edits the list under a name, or puts another list there.  A list that a scanner
    works on is also edited by what goes on in the scanner outside of passes. -/
inductive Edits (w : Workspace) (list : String) : Command → Prop
  | hold {command : Command} (h : command.hold? = some list) : Edits w list command
  | pop : Edits w list (.heldPop list)
  | popTokens {other scanner : String} (h : w.held.find? other = some (.tokensOf scanner))
      (hlist : w.held.find? list = some (.tokensOf scanner)) : Edits w list (.heldPop other)
  | editDiagnostic {scanner : String} {index : Int} {edit : DiagnosticEdit} {count : Nat}
      (hlist : w.held.find? list = some (.errorsOf scanner count)) :
      Edits w list (.editDiagnostic scanner index edit)
  | step {scanner : String} (hlist : w.held.find? list = some (.tokensOf scanner)) :
      Edits w list (.step scanner)
  | stepReport {scanner : String} {held : Held} (hlist : w.held.find? list = some held)
      (howner : held.owner? = some scanner) : Edits w list (.stepReport scanner)

/-- No request of a session edits a list. -/
def Untouched (list : String) : List Request → Workspace → Prop
  | [], _ => True
  | request :: rest, w =>
    ¬ w.Edits list request.command ∧ Untouched list rest (w.reply request).2

/-- A command has led from one workspace to another, and what it does not edit is still there. -/
structure Keeps (command : Command) (w v : Workspace) : Prop where
  text : ∀ {name}, command.replacesText name = false → v.text? name = w.text? name
  lists : ∀ {list}, ¬ w.Edits list command → v.list? list = w.list? list

variable {command : Command} {w v v' : Workspace} {name list : String}

/-! ## What operations keep -/

theorem text?_of_find? {wired : WiredScanner} (h : w.scanners.find? name = some wired) :
    w.text? name = some wired.text := by
  rw [text?, h, Option.map_some]

theorem list?_of_find? {held : Held} (h : w.held.find? list = some held) :
    w.list? list = some (w.heldItems held) := by
  rw [list?, h, Option.map_some]

theorem text?_setScanner {wired : WiredScanner} {other : String}
    (h : other = name → w.text? name = some wired.text) :
    (w.setScanner name wired).text? other = w.text? other := by
  rw [text?, find?_setScanner]
  split
  case isTrue hother => rw [hother, h hother, Option.map_some]
  case isFalse => rfl

theorem heldItems_of_owner? {held : Held} {wired : WiredScanner}
    (hfind : w.scanners.find? name = some wired) (howner : held.owner? = some name) :
    w.heldItems held = held.view wired.scanner := by
  cases held with
  | tokensOf | errorsOf =>
    obtain rfl := Option.some.inj howner
    rw [heldItems, hfind]
    rfl
  | copy => rfl

/-- A list that is no view of a scanner does not change with it. -/
theorem heldItems_setScanner_of_ne {held : Held} (h : held.owner? ≠ some name)
    (wired : WiredScanner) : (w.setScanner name wired).heldItems held = w.heldItems held := by
  cases held with
  | tokensOf owner | errorsOf owner =>
    have hne : owner ≠ name := fun heq => h (congrArg some heq)
    rw [heldItems, find?_setScanner, if_neg hne, heldItems]
  | copy => rfl

namespace Keeps

theorem refl (w : Workspace) : Keeps command w w :=
  ⟨fun _ => rfl, fun _ => rfl⟩

theorem congr (h : Keeps command w v) (hscanners : v'.scanners = v.scanners)
    (hheld : v'.held = v.held) : Keeps command w v' where
  text := by
    intro name hname
    rw [text?, hscanners]
    exact h.text hname
  lists := by
    intro list hlist
    rw [← h.lists hlist, list?, list?, hheld]
    refine Option.map_congr fun held _ => ?_
    cases held with
    | tokensOf | errorsOf => rw [heldItems, hscanners, heldItems]
    | copy => rfl

theorem setScanner {before after : WiredScanner} (hfind : w.scanners.find? name = some before)
    (htext : command.replacesText name = false → after.text = before.text)
    (hlists : ∀ {list held}, ¬ w.Edits list command → w.held.find? list = some held →
      held.owner? = some name → held.view after.scanner = held.view before.scanner) :
    Keeps command w (w.setScanner name after) where
  text := by
    intro other hother
    refine text?_setScanner ?_
    rintro rfl
    rw [text?_of_find? hfind, htext hother]
  lists := by
    intro list hedits
    rw [list?, list?, held_setScanner]
    refine Option.map_congr fun held hheld => ?_
    by_cases howner : held.owner? = some name
    · have hafter : (w.setScanner name after).scanners.find? name = some after := by
        rw [find?_setScanner, if_pos rfl]
      rw [heldItems_of_owner? hafter howner, heldItems_of_owner? hfind howner,
        hlists hedits hheld howner]
    · exact heldItems_setScanner_of_ne howner after

theorem setCursor {wired : WiredScanner} (hfind : w.scanners.find? name = some wired)
    (current : Nat) (line : Int) : Keeps command w (w.setScanner name
      { wired with scanner := { wired.scanner with current, line } }) :=
  .setScanner hfind (fun _ => rfl) fun _ _ _ => Held.view_congr rfl rfl _

theorem setTokens {wired : WiredScanner} (hfind : w.scanners.find? name = some wired)
    (hedits : ∀ {list}, w.held.find? list = some (.tokensOf name) → w.Edits list command)
    (start current : Nat) (line : Int) (tokens : Array Token) :
    Keeps command w (w.setScanner name
      { wired with scanner := { wired.scanner with start, current, line, tokens } }) := by
  refine .setScanner hfind (fun _ => rfl) fun {list held} hlist hheld howner => ?_
  cases held with
  | tokensOf owner =>
    obtain rfl := Option.some.inj howner
    exact absurd (hedits hheld) hlist
  | errorsOf | copy => rfl

theorem renew {after : WiredScanner}
    (htext : command.replacesText name = false → w.text? name = some after.text) :
    Keeps command w ((w.detach name).setScanner name after) where
  text := by
    intro other hother
    refine text?_setScanner (w := w.detach name) ?_
    rintro rfl
    exact htext hother
  lists := by
    intro list _
    rw [list?, held_setScanner, find?_detach, Option.map_map, list?]
    refine Option.map_congr fun held _ => ?_
    rw [Function.comp_apply]
    -- what was a view of the scanner has become a copy, and the others look elsewhere
    split
    case isTrue => rfl
    case isFalse howner => exact heldItems_setScanner_of_ne (w := w.detach name) howner after

theorem setHeld (h : Keeps command w v) (hedits : w.Edits list command) (held : Held) :
    Keeps command w (v.setHeld list held) where
  text := h.text
  lists := by
    intro other hother
    have hne : other ≠ list := by
      rintro rfl
      exact hother hedits
    rw [list?, find?_setHeld, if_neg hne]
    exact h.lists hother

theorem hold (h : Keeps command w v) (held : Held) :
    Keeps command w (v.hold command.hold? held) := by
  cases hname : command.hold? with
  | none => exact h
  | some list => exact h.setHeld (.hold hname) held

theorem setOutlet (h : Keeps command w v) (reporter : Option SinkRef) (outlet : Outlet) :
    Keeps command w (v.setOutlet reporter outlet) :=
  h.congr (v.scanners_setOutlet ..) (v.held_setOutlet ..)

theorem onScanner {act : Scanner → Except Failure Answer × Scanner}
    (h : ∀ {wired}, w.scanners.find? name = some wired → Keeps command w
      (w.setScanner name { wired with scanner := (act wired.scanner).2 })) :
    Keeps command w (w.onScanner name act).2 := by
  unfold Workspace.onScanner
  cases hfind : w.scanners.find? name with
  | none => exact .refl w
  | some wired => exact h hfind

end Keeps

/-! ## What commands keep -/

theorem tokenize_keeps (name : String) (hold : Option String) :
    Keeps (.tokenize name hold) w (w.tokenize name hold).2 := by
  unfold Workspace.tokenize
  cases hfind : w.scanners.find? name with
  | none => exact .refl w
  | some wired =>
    obtain ⟨hsource, hfilename⟩ :=
      wired.scanner.source_filename_tokenize Outlet.receive (w.outlet wired.reporter)
    simp only
    rcases heq : wired.scanner.tokenize Outlet.receive (w.outlet wired.reporter) with ⟨_ | _, pass⟩
    all_goals
      rw [heq] at hsource hfilename
      have hrenew : Keeps (.tokenize name hold) w
          ((w.detach name).setScanner name { wired with scanner := pass.scanner }) := by
        refine .renew fun _ => ?_
        rw [text?_of_find? hfind, WiredScanner.text, WiredScanner.text, hsource, hfilename]
      have hafter := hrenew.setOutlet wired.reporter pass.state
    case error => exact hafter
    case ok => exact hafter.hold (.tokensOf name)

theorem stepReport_keeps (name : String) :
    Keeps (.stepReport name) w (w.stepReport name).2 := by
  unfold Workspace.stepReport
  cases hfind : w.scanners.find? name with
  | none => exact .refl w
  | some wired =>
    obtain ⟨start, current, line, tokens, hstep⟩ := wired.scanner.exists_step
    have hkeeps : ∀ errors, Keeps (.stepReport name) w (w.setScanner name
        { wired with scanner := { wired.scanner.step.2 with errors } }) := by
      intro errors
      refine .setScanner hfind (fun _ => ?_) fun hedits hheld howner => ?_
      · rw [hstep, WiredScanner.text, WiredScanner.text]
      · exact absurd (.stepReport hheld howner) hedits
    simp only
    rcases heq : wired.scanner.step with ⟨_ | error | _, after⟩
    all_goals rw [heq] at hkeeps
    case taken => exact hkeeps after.errors
    case faulty => exact (hkeeps (after.errors.push error)).setOutlet _ _
    case atEnd => exact hkeeps after.errors

theorem edit_keeps (name : String) (edit : ScannerEdit) :
    Keeps (.set name edit) w (w.edit name edit).2 := by
  cases edit with
  | source | filename =>
    refine .onScanner fun hfind => .setScanner hfind (fun hname => ?_) fun _ _ _ => ?_
    · simp [Command.replacesText] at hname
    · exact Held.view_congr rfl rfl _
  | line | current => exact .onScanner fun hfind => .setCursor hfind _ _
  | reporter value =>
    simp only [Workspace.edit]
    cases hfind : w.scanners.find? name with
    | none => exact .refl w
    | some wired =>
      cases w.resolve value with
      | error failure => exact .refl w
      | ok ref => exact .setScanner hfind (fun _ => rfl) fun _ _ _ => rfl

theorem heldPop_keeps (name : String) : Keeps (.heldPop name) w (w.perform (.heldPop name)).2 := by
  simp only [perform]
  cases hheld : w.held.find? name with
  | none => exact .refl w
  | some held =>
    cases hpop : w.popHeld name held with
    | error failure =>
      simp only [hpop]
      exact .refl w
    | ok after =>
      simp only [hpop]
      obtain ⟨left, rfl⟩ | ⟨scanner, wired, rfl, hfind, rfl⟩ := eq_of_popHeld hpop
      · exact (Keeps.refl w).setHeld .pop left
      · exact .setTokens hfind (fun hlist => .popTokens hheld hlist) _ _ _ _

theorem editDiagnostic_keeps (name : String) (index : Int) (edit : DiagnosticEdit) :
    Keeps (.editDiagnostic name index edit) w
      (w.perform (.editDiagnostic name index edit)).2 := by
  refine .onScanner fun {wired} hfind => ?_
  obtain ⟨errors, hedit⟩ := wired.scanner.exists_editError index edit
  change Keeps _ w (w.setScanner name ⟨(wired.scanner.editError index edit).2, wired.reporter⟩)
  rw [hedit]
  refine .setScanner hfind (fun _ => rfl) fun {list held} hedits hheld howner => ?_
  cases held with
  | errorsOf owner count =>
    obtain rfl := Option.some.inj howner
    exact absurd (.editDiagnostic hheld) hedits
  | tokensOf | copy => rfl

theorem step_keeps (name : String) : Keeps (.step name) w (w.step name).2 := by
  refine .onScanner fun {wired} hfind => ?_
  obtain ⟨start, current, line, tokens, hstep⟩ := wired.scanner.exists_step
  have hkeeps : Keeps (.step name) w
      (w.setScanner name { wired with scanner := wired.scanner.step.2 }) := by
    rw [hstep]
    exact .setTokens hfind .step start current line tokens
  rcases heq : wired.scanner.step with ⟨_ | error | _, after⟩
  all_goals
    rw [heq] at hkeeps
    exact hkeeps

/-- A command keeps every text that it does not replace and every list that it does not edit. -/
theorem perform_keeps (command : Command) (w : Workspace) :
    Keeps command w (w.perform command).2 := by
  cases command with
  | makeSink | sinkState => exact (Keeps.refl w).congr rfl rfl
  | report | clear => exact (Keeps.refl w).congr (w.scanners_onSink ..) (w.held_onSink ..)
  | makeScanner name source filename reporter =>
    simp only [perform]
    cases w.resolve reporter with
    | error failure => exact .refl w
    | ok ref => exact .renew fun hname => by simp [Command.replacesText] at hname
  | tokenize name hold => exact tokenize_keeps name hold
  | scan => exact (Keeps.refl w).congr (w.scanners_scan ..) (w.held_scan ..)
  | hasErrors | contents | peek | peekNext | atEnd =>
    simp only [perform, askScanner_snd]
    exact .refl w
  | diagnostics name hold =>
    simp only [perform]
    split
    case h_1 => exact .refl w
    case h_2 => exact (Keeps.refl w).hold _
  | held | sameTokens =>
    simp only [perform]
    split <;> exact .refl w
  | heldPop name => exact heldPop_keeps name
  | editDiagnostic name index edit => exact editDiagnostic_keeps name index edit
  | set name edit => exact edit_keeps name edit
  | step name => exact step_keeps name
  | stepReport name => exact stepReport_keeps name
  | advance name =>
    refine .onScanner fun {wired} hfind => ?_
    obtain ⟨current, hadvance⟩ := wired.scanner.exists_advance
    change Keeps _ w (w.setScanner name ⟨wired.scanner.advance.2, wired.reporter⟩)
    rw [hadvance]
    exact .setCursor hfind current _
  | accept name expected =>
    refine .onScanner fun {wired} hfind => ?_
    obtain ⟨current, haccept⟩ := wired.scanner.exists_accept expected
    change Keeps _ w (w.setScanner name ⟨(wired.scanner.accept expected).2, wired.reporter⟩)
    rw [haccept]
    exact .setCursor hfind current _

/-! ## Lists that are handed out -/

theorem list?_of_hold? {answer : Answer} (hhold : command.hold? = some list)
    (hanswer : (w.perform command).1.result = .ok answer) :
    ∃ items, answer.list? = some items ∧ (w.perform command).2.list? list = some items := by
  cases command with
  | tokenize name hold =>
    obtain rfl : hold = some list := hhold
    simp only [perform, Workspace.tokenize] at hanswer ⊢
    cases hfind : w.scanners.find? name with
    | none => simp [hfind, quiet] at hanswer
    | some wired =>
      simp only [hfind] at hanswer ⊢
      rcases heq : wired.scanner.tokenize Outlet.receive (w.outlet wired.reporter) with
        ⟨_ | _, pass⟩
      all_goals rw [heq] at hanswer
      case error => cases hanswer
      case ok =>
        obtain rfl := Except.ok.inj hanswer
        refine ⟨_, rfl, ?_⟩
        rw [hold, list?_of_find? (by rw [find?_setHeld, if_pos rfl]), heldItems, scanners_setHeld,
          scanners_setOutlet, find?_setScanner, if_pos rfl, Option.elim_some]
  | diagnostics name hold =>
    obtain rfl : hold = some list := hhold
    simp only [perform] at hanswer ⊢
    cases hfind : w.scanners.find? name with
    | none => simp [hfind, quiet] at hanswer
    | some wired =>
      simp only [hfind] at hanswer ⊢
      obtain rfl := Except.ok.inj hanswer
      refine ⟨_, rfl, ?_⟩
      rw [hold, list?_of_find? (by rw [find?_setHeld, if_pos rfl]), heldItems, scanners_setHeld,
        hfind, Option.elim_some, ← Array.length_toList, List.take_length]
  | _ => cases hhold

theorem perform_held {items : HeldItems} (h : w.list? list = some items) :
    (w.perform (.held list)).1.result = .ok (.held items) := by
  obtain ⟨held, hheld, rfl⟩ := Option.map_eq_some_iff.1 h
  simp only [perform, hheld]
  rfl

/-! ## Sessions -/

theorem text?_session {requests : List Request}
    (h : ∀ request ∈ requests, request.command.replacesText name = false) :
    (session requests w).2.text? name = w.text? name := by
  induction requests generalizing w with
  | nil => rfl
  | cons request rest ih =>
    obtain ⟨hrequest, hrest⟩ := List.forall_mem_cons.1 h
    exact (ih hrest).trans ((perform_keeps request.command w).text hrequest)

theorem list?_session {requests : List Request} (h : w.Untouched list requests) :
    (session requests w).2.list? list = w.list? list := by
  induction requests generalizing w with
  | nil => rfl
  | cons request rest ih =>
    obtain ⟨hrequest, hrest⟩ := h
    exact (ih hrest).trans ((perform_keeps request.command w).lists hrequest)

/-- A pass whose errors the sink takes is the one of a new scanner. -/
theorem tokenize_of_takes {wired : WiredScanner} {last : Outlet}
    (hfind : w.scanners.find? name = some wired)
    (htakes : Outlet.receive.Takes (w.outlet wired.reporter)
      (wired.scanner.run.scanner.errors.toList.map LexicalError.report) last)
    (hold : Option String) :
    (w.tokenize name hold).1.result = .ok (.tokens wired.scanner.run.scanner.tokens.toList) ∧
      (w.tokenize name hold).2.scanners.find? name
        = some { wired with scanner := wired.scanner.run.scanner } := by
  simp only [Workspace.tokenize, hfind, Scanner.tokenize_of_takes_all htakes, true_and]
  rw [scanners_hold, scanners_setOutlet, find?_setScanner, if_pos rfl]

end Workspace

/-- After any session the next pass of a scanner is that of a new scanner with its text, if the sink
    takes the errors.  The lists that were handed out in the session are as they were then, unless
    they were edited. -/
theorem session_reuse (history : List Request) (w : Workspace) :
    let now := (Workspace.session history w).2
    (∀ name wired, w.scanners.find? name = some wired →
      (∀ request ∈ history, request.command.replacesText name = false) →
      ∃ used, now.scanners.find? name = some used ∧
        let new := Scanner.new wired.scanner.source wired.scanner.filename
        let fresh := new.run.scanner
        (∀ {State Fault : Type} (receive : Receiver State Fault) (state : State),
          used.scanner.tokenize receive state = new.tokenize receive state) ∧
        ∀ hold last, Outlet.receive.Takes (now.outlet used.reporter)
            (fresh.errors.toList.map LexicalError.report) last →
          let pass := now.perform (.tokenize name hold)
          pass.1.result = .ok (.tokens fresh.tokens.toList) ∧
            pass.2.scanners.find? name = some { used with scanner := fresh } ∧
            (pass.2.perform (.hasErrors name)).1.result = .ok (.flag (!fresh.errors.isEmpty))) ∧
    ∀ earlier request later list answer, history = earlier ++ request :: later →
      request.command.hold? = some list →
      let handed := (Workspace.session earlier w).2.reply request
      handed.1.response.result = .ok answer → handed.2.Untouched list later →
      ∃ items, answer.list? = some items ∧
        (now.perform (.held list)).1.result = .ok (.held items) := by
  intro now
  constructor
  · intro name wired hfind hhistory
    have htext := Workspace.text?_session (w := w) hhistory
    rw [Workspace.text?_of_find? hfind] at htext
    obtain ⟨used, hused, hsame⟩ := Option.map_eq_some_iff.1 htext
    obtain ⟨hsource, hfilename⟩ := Prod.mk.inj hsame
    -- a pass starts from the text and the file name alone
    refine ⟨used, hused, ?_⟩
    simp only [← hsource, ← hfilename]
    refine ⟨fun _ _ => rfl, fun hold last htakes => ?_⟩
    obtain ⟨hresult, hafter⟩ := Workspace.tokenize_of_takes hused htakes hold
    refine ⟨hresult, hafter, ?_⟩
    rw [Workspace.perform, Workspace.perform, Workspace.askScanner, hafter]
    rfl
  · rintro earlier request later list answer rfl hhold handed hanswer huntouched
    obtain ⟨items, hitems, hlist⟩ := Workspace.list?_of_hold? hhold hanswer
    refine ⟨items, hitems, Workspace.perform_held ?_⟩
    simp only [now, Workspace.session_append, Workspace.session]
    exact (Workspace.list?_session huntouched).trans hlist

/-- A pass that ended and one that its sink broke off, then a pass without the sink. -/
theorem session_reuse_broken_off :
    let w := (Workspace.session [⟨.makeSink "s" (.limited 2 #[]), none⟩,
      ⟨.makeScanner "a" "1@" none (some "s"), none⟩] .empty).2
    let history : List Request := [⟨.tokenize "a" (some "t"), none⟩,
      ⟨.diagnostics "a" (some "d"), none⟩, ⟨.tokenize "a" none, none⟩,
      ⟨.set "a" (.reporter none), none⟩]
    let now := (Workspace.session history w).2
    let fresh := scan "1@" none
    ((Workspace.session history w).1.map fun reply => reply.response.result.toBool)
        = [true, true, false, true] ∧
      (now.perform (.tokenize "a" none)).1.result = .ok (.tokens fresh.tokens.toList) ∧
      (now.perform (.held "t")).1.result = .ok (.held (.tokens fresh.tokens.toList)) ∧
      (now.perform (.held "d")).1.result = .ok (.held (.errors fresh.errors.toList)) := by
  intro w history now fresh
  obtain ⟨hnext, hlists⟩ := session_reuse history w
  refine ⟨by decide +kernel, ?_, ?_, ?_⟩
  · obtain ⟨used, hused, -, hpass⟩ := hnext "a" ⟨.new "1@" none, some ⟨"s", 0⟩⟩
      (by decide +kernel) (by decide +kernel)
    have hreporter : (now.scanners.find? "a").map WiredScanner.reporter = some none := by
      decide +kernel
    rw [hused] at hreporter
    have hnone : used.reporter = none := Option.some.inj hreporter
    obtain ⟨last, htakes⟩ :=
      Outlet.acceptsFrom_none "" (fresh.errors.toList.map LexicalError.report)
    rw [hnone] at hpass
    exact (hpass none last htakes).1
  · have huntouched : Workspace.Untouched "t" history.tail
        (w.reply ⟨.tokenize "a" (some "t"), none⟩).2 := by
      refine And.intro ?_ (And.intro ?_ (And.intro ?_ trivial))
      all_goals
        rintro ⟨h⟩
        exact absurd h (by decide)
    obtain ⟨items, hitems, hheld⟩ := hlists [] _ _ "t" (.tokens fresh.tokens.toList) rfl rfl
      (by decide +kernel) huntouched
    obtain rfl := Option.some.inj hitems
    exact hheld
  · have huntouched : Workspace.Untouched "d" history.tail.tail
        (Workspace.session (history.take 2) w).2 := by
      refine And.intro ?_ (And.intro ?_ trivial)
      all_goals
        rintro ⟨h⟩
        exact absurd h (by decide)
    obtain ⟨items, hitems, hheld⟩ := hlists [_] _ _ "d" (.errors fresh.errors.toList) rfl rfl
      (by decide +kernel) huntouched
    obtain rfl := Option.some.inj hitems
    exact hheld

end LoxScan
