import LoxScan.Proofs.Lexeme
import LoxScan.Proofs.Lines
import LoxScan.Sink

/-! # Passes that a receiver breaks off

A receiver that fails ends a pass in the middle of a turn.  What it leaves is what the undisturbed
pass, the one that reports to no one, has right after the same item.

* `Receiver.Takes` says that a receiver lets some reports through, and `Receiver.recorded` keeps
  what a receiver is told.
* `Scanner.Finds` singles out the turn of the undisturbed pass that finds an error with a given
  number.
* `tokenize_of_receiver_fails` relates both passes.
-/

namespace LoxScan

variable {State Fault : Type}

/-! ## Receivers -/

namespace Receiver

/-- A receiver that lets some reports through, one after the other. -/
inductive Takes (receive : Receiver State Fault) : State → List Report → State → Prop
  | nil {state : State} : Takes receive state [] state
  | cons {first second last : State} {report : Report} {reports : List Report}
      (h : receive report first = (.ok (), second)) (hrest : Takes receive second reports last) :
      Takes receive first (report :: reports) last

def recorded (receive : Receiver State Fault) : Receiver (State × List Report) Fault :=
  fun report (state, calls) =>
    let (result, next) := receive report state
    (result, next, calls ++ [report])

theorem takes_silent (reports : List Report) : silent.Takes () reports () := by
  induction reports with
  | nil => exact .nil
  | cons report reports ih => exact .cons rfl ih

theorem Takes.exists_of_append {receive : Receiver State Fault} {first last : State}
    {before after : List Report} (h : receive.Takes first (before ++ after) last) :
    ∃ mid, receive.Takes first before mid ∧ receive.Takes mid after last := by
  induction before generalizing first with
  | nil => exact ⟨first, .nil, h⟩
  | cons report before ih =>
    cases h with
    | cons hreport hrest =>
      obtain ⟨mid, hbefore, hafter⟩ := ih hrest
      exact ⟨mid, .cons hreport hbefore, hafter⟩

theorem Takes.recorded {receive : Receiver State Fault} {first last : State}
    {reports : List Report} (h : receive.Takes first reports last) (calls : List Report) :
    receive.recorded.Takes (first, calls) reports (last, calls ++ reports) := by
  induction h generalizing calls with
  | nil =>
    rw [List.append_nil]
    exact .nil
  | @cons first second _ report _ h _ ih =>
    have hfirst : receive.recorded report (first, calls) = (.ok (), second, calls ++ [report]) := by
      rw [Receiver.recorded, h]
    have hrest := ih (calls ++ [report])
    rw [List.append_assoc, List.singleton_append] at hrest
    exact .cons hfirst hrest

end Receiver

/-! ## Turns that a receiver takes part in -/

def LexicalError.record (error : LexicalError) : LogRecord :=
  .found error.diagnostic.location error.message

namespace Pass

variable {receive : Receiver State Fault} {p q : Pass State} {item : Item}

theorem takeItem_of_error (receive : Receiver State Fault) (p : Pass State) {error : LexicalError}
    (h : item.error? p.scanner.filename p.scanner.line = some error) :
    p.takeItem receive item =
      ((receive error.report p.state).1, ⟨p.scanner.takeItem item,
        (receive error.report p.state).2, p.log.push error.record⟩) := by
  have herror : (p.consume item).scanner.errorOf? item = some error :=
    (p.scanner.errorOf?_consume item).trans h
  rw [takeItem, herror, Scanner.takeItem, h]
  rfl

theorem takeItem_of_takes {next : State}
    (h : receive.Takes p.state
      ((item.error? p.scanner.filename p.scanner.line).toList.map LexicalError.report) next) :
    ∃ log, p.takeItem receive item = (.ok (), ⟨p.scanner.takeItem item, next, log⟩) ∧
      log.toList = p.log.toList
        ++ (item.error? p.scanner.filename p.scanner.line).toList.map LexicalError.record := by
  cases herror : item.error? p.scanner.filename p.scanner.line with
  | none =>
    have hnone : (p.consume item).scanner.errorOf? item = none :=
      (p.scanner.errorOf?_consume item).trans herror
    rw [herror] at h
    cases h
    refine ⟨p.log, ?_, by simp⟩
    rw [takeItem, hnone, Scanner.takeItem, herror]
    rfl
  | some error =>
    rw [herror] at h
    cases h with
    | cons hreport hrest =>
      cases hrest
      refine ⟨p.log.push error.record, ?_, by simp⟩
      rw [takeItem_of_error receive p herror, hreport]

theorem exists_of_items_eq {left : List Item} (h : items p.scanner.remaining = item :: left) :
    ∃ c rest, p.scanner.remaining = c :: rest ∧ (Item.cut c rest).1 = item ∧
      items (Item.cut c rest).2 = left := by
  cases hremaining : p.scanner.remaining with
  | nil =>
    rw [hremaining, items_nil] at h
    cases h
  | cons c rest =>
    rw [hremaining, items_cons, List.cons.injEq] at h
    exact ⟨c, rest, rfl, h⟩

theorem Reaches.turn {r : Pass State} {left : List Item} (hq : p.Reaches receive q)
    (hitems : items q.scanner.remaining = item :: left)
    (hturn : q.takeItem receive item = (.ok (), r)) :
    p.Reaches receive r ∧ items r.scanner.remaining = left := by
  obtain ⟨c, rest, hremaining, rfl, hleft⟩ := exists_of_items_eq hitems
  refine ⟨.next hq hremaining hturn, ?_⟩
  rw [scanner_of_takeItem hturn, q.scanner.remaining_takeItem hremaining, hleft]

/-- Items whose errors the receiver takes are all taken. -/
theorem exists_reaches_of_takes {taken left : List Item} {mid : State}
    (hq : p.Reaches receive q) (hitems : items q.scanner.remaining = taken ++ left)
    (h : receive.Takes q.state
      ((errorsFrom q.scanner.filename q.scanner.line taken).map LexicalError.report) mid) :
    ∃ r, p.Reaches receive r ∧ items r.scanner.remaining = left ∧
      r.scanner = taken.foldl Scanner.takeItem q.scanner ∧ r.state = mid ∧
      r.log.toList = q.log.toList
        ++ (errorsFrom q.scanner.filename q.scanner.line taken).map LexicalError.record := by
  induction taken generalizing q with
  | nil =>
    cases h
    exact ⟨q, hq, hitems, rfl, rfl, by simp [errorsFrom, gatherFrom]⟩
  | cons item taken ih =>
    rw [errorsFrom_cons, List.map_append] at h ⊢
    obtain ⟨next, htaken, hafter⟩ := h.exists_of_append
    obtain ⟨log, hturn, hlog⟩ := takeItem_of_takes htaken
    obtain ⟨hreaches, hrest⟩ := hq.turn hitems hturn
    rw [← q.scanner.filename_takeItem item, ← q.scanner.line_takeItem item] at hafter
    obtain ⟨r, hr, hleft, hscanner, hstate, hrecords⟩ := ih hreaches hrest hafter
    refine ⟨r, hr, hleft, hscanner, hstate, ?_⟩
    simp only [hrecords, hlog, Scanner.filename_takeItem, Scanner.line_takeItem, List.append_assoc]

end Pass

/-! ## The first errors of a pass -/

/-- The item that gives the result with a given number, counted from zero, and those before it. -/
theorem exists_of_getElem?_gatherFrom {α : Type} {give : Item → Int → Option α} {line : Int}
    {found : List Item} {k : Nat} {x : α} (h : (gatherFrom give line found)[k]? = some x) :
    ∃ taken item left, found = taken ++ item :: left ∧
      gatherFrom give line taken = (gatherFrom give line found).take k ∧
      give item (line + countItemLines taken) = some x := by
  induction found generalizing line k with
  | nil => cases h
  | cons item found ih =>
    rw [gatherFrom] at h ⊢
    rcases Nat.lt_or_ge k (give item line).toList.length with hk | hk
    · cases hgive : give item line with
      | none =>
        rw [hgive] at hk
        cases hk
      | some y =>
        rw [hgive] at hk h
        obtain rfl : k = 0 := by simpa using hk
        obtain rfl := Option.some.inj h
        exact ⟨[], item, found, rfl, rfl, by simpa [countItemLines] using hgive⟩
    · rw [List.getElem?_append_right hk] at h
      obtain ⟨taken, other, left, rfl, htake, hother⟩ := ih h
      refine ⟨item :: taken, other, left, rfl, ?_, ?_⟩
      · rw [gatherFrom, htake, List.take_append, List.take_of_length_le hk]
      · rw [countItemLines_cons, Int.natCast_add, ← Int.add_assoc]
        exact hother

theorem Item.Shape.kind_ne_eof {item : Item} (hshape : item.Shape) {line : Int} {token : Token}
    (h : item.token? line = some token) : token.kind ≠ .eof := by
  rw [Item.token?] at h
  split at h
  case h_1 kind hkind =>
    cases h
    cases hshape with
    | form hform =>
      cases hkind
      obtain ⟨l, rfl, -⟩ := Lexeme.exists_iff_form.2 hform
      exact l.kind_ne_eof
    | unclosed | rejected => cases hkind
  case h_2 => cases h

theorem Pass.kind_ne_eof_of_reaches {receive : Receiver State Fault} {s : Scanner} {state : State}
    {q : Pass State} (h : (begin s state).Reaches receive q) :
    ∀ token ∈ q.scanner.tokens.toList, token.kind ≠ .eof := by
  induction h with
  | refl =>
    intro token htoken
    cases htoken
  | @next q r c rest _ _ hturn ih =>
    intro token htoken
    rw [scanner_of_takeItem hturn, Scanner.toList_tokens_takeItem] at htoken
    rcases List.mem_append.1 htoken with hbefore | hitem
    · exact ih token hbefore
    · exact (Item.shape_cut c rest).kind_ne_eof (Option.mem_toList.1 hitem)

theorem Scanner.current_eq_length_of_unclosed {s : Scanner} {c : Char} {rest : List Char}
    (h : s.remaining = c :: rest) (hkind : (Item.cut c rest).1.kind = .unclosed) :
    (s.takeItem (Item.cut c rest).1).current = s.source.length := by
  have hitems : items (c :: rest) = [] ++ (Item.cut c rest).1 :: items (Item.cut c rest).2 :=
    items_cons c rest
  have hnil := eq_nil_of_unclosed_mem hitems hkind
  have hend : (Item.cut c rest).2 = [] := by
    rw [← joined_items (Item.cut c rest).2, hnil, joined_nil]
  have htext : (Item.cut c rest).1.text = s.remaining := by
    rw [h, ← Item.cut_append c rest, hend, List.append_nil]
  have hlength := s.length_remaining
  rw [h] at hlength
  rw [current_takeItem, htext, h, hlength]
  rw [List.length_cons] at hlength
  omega

/-- The turn of the undisturbed pass that finds the error with a given number, counted from zero:
    the pass before it and after it, and the offending item. -/
structure Scanner.Finds (s : Scanner) (k : Nat) (before : Pass Unit) (item : Item)
    (after : Pass Unit) : Prop where
  reaches : (Pass.begin s ()).Reaches Receiver.silent before
  first : ∃ c rest, before.scanner.remaining = c :: rest ∧ (Item.cut c rest).1 = item
  faulty : ∃ fault, item.fault? = some fault
  turn : before.takeItem Receiver.silent item = (.ok (), after)
  errors_before : before.scanner.errors.toList = s.run.scanner.errors.toList.take k
  errors_after : after.scanner.errors.toList = s.run.scanner.errors.toList.take (k + 1)

/-- A receiver that takes the errors of some items and fails at the next one ends the pass
    there. -/
theorem Scanner.tokenize_of_takes {receive : Receiver State Fault} {s : Scanner}
    {state mid last : State} {taken left : List Item} {item : Item} {error : LexicalError}
    {fault : Fault} (hitems : items s.source.toList = taken ++ item :: left)
    (herror : item.error? s.filename (1 + countItemLines taken) = some error)
    (htakes : receive.Takes state ((errorsFrom s.filename 1 taken).map LexicalError.report) mid)
    (hfails : receive error.report mid = (.error fault, last)) :
    ∃ log, s.tokenize receive state =
        (.error fault, ⟨(taken.foldl takeItem s.restart).takeItem item, last, log⟩) ∧
      log.toList = .started s.filename s.source.length ::
        (errorsFrom s.filename 1 taken ++ [error]).map LexicalError.record := by
  rw [← Pass.remaining_begin s state] at hitems
  have hbegin : (Pass.begin s state).Reaches receive (Pass.begin s state) := .refl
  obtain ⟨q, hq, hleft, hscanner, rfl, hlog⟩ :=
    Pass.exists_reaches_of_takes hbegin hitems htakes
  obtain ⟨hname, hline, -, -⟩ := takeAll_spec taken (Pass.begin s state).scanner
  rw [← hscanner] at hname hline
  have hitem : item.error? q.scanner.filename q.scanner.line = some error := by
    rw [hname, hline]
    exact herror
  have hturn := Pass.takeItem_of_error receive q hitem
  rw [hfails] at hturn
  refine ⟨q.log.push error.record, ?_, ?_⟩
  · rw [s.tokenize_of_reaches hq, hleft, Pass.takeAll_cons, hturn, hscanner]
    rfl
  · rw [Array.toList_push, hlog, List.map_append]
    rfl

theorem Scanner.exists_finds {s : Scanner} {k : Nat} {error : LexicalError}
    (hk : s.run.scanner.errors.toList[k]? = some error) :
    ∃ taken item left before after, items s.source.toList = taken ++ item :: left ∧
      errorsFrom s.filename 1 taken = s.run.scanner.errors.toList.take k ∧
      item.error? s.filename (1 + countItemLines taken) = some error ∧
      before.scanner = taken.foldl takeItem s.restart ∧ s.Finds k before item after := by
  obtain ⟨-, herrors⟩ := tokenize_spec_of_ok (s.tokenize_fst_of_accepts Receiver.accepts_silent ())
  change s.run.scanner.errors.toList = _ at herrors
  have hfound := hk
  rw [herrors] at hfound
  obtain ⟨taken, item, left, hitems, htake, herror⟩ := exists_of_getElem?_gatherFrom hfound
  change errorsFrom s.filename 1 taken = _ at htake
  rw [← errorsFrom, ← herrors] at htake
  have hbegin := hitems
  rw [← Pass.remaining_begin s ()] at hbegin
  obtain ⟨before, hreaches, hleft, hscanner, -, -⟩ :=
    Pass.exists_reaches_of_takes .refl hbegin (Receiver.takes_silent _)
  obtain ⟨c, rest, hremaining, hcut, -⟩ := Pass.exists_of_items_eq hleft
  obtain ⟨hname, hline, -, hbefore⟩ := takeAll_spec taken (Pass.begin s ()).scanner
  rw [← hscanner] at hname hline hbefore
  have hitem : item.error? before.scanner.filename before.scanner.line = some error := by
    rw [hname, hline]
    exact herror
  have hturn := Pass.takeItem_of_error Receiver.silent before hitem
  have hfirst : before.scanner.errors.toList = s.run.scanner.errors.toList.take k := by
    rw [hbefore, ← htake]
    rfl
  obtain ⟨fault, hfault, -⟩ := Option.map_eq_some_iff.1 herror
  refine ⟨taken, item, left, before, _, hitems, htake, herror, hscanner, hreaches,
    ⟨c, rest, hremaining, hcut⟩, ⟨fault, hfault⟩, hturn, hfirst, ?_⟩
  rw [toList_errors_takeItem, hitem, hfirst, List.take_add_one, hk]

namespace Scanner.Finds

variable {s : Scanner} {k : Nat} {before after : Pass Unit} {item : Item}

theorem scanner_eq (h : s.Finds k before item after) :
    after.scanner = before.scanner.takeItem item :=
  Pass.scanner_of_takeItem h.turn

theorem tokens_eq (h : s.Finds k before item after) :
    after.scanner.tokens = before.scanner.tokens := by
  obtain ⟨fault, hfault⟩ := h.faulty
  apply Array.toList_inj.1
  rw [h.scanner_eq, toList_tokens_takeItem, Item.token?_eq_none_of_fault? hfault,
    Option.toList_none, List.append_nil]

theorem reaches_after (h : s.Finds k before item after) :
    (Pass.begin s ()).Reaches Receiver.silent after := by
  obtain ⟨c, rest, hremaining, rfl⟩ := h.first
  exact .next h.reaches hremaining h.turn

theorem current_of_unclosed (h : s.Finds k before item after) (hkind : item.kind = .unclosed) :
    after.scanner.current = s.source.length := by
  obtain ⟨c, rest, hremaining, rfl⟩ := h.first
  have hsource : before.scanner.source = s.source := (Pass.source_filename_of_reaches h.reaches).1
  rw [h.scanner_eq, current_eq_length_of_unclosed hremaining hkind, hsource]

end Scanner.Finds

/-- Where a receiver fails at an error, it leaves the scanner that the undisturbed pass has right
    after finding that error.  It was told of this error and those before it, and nothing else. -/
theorem tokenize_of_receiver_fails {receive : Receiver State Fault} {s : Scanner}
    {state mid last : State} {k : Nat} {error : LexicalError} {fault : Fault}
    (hk : s.run.scanner.errors.toList[k]? = some error)
    (htakes : receive.Takes state
      ((s.run.scanner.errors.toList.take k).map LexicalError.report) mid)
    (hfails : receive error.report mid = (.error fault, last)) :
    let errors := s.run.scanner.errors.toList.take (k + 1)
    ∃ before item after p, s.Finds k before item after ∧
      s.tokenize receive state = (.error fault, p) ∧ p.scanner = after.scanner ∧ p.state = last ∧
      p.scanner.errors.toList = errors ∧
      p.scanner.tokens = before.scanner.tokens ∧
      (∀ token ∈ p.scanner.tokens.toList, token.kind ≠ .eof) ∧
      p.scanner.start = before.scanner.current ∧
      p.scanner.current = before.scanner.current + item.text.length ∧
      (item.kind = .unclosed → p.scanner.current = s.source.length) ∧
      p.scanner.line = lineAt s.source.toList p.scanner.current ∧
      p.log.toList = .started s.filename s.source.length :: errors.map LexicalError.record ∧
      s.tokenize receive.recorded (state, []) =
        (.error fault, ⟨p.scanner, (last, errors.map LexicalError.report), p.log⟩) := by
  intro errors
  obtain ⟨taken, item, left, before, after, hitems, htake, herror, hscanner, hfinds⟩ :=
    Scanner.exists_finds hk
  rw [← htake] at htakes
  -- The recording receiver lets the same reports through and fails at the same one.
  have hfailed : receive.recorded error.report
      (mid, (errorsFrom s.filename 1 taken).map LexicalError.report) =
        (.error fault, last, errors.map LexicalError.report) := by
    simp [Receiver.recorded, hfails, htake, errors, List.take_add_one, hk]
  obtain ⟨log, hpass, hlog⟩ := Scanner.tokenize_of_takes hitems herror htakes hfails
  obtain ⟨log', hpass', hlog'⟩ :=
    Scanner.tokenize_of_takes hitems herror (htakes.recorded []) hfailed
  obtain rfl : log' = log := Array.toList_inj.1 (hlog'.trans hlog.symm)
  rw [← hscanner, ← hfinds.scanner_eq] at hpass hpass'
  have hline := Pass.line_of_reaches hfinds.reaches_after
  have hkind := Pass.kind_ne_eof_of_reaches hfinds.reaches_after
  refine ⟨before, item, after, _, hfinds, hpass, rfl, rfl, hfinds.errors_after, hfinds.tokens_eq, hkind,
    ?_, ?_, hfinds.current_of_unclosed, hline, ?_, hpass'⟩
  · rw [hfinds.scanner_eq, Scanner.start_takeItem]
  · rw [hfinds.scanner_eq, Scanner.current_takeItem]
  · rw [hlog, htake]
    simp [errors, List.take_add_one, hk]

/-- A sink that fails as soon as it holds two reports, the second of them for a string that is not
    closed. -/
theorem tokenize_of_receiver_fails_limited :
    let s := Scanner.new "1 @\n2 \"a" none
    let error := LexicalFault.errorAt .unterminatedString ⟨none, 2⟩
    let held (reports : Array Report) := Outlet.ofSink (some (.limited 2 reports))
    let first : Report := ⟨1, "Unexpected character."⟩
    s.run.scanner.errors.toList[1]? = some error ∧
      Outlet.receive.Takes (held #[])
        ((s.run.scanner.errors.toList.take 1).map LexicalError.report) (held #[first]) ∧
      Outlet.receive error.report (held #[first])
        = (.error .reportLimit, held #[first, error.report]) ∧
      ∃ before item after p, s.Finds 1 before item after ∧
        s.tokenize Outlet.receive (held #[]) = (.error .reportLimit, p) ∧
        p.scanner = after.scanner ∧ p.state = held #[first, error.report] := by
  intro s error held first
  have hk : s.run.scanner.errors.toList[1]? = some error := by decide +kernel
  have hreports : (s.run.scanner.errors.toList.take 1).map LexicalError.report = [first] := by
    decide +kernel
  have htakes : Outlet.receive.Takes (held #[])
      ((s.run.scanner.errors.toList.take 1).map LexicalError.report) (held #[first]) := by
    rw [hreports]
    exact .cons rfl .nil
  obtain ⟨before, item, after, p, hfinds, hpass, hscanner, hstate, -⟩ :=
    tokenize_of_receiver_fails hk htakes rfl
  exact ⟨hk, htakes, rfl, before, item, after, p, hfinds, hpass, hscanner, hstate⟩

end LoxScan
