import LoxScan.Scanner

/-! # The turns of a pass

A pass takes the items of the whole source, but each turn needs no more than the text at the
cursor.

* `Pass.takeItem` is one turn, `Scanner.takeItem` what it does to the scanner, whatever the receiver
  answers.
* `Pass.Reaches` relates the passes between two turns; from each of them the loop goes on with the
  items of the text that remains (`tokenize_of_reaches`).
* `scanner_takeAll` says that a pass, ended or broken off, has taken a beginning of its items.
-/

namespace LoxScan

def Receiver.Accepts {State Fault : Type} (receive : Receiver State Fault) : Prop :=
  ∀ report state, (receive report state).1 = .ok ()

theorem Receiver.accepts_silent : Receiver.silent.Accepts := fun _ _ => rfl

/-! ## One item -/

def Item.error? (item : Item) (filename : Option String) (line : Int) : Option LexicalError :=
  item.fault?.map fun fault => fault.errorAt ⟨filename, line + countLines item.text⟩

namespace Scanner

def takeItem (s : Scanner) (item : Item) : Scanner :=
  match item.error? s.filename s.line with
  | some error => (s.consume item).keep error
  | none => s.consume item

variable (s : Scanner) (item : Item)

theorem errorOf?_consume : (s.consume item).errorOf? item = item.error? s.filename s.line := by
  simp [errorOf?, location, Item.error?]

@[simp] theorem source_takeItem : (s.takeItem item).source = s.source := by
  rw [takeItem]
  split <;> simp [keep]

@[simp] theorem filename_takeItem : (s.takeItem item).filename = s.filename := by
  rw [takeItem]
  split <;> simp [keep]

@[simp] theorem start_takeItem : (s.takeItem item).start = s.current := by
  rw [takeItem]
  split <;> simp [keep]

@[simp] theorem current_takeItem :
    (s.takeItem item).current = s.current + item.text.length := by
  rw [takeItem]
  split <;> simp [keep]

@[simp] theorem line_takeItem : (s.takeItem item).line = s.line + countLines item.text := by
  rw [takeItem]
  split <;> simp [keep]

@[simp] theorem toList_tokens_takeItem :
    (s.takeItem item).tokens.toList = s.tokens.toList ++ (item.token? s.line).toList := by
  rw [takeItem]
  split <;> simp [keep]

@[simp] theorem toList_errors_takeItem :
    (s.takeItem item).errors.toList
      = s.errors.toList ++ (item.error? s.filename s.line).toList := by
  rw [takeItem]
  split <;> simp_all [keep]

theorem length_remaining : s.remaining.length = s.source.length - s.current := by
  rw [remaining, List.length_drop, String.length_toList]

theorem remaining_takeItem {c : Char} {rest : List Char} (h : s.remaining = c :: rest) :
    (s.takeItem (Item.cut c rest).1).remaining = (Item.cut c rest).2 := by
  simp only [remaining, source_takeItem, current_takeItem] at h ⊢
  rw [← List.drop_drop, h, ← Item.cut_append c rest, List.drop_left]

end Scanner

/-! ## One turn -/

namespace Pass

variable {State Fault : Type} {receive : Receiver State Fault}

/-- One turn of a pass: an item is taken and, if it is an error, kept and reported. -/
def takeItem (receive : Receiver State Fault) (p : Pass State) (item : Item) :
    Except Fault Unit × Pass State :=
  match (p.consume item).scanner.errorOf? item with
  | none => (.ok (), p.consume item)
  | some error => (p.consume item).report receive error

theorem takeAll_cons (item : Item) (rest : List Item) (p : Pass State) :
    takeAll receive (item :: rest) p =
      match p.takeItem receive item with
      | (.ok (), q) => takeAll receive rest q
      | failed => failed := by
  rcases herror : (p.consume item).scanner.errorOf? item with _ | error
  case none => simp only [takeAll, takeItem, herror]
  case some =>
    rcases hreport : (p.consume item).report receive error with ⟨_ | _, q⟩
    all_goals simp only [takeAll, takeItem, herror, hreport]

@[simp] theorem scanner_takeItem (receive : Receiver State Fault) (p : Pass State) (item : Item) :
    (p.takeItem receive item).2.scanner = p.scanner.takeItem item := by
  have herror := p.scanner.errorOf?_consume item
  simp only [takeItem, Scanner.takeItem, consume]
  rw [herror]
  split <;> simp_all [report, keep]

theorem scanner_of_takeItem {p q : Pass State} {item : Item} {result : Except Fault Unit}
    (h : p.takeItem receive item = (result, q)) : q.scanner = p.scanner.takeItem item := by
  rw [← scanner_takeItem receive p item, h]

theorem takeItem_fst_of_accepts (h : receive.Accepts) (p : Pass State) (item : Item) :
    (p.takeItem receive item).1 = .ok () := by
  rw [takeItem]
  split
  · rfl
  · exact h _ _

theorem takeItem_of_fault?_eq_none (receive : Receiver State Fault) (p : Pass State) {item : Item}
    (h : item.fault? = none) : p.takeItem receive item = (.ok (), p.consume item) := by
  simp [takeItem, Scanner.errorOf?, h]

/-- A pass, ended or broken off, has taken a beginning of its items, and all of them if it has
    ended. -/
theorem scanner_takeAll (receive : Receiver State Fault) (found : List Item) (p : Pass State) :
    ∃ taken, taken <+: found ∧
      (takeAll receive found p).2.scanner = taken.foldl Scanner.takeItem p.scanner ∧
      ((takeAll receive found p).1 = .ok () → taken = found) := by
  induction found generalizing p with
  | nil => exact ⟨[], List.prefix_rfl, rfl, fun _ => rfl⟩
  | cons item rest ih =>
    rw [takeAll_cons]
    rcases hturn : p.takeItem receive item with ⟨_ | _, q⟩
    all_goals have hscanner := scanner_of_takeItem hturn
    -- A receiver fails only after the item was taken and its error kept.
    case error fault => exact ⟨[item], ⟨rest, rfl⟩, hscanner, fun h => by cases h⟩
    case ok =>
      obtain ⟨taken, hbegins, htaken, hall⟩ := ih q
      refine ⟨item :: taken, List.cons_prefix_cons.2 ⟨rfl, hbegins⟩, ?_, fun h => ?_⟩
      · rw [List.foldl_cons, ← hscanner]
        exact htaken
      · rw [hall h]

theorem takeAll_fst_of_accepts (h : receive.Accepts) (found : List Item) (p : Pass State) :
    (takeAll receive found p).1 = .ok () := by
  induction found generalizing p with
  | nil => rfl
  | cons item rest ih =>
    have hturn := takeItem_fst_of_accepts h p item
    rw [takeAll_cons]
    rcases heq : p.takeItem receive item with ⟨_ | _, q⟩
    all_goals rw [heq] at hturn
    case error => cases hturn
    case ok => exact ih q

/-- Items that are no errors do not reach the receiver, so it can not fail. -/
theorem takeAll_of_fault?_eq_none (receive : Receiver State Fault) {found : List Item}
    (h : ∀ item ∈ found, item.fault? = none) (p : Pass State) :
    (takeAll receive found p).1 = .ok () ∧ (takeAll receive found p).2.state = p.state := by
  induction found generalizing p with
  | nil => exact ⟨rfl, rfl⟩
  | cons item rest ih =>
    obtain ⟨hitem, hrest⟩ := List.forall_mem_cons.1 h
    rw [takeAll_cons, takeItem_of_fault?_eq_none receive p hitem]
    exact ih hrest (p.consume item)

/-! ## Between two turns -/

/-- The passes that stand between two turns, some turns after another one.  Each turn takes the
    item at the cursor, and no receiver has failed so far. -/
inductive Reaches (receive : Receiver State Fault) (p : Pass State) : Pass State → Prop
  | refl : Reaches receive p p
  | next {q r : Pass State} {c : Char} {rest : List Char} (hq : Reaches receive p q)
      (hremaining : q.scanner.remaining = c :: rest)
      (hturn : q.takeItem receive (Item.cut c rest).1 = (.ok (), r)) : Reaches receive p r

theorem takeAll_of_reaches {p q : Pass State} (h : Reaches receive p q) :
    takeAll receive (items p.scanner.remaining) p
      = takeAll receive (items q.scanner.remaining) q := by
  induction h with
  | refl => rfl
  | @next q r c rest _ hremaining hturn ih =>
    rw [ih, hremaining, items_cons, takeAll_cons, hturn, scanner_of_takeItem hturn,
      q.scanner.remaining_takeItem hremaining]

theorem source_filename_of_reaches {p q : Pass State} (h : Reaches receive p q) :
    q.scanner.source = p.scanner.source ∧ q.scanner.filename = p.scanner.filename := by
  induction h with
  | refl => exact ⟨rfl, rfl⟩
  | next _ _ hturn ih =>
    rw [scanner_of_takeItem hturn, Scanner.source_takeItem, Scanner.filename_takeItem]
    exact ih

@[simp] theorem remaining_begin (s : Scanner) (state : State) :
    (begin s state).scanner.remaining = s.source.toList := by
  simp [begin, Scanner.restart, Scanner.new, Scanner.remaining]

theorem toList_tokens_finish (p : Pass State) :
    p.finish.scanner.tokens.toList
      = p.scanner.tokens.toList ++ [Token.endOfInput p.scanner.line] := by
  simp [finish]

theorem errors_finish (p : Pass State) : p.finish.scanner.errors = p.scanner.errors := by
  simp [finish]

end Pass

/-! ## Whole passes -/

namespace Scanner

variable {State Fault : Type} {receive : Receiver State Fault}

/-- From between any two turns a pass goes on with the items of the text that remains. -/
theorem tokenize_of_reaches {s : Scanner} {state : State} {q : Pass State}
    (h : (Pass.begin s state).Reaches receive q) :
    s.tokenize receive state =
      match Pass.takeAll receive (items q.scanner.remaining) q with
      | (.ok (), r) => (.ok (), r.finish)
      | failed => failed := by
  have hrest := Pass.takeAll_of_reaches h
  rw [Pass.remaining_begin] at hrest
  rcases heq : Pass.takeAll receive (items q.scanner.remaining) q with ⟨_ | _, r⟩
  all_goals rw [heq] at hrest
  all_goals simp only [tokenize, hrest]

/-- Where a pass ends the receiver is as it was behind the last item. -/
theorem tokenize_fst_state (receive : Receiver State Fault) (s : Scanner) (state : State) :
    let whole := Pass.takeAll receive (items s.source.toList) (Pass.begin s state)
    (s.tokenize receive state).1 = whole.1 ∧ (s.tokenize receive state).2.state = whole.2.state := by
  intro whole
  rw [tokenize]
  rcases heq : Pass.takeAll receive (items s.source.toList) (Pass.begin s state) with ⟨_ | _, q⟩
  all_goals simp [whole, heq, Pass.finish]

theorem tokenize_fst_of_accepts (h : receive.Accepts) (s : Scanner) (state : State) :
    (s.tokenize receive state).1 = .ok () := by
  rw [(tokenize_fst_state receive s state).1, Pass.takeAll_fst_of_accepts h]

end Scanner

end LoxScan
