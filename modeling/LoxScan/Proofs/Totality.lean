import LoxScan.Proofs.Reading

/-! # Passes never fail by themselves

A pass whose items are read by the character does what a pass does, and only its receiver can make
it fail.

* `Pass.turn` is one turn of such a pass, `Scanner.read` the whole pass.
* `Scanner.read_eq`: both ways of scanning give the same pass, for every receiver.
* `Scanner.Advances` is what a turn does at least and at most; it bounds what is found in a pass.
-/

namespace LoxScan

variable {State Fault : Type}

/-! ## Passes of readers -/

/-- What is done in a pass.  It stops where a reading stops or the receiver fails. -/
abbrev Scan (State Fault α : Type) := Program (Pass State) (Stop ⊕ Fault) α

namespace Pass

def ofReader {α : Type} (reader : Reader α) : Scan State Fault α := fun p =>
  let (result, scanner) := reader p.scanner
  (result.mapError .inl, { p with scanner })

def ofReport (receive : Receiver State Fault) (error : LexicalError) :
    Scan State Fault Unit := fun p =>
  let (result, q) := p.report receive error
  (result.mapError .inr, q)

/-- Reads one item.  A lexical error is kept and reported, and goes no further; whatever else stops
    the reading goes on. -/
def turn (receive : Receiver State Fault) : Scan State Fault Unit := do
  modify fun p => { p with scanner := { p.scanner with start := p.scanner.current } }
  try ofReader Reader.item
  catch
    | .inl (.failure (.lexical error)) => ofReport receive error
    | stop => throw stop

def hasMore : Scan State Fault Bool := do
  return !(← get).scanner.atEnd

def read (receive : Receiver State Fault) : Scan State Fault Unit := do
  Program.repeatWhile (fun p => p.scanner.left) (.inl .stuck) hasMore (turn receive)
  modify Pass.finish

end Pass

def Scanner.read (receive : Receiver State Fault) (s : Scanner) (state : State) :
    Except (Stop ⊕ Fault) Unit × Pass State :=
  Pass.read receive (Pass.begin s state)

/-! ## Both ways to scan -/

namespace Pass

variable {receive : Receiver State Fault} {p q : Pass State} {c : Char} {rest : List Char}

theorem hasMore_of_nil (h : p.scanner.remaining = []) :
    (hasMore : Scan State Fault Bool) p = (.ok false, p) := by
  simp [hasMore, p.scanner.atEnd_iff.2 h]

theorem hasMore_of_cons (h : p.scanner.remaining = c :: rest) :
    (hasMore : Scan State Fault Bool) p = (.ok true, p) := by
  simp [hasMore, Reader.atEnd_eq_false h]

theorem turn_apply (hremaining : p.scanner.remaining = c :: rest) :
    turn receive p = ((p.takeItem receive (Item.cut c rest).1).1.mapError .inr,
      (p.takeItem receive (Item.cut c rest).1).2) := by
  -- Where the item starts is noted down before it is read, and once more when it is taken.
  let started : Scanner := { p.scanner with start := p.scanner.current }
  let item := (Item.cut c rest).1
  have hread : Reader.item started
      = (Reader.answer (item.error? p.scanner.filename p.scanner.line), p.scanner.consume item) :=
    @Reader.item_apply started c rest rfl hremaining
  have herror : (p.consume item).scanner.errorOf? item
      = item.error? p.scanner.filename p.scanner.line := p.scanner.errorOf?_consume item
  have hreader : (ofReader Reader.item : Scan State Fault Unit) { p with scanner := started }
      = ((Reader.answer (item.error? p.scanner.filename p.scanner.line)).mapError .inl,
        p.consume item) := by
    rw [ofReader, hread]
    rfl
  simp only [turn, Program.bind_apply, Program.modify_apply, Program.tryCatch_apply]
  rw [hreader, takeItem, herror]
  cases item.error? p.scanner.filename p.scanner.line
  all_goals rfl

theorem repeatWhile_turn (p : Pass State) :
    Program.repeatWhile (fun p => p.scanner.left) (.inl .stuck) hasMore (turn receive) p =
      ((takeAll receive (items p.scanner.remaining) p).1.mapError .inr,
        (takeAll receive (items p.scanner.remaining) p).2) := by
  induction h : p.scanner.remaining.length using Nat.strongRecOn generalizing p with
  | _ n ih =>
    subst h
    cases hremaining : p.scanner.remaining with
    | nil =>
      rw [Program.repeatWhile_of_false (hasMore_of_nil hremaining), items_nil]
      rfl
    | cons c rest =>
      have hturn := @turn_apply _ _ receive p _ _ hremaining
      rw [items_cons, takeAll_cons]
      rcases htake : p.takeItem receive (Item.cut c rest).1 with ⟨_ | _, q⟩
      all_goals rw [htake] at hturn
      case error fault =>
        rw [Program.repeatWhile, hasMore_of_cons hremaining]
        simp only [hturn]
        rfl
      case ok =>
        have hrest : q.scanner.remaining = (Item.cut c rest).2 := by
          rw [scanner_of_takeItem htake, p.scanner.remaining_takeItem hremaining]
        have hless : q.scanner.left < p.scanner.left := by
          rw [Scanner.left, Scanner.left, hrest, hremaining]
          exact Item.length_cut_lt c rest
        rw [Program.repeatWhile_of_true (hasMore_of_cons hremaining) hturn hless,
          ih _ hless q rfl, hrest]

end Pass

namespace Scanner

/-- A pass that reads by the character does what a pass does: it asks for no character outside of
    the source, gets stuck nowhere, and fails only if its receiver does. -/
theorem read_eq (receive : Receiver State Fault) (s : Scanner) (state : State) :
    s.read receive state =
      ((s.tokenize receive state).1.mapError .inr, (s.tokenize receive state).2) := by
  rw [read, Pass.read, Program.bind_apply, Pass.repeatWhile_turn, Pass.remaining_begin, tokenize]
  rcases heq : Pass.takeAll receive (items s.source.toList) (Pass.begin s state) with ⟨_ | _, p⟩
  all_goals rfl

end Scanner

/-! ## What a turn adds -/

/-- The cursor goes on inside of the source, and no more is found than one token or one error. -/
structure Scanner.Advances (s t : Scanner) : Prop where
  source : t.source = s.source
  current : s.current < t.current
  bound : t.current ≤ t.source.length
  found : (∃ token : Option Token,
      t.tokens.toList = s.tokens.toList ++ token.toList ∧ t.errors.toList = s.errors.toList) ∨
    ∃ error, t.tokens.toList = s.tokens.toList ∧ t.errors.toList = s.errors.toList ++ [error]

namespace Scanner

variable {s t : Scanner} {c : Char} {rest : List Char}

theorem advances_takeItem (h : s.remaining = c :: rest) :
    s.Advances (s.takeItem (Item.cut c rest).1) := by
  have hlength : (Item.cut c rest).1.text.length + (Item.cut c rest).2.length
      = s.source.length - s.current := by
    rw [← List.length_append, Item.cut_append, ← h, length_remaining]
  have hpositive := List.length_pos_iff.2 (Item.cut_text_ne_nil c rest)
  refine ⟨s.source_takeItem _, ?_, ?_, ?_⟩
  · rw [current_takeItem]
    omega
  · rw [current_takeItem, source_takeItem]
    omega
  · rw [toList_tokens_takeItem, toList_errors_takeItem]
    cases hfault : (Item.cut c rest).1.fault? with
    | none => exact .inl ⟨_, rfl, by simp [Item.error?, hfault]⟩
    | some fault =>
      have htoken := Item.token?_eq_none_of_fault? hfault s.line
      exact .inr ⟨_, by simp [htoken], by simp [Item.error?, hfault]; rfl⟩

theorem Advances.size_le (h : s.Advances t) (hs : s.tokens.size + s.errors.size ≤ s.current) :
    t.tokens.size + t.errors.size ≤ t.current := by
  have hcurrent := h.current
  obtain ⟨token, htokens, herrors⟩ | ⟨error, htokens, herrors⟩ := h.found
  all_goals
    have htokens := congrArg List.length htokens
    have herrors := congrArg List.length herrors
    simp only [List.length_append, Array.length_toList] at htokens herrors
  · have htoken : token.toList.length ≤ 1 := by cases token <;> simp
    omega
  · rw [List.length_singleton] at herrors
    omega

end Scanner

/-! ## Whole passes -/

namespace Pass

variable {receive : Receiver State Fault} {p q : Pass State} {c : Char} {rest : List Char}

theorem turn_of_accepts (h : receive.Accepts) (hremaining : p.scanner.remaining = c :: rest) :
    ∃ q, turn receive p = (.ok (), q) ∧ p.takeItem receive (Item.cut c rest).1 = (.ok (), q) := by
  have hturn := @turn_apply _ _ receive p _ _ hremaining
  have htaken := takeItem_fst_of_accepts h p (Item.cut c rest).1
  rw [htaken] at hturn
  exact ⟨_, hturn, Prod.ext htaken rfl⟩

/-- Where the loop of a pass comes to its test the pass is between two turns. -/
theorem reaches_of_rounds (h : receive.Accepts)
    (hrounds : Program.Rounds hasMore (turn receive) p q) : p.Reaches receive q := by
  induction hrounds with
  | start => exact .refl
  | @round t u v _ htest hbody ih =>
    cases hremaining : t.scanner.remaining with
    | nil =>
      rw [hasMore_of_nil hremaining] at htest
      cases htest
    | cons c rest =>
      rw [hasMore_of_cons hremaining] at htest
      cases htest
      obtain ⟨r, hturn, htaken⟩ := turn_of_accepts h hremaining
      rw [hturn] at hbody
      cases hbody
      exact .next ih hremaining htaken

theorem bounds_of_reaches {s : Scanner} {state : State}
    (h : (begin s state).Reaches receive q) :
    q.scanner.current ≤ s.source.length ∧
      q.scanner.tokens.size + q.scanner.errors.size ≤ q.scanner.current := by
  induction h with
  | refl => exact ⟨Nat.zero_le _, Nat.le_refl _⟩
  | @next q r c rest hq hremaining hturn ih =>
    have hsource : r.scanner.source = s.source :=
      (source_filename_of_reaches (hq.next hremaining hturn)).1
    have hadvances := Scanner.advances_takeItem hremaining
    rw [← scanner_of_takeItem hturn] at hadvances
    exact ⟨hsource ▸ hadvances.bound, hadvances.size_le ih.2⟩

theorem exists_reaches_end (h : receive.Accepts) (hq : p.Reaches receive q) :
    ∃ r, p.Reaches receive r ∧ r.scanner.remaining = [] := by
  induction hlength : q.scanner.remaining.length using Nat.strongRecOn generalizing q with
  | _ n ih =>
    subst hlength
    cases hremaining : q.scanner.remaining with
    | nil => exact ⟨q, hq, hremaining⟩
    | cons c rest =>
      obtain ⟨r, -, htaken⟩ := turn_of_accepts h hremaining
      have hrest : r.scanner.remaining = (Item.cut c rest).2 := by
        rw [scanner_of_takeItem htaken, q.scanner.remaining_takeItem hremaining]
      refine ih _ ?_ (.next hq hremaining htaken) rfl
      rw [hrest, hremaining]
      exact Item.length_cut_lt c rest

end Pass

/-- A pass never fails by itself, and it ends. -/
theorem tokenize_total {receive : Receiver State Fault} (haccepts : receive.Accepts) (s : Scanner)
    (state : State) :
    let p := (s.tokenize receive state).2
    s.read receive state = (.ok (), p) ∧ (s.tokenize receive state).1 = .ok () ∧
      (∀ q, Program.Rounds Pass.hasMore (Pass.turn receive) (Pass.begin s state) q →
        q.scanner.source = s.source ∧ q.scanner.current ≤ s.source.length ∧
        (q.scanner.current < s.source.length →
          ∃ r, Pass.turn receive q = (.ok (), r) ∧ q.scanner.Advances r.scanner)) ∧
      p.scanner.tokens.size + p.scanner.errors.size ≤ s.source.length + 1 := by
  intro p
  have hended := s.tokenize_fst_of_accepts haccepts state
  refine ⟨?_, hended, ?_, ?_⟩
  · rw [s.read_eq, hended]
    rfl
  · intro q hq
    have hreaches := Pass.reaches_of_rounds haccepts hq
    have hsource : q.scanner.source = s.source := (Pass.source_filename_of_reaches hreaches).1
    obtain ⟨hbound, -⟩ := Pass.bounds_of_reaches hreaches
    refine ⟨hsource, hbound, fun hmore => ?_⟩
    cases hremaining : q.scanner.remaining with
    | nil =>
      have hend := q.scanner.atEnd_iff.2 hremaining
      simp only [Scanner.atEnd, decide_eq_true_eq, hsource] at hend
      omega
    | cons c rest =>
      obtain ⟨r, hturn, htaken⟩ := Pass.turn_of_accepts haccepts hremaining
      refine ⟨r, hturn, ?_⟩
      rw [Pass.scanner_of_takeItem htaken]
      exact Scanner.advances_takeItem hremaining
  · obtain ⟨q, hq, hend⟩ := Pass.exists_reaches_end haccepts
      (@Pass.Reaches.refl _ _ receive (Pass.begin s state))
    obtain ⟨hbound, hsize⟩ := Pass.bounds_of_reaches hq
    have hpass : p = q.finish := by
      simp only [p, s.tokenize_of_reaches hq, hend, items_nil, Pass.takeAll]
    have htokens := congrArg List.length q.toList_tokens_finish
    have herrors := congrArg Array.size q.errors_finish
    simp only [List.length_append, List.length_singleton, Array.length_toList] at htokens
    rw [hpass]
    omega

/-- A number with a dot behind it, a rejected character and a string that is not closed. -/
theorem tokenize_total_faults :
    let s := Scanner.new "1.@\n\"a" none
    let p := (s.tokenize Receiver.silent ()).2
    Receiver.silent.Accepts ∧ s.read Receiver.silent () = (.ok (), p) ∧
      p.scanner.tokens.size = 3 ∧ p.scanner.errors.size = 2 ∧
      p.scanner.tokens.size + p.scanner.errors.size ≤ s.source.length + 1 := by
  intro s p
  have htokens : p.scanner.tokens.size = 3 := by decide +kernel
  have herrors : p.scanner.errors.size = 2 := by decide +kernel
  obtain ⟨hread, -, -, hsize⟩ := tokenize_total Receiver.accepts_silent s ()
  exact ⟨Receiver.accepts_silent, hread, htokens, herrors, hsize⟩

end LoxScan
