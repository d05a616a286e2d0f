import LoxScan.Proofs.ItemForm
import LoxScan.Proofs.Pass

/-! # Lookahead

No turn of a pass reads more than two characters after the item that it takes.  So two passes over
sources with the same beginning go the same way, until they are two characters from its end.

* `Item.cut_of_take_eq` is about one item.
* `Pass.Matches` relates passes that stand at the same place and have found the same, and
  `Matches.takeItem` is about one turn.
* `reaches_of_take_eq` is about whole passes.
-/

namespace LoxScan

/-- What stands more than two characters after an item does not change it. -/
theorem Item.cut_of_take_eq {c d : Char} {after other rest : List Char} {item : Item}
    (hcut : cut c after = (item, rest))
    (h : (c :: after).take (item.text.length + 2) = (d :: other).take (item.text.length + 2)) :
    cut d other = (item, (d :: other).drop item.text.length) := by
  obtain ⟨hshape, happend, hrest⟩ := cut_eq_iff.1 hcut
  have hother : (d :: other).take (item.text.length + 2) = item.text ++ rest.take 2 := by
    rw [← h, ← happend, List.take_length_add_append]
  have hbegin : (d :: other).take item.text.length = item.text := by
    rw [show item.text.length = min item.text.length (item.text.length + 2) by omega,
      ← List.take_take, hother, List.take_left]
  have hlook : rest.take 2 = ((d :: other).drop item.text.length).take 2 := by
    rw [List.take_drop, hother, List.drop_left]
  refine cut_eq_iff.2 ⟨hshape, ?_, ?_⟩
  · rw [← List.take_append_drop item.text.length (d :: other), hbegin, List.drop_left]
  · rw [← item.extendedBy_congr hlook, hrest]

theorem Scanner.takeItem_withSource (s : Scanner) (source : String) (item : Item) :
    { s with source }.takeItem item = { s.takeItem item with source } := by
  unfold takeItem consume
  cases item.error? s.filename s.line <;> cases item.token? s.line <;> rfl

namespace Pass

variable {State Fault : Type}

/-- Passes over two sources that stand at the same place and have found the same.  Only the first
    records of their logs may differ, which have the sizes of the sources. -/
structure Matches (p q : Pass State) : Prop where
  scanner : q.scanner = { p.scanner with source := q.scanner.source }
  state : q.state = p.state
  log : ∃ a b records, p.log.toList = a :: records ∧ q.log.toList = b :: records

theorem matches_begin {s t : Scanner} (h : s.filename = t.filename) (state : State) :
    (begin s state).Matches (begin t state) := by
  refine ⟨?_, rfl, _, _, [], rfl, rfl⟩
  simp [begin, Scanner.restart, Scanner.new, h]

/-- A turn that takes the same item keeps passes alike, and the receiver gives one answer. -/
theorem Matches.takeItem {p q : Pass State} (h : p.Matches q) (receive : Receiver State Fault)
    (item : Item) :
    (q.takeItem receive item).1 = (p.takeItem receive item).1 ∧
      (p.takeItem receive item).2.Matches (q.takeItem receive item).2 := by
  have hname : q.scanner.filename = p.scanner.filename := by rw [h.scanner]
  have hline : q.scanner.line = p.scanner.line := by rw [h.scanner]
  have hscanner : (q.takeItem receive item).2.scanner =
      { (p.takeItem receive item).2.scanner with
        source := (q.takeItem receive item).2.scanner.source } := by
    rw [scanner_takeItem, scanner_takeItem, Scanner.source_takeItem, ← Scanner.takeItem_withSource,
      ← h.scanner]
  have herror : (q.consume item).scanner.errorOf? item
      = (p.consume item).scanner.errorOf? item := by
    show (q.scanner.consume item).errorOf? item = (p.scanner.consume item).errorOf? item
    rw [Scanner.errorOf?_consume, Scanner.errorOf?_consume, hname, hline]
  obtain ⟨a, b, records, hp, hq⟩ := h.log
  refine ⟨?_, hscanner, ?_, ?_⟩
  all_goals rw [Pass.takeItem, Pass.takeItem, herror]
  all_goals rcases (p.consume item).scanner.errorOf? item with _ | error
  case refine_1.none => rfl
  case refine_1.some =>
    show (receive error.report q.state).1 = (receive error.report p.state).1
    rw [h.state]
  case refine_2.none => exact h.state
  case refine_2.some =>
    show (receive error.report q.state).2 = (receive error.report p.state).2
    rw [h.state]
  case refine_3.none => exact ⟨a, b, records, hp, hq⟩
  case refine_3.some =>
    refine ⟨a, b, records ++ [.found error.diagnostic.location error.message], ?_, ?_⟩
    · simp [report, keep, consume, hp]
    · simp [report, keep, consume, hq]

end Pass

theorem take_drop_eq {text other : List Char} {n i m : Nat} (h : text.take n = other.take n)
    (hm : i + m ≤ n) : (text.drop i).take m = (other.drop i).take m := by
  have hshort : text.take (i + m) = other.take (i + m) := by
    rw [← Nat.min_eq_left hm, ← List.take_take, h, List.take_take]
  rw [List.take_drop, List.take_drop, hshort]

/-- Passes over sources with the same beginning go the same way, as long as two characters of that
    beginning are still to come. -/
theorem reaches_of_take_eq {State Fault : Type} {receive : Receiver State Fault} {s t : Scanner}
    {state : State} {n : Nat} {p : Pass State} (hfilename : s.filename = t.filename)
    (htake : s.source.toList.take n = t.source.toList.take n)
    (hp : (Pass.begin s state).Reaches receive p) (hn : p.scanner.current + 2 ≤ n) :
    ∃ q, (Pass.begin t state).Reaches receive q ∧ p.Matches q := by
  induction hp with
  | refl => exact ⟨_, .refl, Pass.matches_begin hfilename state⟩
  | @next p r c after hp hremaining hturn ih =>
    rcases hcut : Item.cut c after with ⟨item, rest⟩
    rw [hcut] at hturn
    have hcurrent : r.scanner.current = p.scanner.current + item.text.length := by
      rw [Pass.scanner_of_takeItem hturn, Scanner.current_takeItem]
    obtain ⟨q, hq, hmatches⟩ := ih (by omega)
    have hsource : q.scanner.remaining = t.source.toList.drop p.scanner.current := by
      rw [Scanner.remaining, (Pass.source_filename_of_reaches hq).1, hmatches.scanner]
      rfl
    have hlook : (c :: after).take (item.text.length + 2)
        = q.scanner.remaining.take (item.text.length + 2) := by
      rw [hsource, ← hremaining, Scanner.remaining, (Pass.source_filename_of_reaches hp).1]
      exact take_drop_eq htake (by omega)
    cases hother : q.scanner.remaining with
    | nil => simp [hother] at hlook
    | cons d other =>
      rw [hother] at hlook
      have hcut' := Item.cut_of_take_eq hcut hlook
      obtain ⟨hanswer, hnext⟩ := hmatches.takeItem receive item
      rw [hturn] at hanswer hnext
      refine ⟨_, .next hq hother ?_, hnext⟩
      rw [hcut']
      exact Prod.ext hanswer rfl

/-- The first turn over `1. x` is done once the space is there. -/
theorem reaches_of_take_eq_number :
    let s := Scanner.new "1. x" none
    let t := Scanner.new "1. @" none
    ∃ p, s.filename = t.filename ∧ s.source.toList.take 3 = t.source.toList.take 3 ∧
      (Pass.begin s ()).Reaches Receiver.silent p ∧ p.scanner.current + 2 ≤ 3 ∧
      ∃ q, (Pass.begin t ()).Reaches Receiver.silent q ∧ p.Matches q := by
  intro s t
  have hfilename : s.filename = t.filename := rfl
  have htake : s.source.toList.take 3 = t.source.toList.take 3 := by decide
  have hremaining : (Pass.begin s ()).scanner.remaining = ['1', '.', ' ', 'x'] := by decide
  have hp : (Pass.begin s ()).Reaches Receiver.silent
      ((Pass.begin s ()).takeItem Receiver.silent (Item.cut '1' ['.', ' ', 'x']).1).2 :=
    .next .refl hremaining rfl
  have hn : ((Pass.begin s ()).takeItem Receiver.silent
      (Item.cut '1' ['.', ' ', 'x']).1).2.scanner.current + 2 ≤ 3 := by decide
  exact ⟨_, hfilename, htake, hp, hn, reaches_of_take_eq hfilename htake hp hn⟩

end LoxScan
