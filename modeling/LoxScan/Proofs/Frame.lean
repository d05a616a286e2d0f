import LoxScan.Workspace.Command

/-! # What operations on a workspace leave as it is

An operation on one part of a workspace leaves the other parts alone.

* For the operations that replace one entry, `find?` and `sink?` lemmas say what is found afterwards.
* For the operations of the commands, there is one lemma for each of the registries that they do
  not touch.
-/

namespace LoxScan

namespace Workspace

variable (w : Workspace)

/-! ## Replacing one entry -/

@[simp] theorem held_setScanner (name : String) (wired : WiredScanner) :
    (w.setScanner name wired).held = w.held := rfl

@[simp] theorem scanners_setHeld (name : String) (held : Held) :
    (w.setHeld name held).scanners = w.scanners := rfl

@[simp] theorem scanners_hold (name : Option String) (held : Held) :
    (w.hold name held).scanners = w.scanners := by
  cases name <;> rfl

@[simp] theorem sinks_hold (name : Option String) (held : Held) :
    (w.hold name held).sinks = w.sinks := by
  cases name <;> rfl

@[simp] theorem scanners_setOutlet (reporter : Option SinkRef) (outlet : Outlet) :
    (w.setOutlet reporter outlet).scanners = w.scanners := by
  unfold setOutlet
  split <;> rfl

@[simp] theorem held_setOutlet (reporter : Option SinkRef) (outlet : Outlet) :
    (w.setOutlet reporter outlet).held = w.held := by
  unfold setOutlet
  split <;> rfl

theorem sink?_congr {w v : Workspace} (h : v.sinks = w.sinks) (ref : SinkRef) :
    v.sink? ref = w.sink? ref := by
  rw [sink?, sinksNamed, h, sink?, sinksNamed]

theorem find?_setScanner (name other : String) (wired : WiredScanner) :
    (w.setScanner name wired).scanners.find? other =
      if other = name then some wired else w.scanners.find? other :=
  Registry.find?_insert ..

theorem find?_setHeld (name other : String) (held : Held) :
    (w.setHeld name held).held.find? other =
      if other = name then some held else w.held.find? other :=
  Registry.find?_insert ..

theorem find?_detach (name other : String) :
    (w.detach name).held.find? other = (w.held.find? other).map fun held =>
      if held.owner? = some name then .copy (w.heldItems held) else held :=
  Registry.find?_mapValues ..

theorem sinksNamed_setSink (ref : SinkRef) (sink : Sink) (name : String) :
    (w.setSink ref sink).sinksNamed name =
      if name = ref.name then (w.sinksNamed name).set ref.version sink else w.sinksNamed name := by
  rw [sinksNamed, setSink, Registry.find?_insert]
  split
  case isTrue h => rw [h, Option.getD_some]
  case isFalse => rfl

/-- Only the sink itself is replaced, not another one of the same name. -/
theorem sink?_setSink (ref other : SinkRef) (sink : Sink) :
    (w.setSink ref sink).sink? other =
      if other = ref then (w.sink? ref).map fun _ => sink else w.sink? other := by
  obtain ⟨name, version⟩ := ref
  obtain ⟨other, otherVersion⟩ := other
  simp only [sink?, sinksNamed_setSink, SinkRef.mk.injEq]
  by_cases hname : other = name
  · subst hname
    by_cases hversion : otherVersion = version
    · subst hversion
      rw [if_pos rfl, if_pos ⟨rfl, rfl⟩, List.getElem?_set_self']
      rfl
    · simp [hversion, Ne.symm hversion]
  · simp [hname]

theorem sink?_setSink_of_some {ref : SinkRef} {sink : Sink} (hsink : w.sink? ref = some sink)
    (other : SinkRef) (after : Sink) :
    (w.setSink other after).sink? ref = some (if other = ref then after else sink) := by
  rw [sink?_setSink]
  by_cases href : other = ref
  · rw [if_pos href.symm, if_pos href, href, hsink, Option.map_some]
  · rw [if_neg (Ne.symm href), if_neg href, hsink]

theorem sinksNamed_addSink (name other : String) (sink : Sink) :
    (w.addSink name sink).sinksNamed other =
      if other = name then w.sinksNamed name ++ [sink] else w.sinksNamed other := by
  rw [sinksNamed, addSink, Registry.find?_insert]
  split <;> rfl

/-- A new sink takes the name of an old one and not its place. -/
theorem sink?_addSink {ref : SinkRef} {sink : Sink} (h : w.sink? ref = some sink) (name : String)
    (added : Sink) : (w.addSink name added).sink? ref = some sink := by
  rw [sink?, sinksNamed_addSink]
  split
  case isTrue hname =>
    obtain ⟨hlength, -⟩ := List.getElem?_eq_some_iff.1 h
    rw [hname] at hlength
    rw [List.getElem?_append_left hlength, ← hname]
    exact h
  case isFalse => exact h

/-! ## Names of sinks -/

section

variable {w} {ref : SinkRef} {sink : Sink}

theorem name_of_sinkRef? {name : String} (h : w.sinkRef? name = some ref) :
    ref.name = name := by
  unfold sinkRef? at h
  split at h
  case h_1 => cases h
  case h_2 => exact congrArg SinkRef.name (Option.some.inj h).symm

theorem bind_sinkRef? (w : Workspace) (reporter : Option String) :
    reporter.bind w.sinkRef? = (w.resolve reporter).toOption.join := by
  cases reporter with
  | none => rfl
  | some name =>
    rw [resolve, Option.bind_some]
    cases w.sinkRef? name <;> rfl

theorem currentSink_eq {name : String} (href : w.sinkRef? name = some ref)
    (hsink : w.sink? ref = some sink) : w.currentSink name = .ok (ref, sink) := by
  rw [currentSink, href, Option.bind_some, hsink]
  rfl

theorem sinkRef?_of_currentSink {name : String} {found : SinkRef × Sink}
    (h : w.currentSink name = .ok found) : w.sinkRef? name = some found.1 := by
  unfold currentSink at h
  split at h
  case h_1 other hother =>
    obtain rfl := Except.ok.inj h
    obtain ⟨ref, href, hsink⟩ := Option.bind_eq_some_iff.1 hother
    obtain ⟨sink, -, rfl⟩ := Option.map_eq_some_iff.1 hsink
    exact href
  case h_2 => cases h

end

/-! ## The operations of the commands -/

@[simp] theorem askScanner_snd (name : String) (question : Scanner → Answer) :
    (w.askScanner name question).2 = w := by
  unfold askScanner
  split <;> rfl

@[simp] theorem sinks_onScanner (name : String)
    (act : Scanner → Except Failure Answer × Scanner) :
    (w.onScanner name act).2.sinks = w.sinks := by
  unfold onScanner
  split <;> rfl

@[simp] theorem scanners_onSink (name : String) (act : Sink → Delivery) :
    (w.onSink name act).2.scanners = w.scanners := by
  unfold onSink
  split <;> rfl

@[simp] theorem held_onSink (name : String) (act : Sink → Delivery) :
    (w.onSink name act).2.held = w.held := by
  unfold onSink
  split <;> rfl

@[simp] theorem scanners_scan (source : String) (filename reporter : Option String) :
    (w.scan source filename reporter).2.scanners = w.scanners := by
  unfold scan
  split
  case h_1 => rfl
  case h_2 => exact w.scanners_setOutlet _ _

@[simp] theorem held_scan (source : String) (filename reporter : Option String) :
    (w.scan source filename reporter).2.held = w.held := by
  unfold scan
  split
  case h_1 => rfl
  case h_2 => exact w.held_setOutlet _ _

theorem sinks_edit (name : String) (edit : ScannerEdit) :
    (w.edit name edit).2.sinks = w.sinks := by
  cases edit with
  | source | filename | line | current => exact w.sinks_onScanner ..
  | reporter value =>
    simp only [Workspace.edit]
    split <;> rfl

section

variable {w} {v : Workspace}

/-- What is popped comes off a list, or off the tokens of a scanner. -/
theorem eq_of_popHeld {name : String} {held : Held} (h : w.popHeld name held = .ok v) :
    (∃ left, v = w.setHeld name left) ∨
      ∃ scanner wired, held = .tokensOf scanner ∧ w.scanners.find? scanner = some wired ∧
        v = w.setScanner scanner { wired with
          scanner := { wired.scanner with tokens := wired.scanner.tokens.pop } } := by
  unfold popHeld at h
  cases held with
  | tokensOf scanner =>
    cases hfind : w.scanners.find? scanner with
    | none => simp [hfind] at h
    | some wired =>
      by_cases hempty : wired.scanner.tokens.isEmpty
      · simp [hfind, hempty] at h
      · simp only [hfind, hempty] at h
        exact .inr ⟨scanner, wired, rfl, hfind, (Except.ok.inj h).symm⟩
  | errorsOf scanner count =>
    cases count with
    | zero => cases h
    | succ count => exact .inl ⟨_, (Except.ok.inj h).symm⟩
  | copy items =>
    cases hpop : items.pop? with
    | none => simp [hpop] at h
    | some left =>
      simp only [hpop] at h
      exact .inl ⟨_, (Except.ok.inj h).symm⟩

theorem sinks_popHeld {name : String} {held : Held} (h : w.popHeld name held = .ok v) :
    v.sinks = w.sinks := by
  obtain ⟨left, rfl⟩ | ⟨scanner, wired, -, -, rfl⟩ := eq_of_popHeld h
  · rfl
  · rfl

end

/-! ## Sessions -/

theorem session_append (earlier later : List Request) :
    session (earlier ++ later) w =
      ((session earlier w).1 ++ (session later (session earlier w).2).1,
        (session later (session earlier w).2).2) := by
  induction earlier generalizing w with
  | nil => rfl
  | cons request earlier ih => simp only [List.cons_append, session, ih]

theorem length_session (requests : List Request) :
    (session requests w).1.length = requests.length := by
  induction requests generalizing w with
  | nil => rfl
  | cons request rest ih => exact congrArg (· + 1) (ih _)

end Workspace

end LoxScan
