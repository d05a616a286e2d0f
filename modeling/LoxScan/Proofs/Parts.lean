import LoxScan.Proofs.Frame

/-! # Parts of a workspace

A workspace may fall into parts that have nothing to do with each other: no scanner of one part
reports to a sink of another one, and no list that is held in one part is a view of a scanner of
another one.

* `Entity` names what a workspace keeps, `Command.entities` what a command speaks of.
* A part is given by its entities.  `Workspace.Respects` says that nothing links a part with the
  rest, `Workspace.AgreeOn` that two workspaces have the same part.
* `Workspace.Shift` is a change of two workspaces with the same part, inside of it, with one lemma
  for each operation that replaces something.
-/

namespace LoxScan

inductive Entity where
  | scanner (name : String)
  | sink (name : String)
  | held (name : String)
deriving DecidableEq, Repr

/-- The entities that a command speaks of, those that it makes included. -/
def Command.entities : Command → List Entity
  | .makeSink name _ | .report name _ | .clear name | .sinkState name => [.sink name]
  | .makeScanner name _ _ reporter => .scanner name :: reporter.toList.map .sink
  | .tokenize name hold | .diagnostics name hold => .scanner name :: hold.toList.map .held
  | .scan _ _ reporter => reporter.toList.map .sink
  | .held name | .heldPop name => [.held name]
  | .sameTokens a b => [.scanner a, .scanner b]
  | .set name (.reporter value) => .scanner name :: value.toList.map .sink
  | .set name _ => [.scanner name]
  | .hasErrors name | .contents name | .editDiagnostic name _ _ | .step name | .stepReport name
  | .advance name | .peek name | .peekNext name | .accept name _ | .atEnd name => [.scanner name]

def Request.entities (request : Request) : List Entity :=
  request.command.entities ++ request.watched.toList.map .scanner

def Request.within (part : Entity → Bool) (request : Request) : Bool :=
  request.entities.all part

def outside (part : Entity → Bool) : Entity → Bool :=
  fun entity => !part entity

@[simp] theorem outside_outside (part : Entity → Bool) : outside (outside part) = part := by
  funext entity
  exact Bool.not_not _

namespace Workspace

/-- Nothing links a part with the rest: a scanner is on the same side as its sink, and a held list on
    the same side as the scanner that it is a view of. -/
structure Respects (part : Entity → Bool) (w : Workspace) : Prop where
  reporter : ∀ {name wired ref}, w.scanners.find? name = some wired → wired.reporter = some ref →
    part (.sink ref.name) = part (.scanner name)
  owner : ∀ {name held owner}, w.held.find? name = some held → held.owner? = some owner →
    part (.scanner owner) = part (.held name)

/-- Two workspaces keep the same in a part. -/
structure AgreeOn (part : Entity → Bool) (w w' : Workspace) : Prop where
  scanners : ∀ {name}, part (.scanner name) → w.scanners.find? name = w'.scanners.find? name
  sinks : ∀ {name}, part (.sink name) → w.sinks.find? name = w'.sinks.find? name
  held : ∀ {name}, part (.held name) → w.held.find? name = w'.held.find? name

variable {part : Entity → Bool} {w w' v v' : Workspace}

theorem respects_outside (h : w.Respects part) : w.Respects (outside part) where
  reporter hfind href := congrArg Bool.not (h.reporter hfind href)
  owner hfind howner := congrArg Bool.not (h.owner hfind howner)

theorem respects_empty (part : Entity → Bool) : empty.Respects part where
  reporter hfind _ := by cases hfind
  owner hfind _ := by cases hfind

namespace AgreeOn

theorem refl (part : Entity → Bool) (w : Workspace) : AgreeOn part w w :=
  ⟨fun _ => rfl, fun _ => rfl, fun _ => rfl⟩

theorem symm (h : AgreeOn part w w') : AgreeOn part w' w :=
  ⟨fun hname => (h.scanners hname).symm, fun hname => (h.sinks hname).symm,
    fun hname => (h.held hname).symm⟩

theorem trans (h : AgreeOn part w v) (h' : AgreeOn part v w') : AgreeOn part w w' :=
  ⟨fun hname => (h.scanners hname).trans (h'.scanners hname),
    fun hname => (h.sinks hname).trans (h'.sinks hname),
    fun hname => (h.held hname).trans (h'.held hname)⟩

theorem sinksNamed (h : AgreeOn part w w') {name : String} (hname : part (.sink name)) :
    w.sinksNamed name = w'.sinksNamed name := by
  rw [Workspace.sinksNamed, h.sinks hname, Workspace.sinksNamed]

theorem sink? (h : AgreeOn part w w') {ref : SinkRef} (href : part (.sink ref.name)) :
    w.sink? ref = w'.sink? ref := by
  rw [Workspace.sink?, h.sinksNamed href, Workspace.sink?]

theorem sinkRef? (h : AgreeOn part w w') {name : String} (hname : part (.sink name)) :
    w.sinkRef? name = w'.sinkRef? name := by
  rw [Workspace.sinkRef?, h.sinksNamed hname, Workspace.sinkRef?]

theorem resolve (h : AgreeOn part w w') {reporter : Option String}
    (hreporter : ∀ name ∈ reporter, part (.sink name)) :
    w.resolve reporter = w'.resolve reporter := by
  cases reporter with
  | none => rfl
  | some name => rw [Workspace.resolve, h.sinkRef? (hreporter name rfl), Workspace.resolve]

theorem outlet (h : AgreeOn part w w') {reporter : Option SinkRef}
    (hreporter : ∀ ref ∈ reporter, part (.sink ref.name)) :
    w.outlet reporter = w'.outlet reporter := by
  cases reporter with
  | none => rfl
  | some ref =>
    rw [Workspace.outlet, Workspace.outlet, Option.bind_some, Option.bind_some,
      h.sink? (hreporter ref rfl)]

theorem heldItems (h : AgreeOn part w w') {held : Held}
    (howner : ∀ owner ∈ held.owner?, part (.scanner owner)) :
    w.heldItems held = w'.heldItems held := by
  cases held with
  | tokensOf name => rw [Workspace.heldItems, h.scanners (howner name rfl), Workspace.heldItems]
  | errorsOf name count =>
    rw [Workspace.heldItems, h.scanners (howner name rfl), Workspace.heldItems]
  | copy items => rfl

end AgreeOn

/-! ## Changes inside of a part -/

/-- Two workspaces with the same part have changed to two others, which again have the same part.
    Nothing outside of the part has changed, and nothing links it with the rest. -/
structure Shift (part : Entity → Bool) (w v v' : Workspace) : Prop where
  respects : v.Respects part
  outside : AgreeOn (outside part) w v
  inside : AgreeOn part v v'

namespace Shift

theorem refl (hw : w.Respects part) (h : AgreeOn part w w') : Shift part w w w' :=
  ⟨hw, .refl _ w, h⟩

theorem setScanner (h : Shift part w v v') {name : String} (hname : part (.scanner name))
    (wired : WiredScanner)
    (hreporter : ∀ ref, wired.reporter = some ref → part (.sink ref.name) = part (.scanner name)) :
    Shift part w (v.setScanner name wired) (v'.setScanner name wired) where
  respects := {
    reporter := by
      intro other wired' ref hfind href
      rw [find?_setScanner] at hfind
      split at hfind
      case isTrue hother =>
        obtain rfl := Option.some.inj hfind
        rw [hother]
        exact hreporter ref href
      case isFalse => exact h.respects.reporter hfind href
    owner := h.respects.owner }
  outside := {
    scanners := by
      intro other hother
      have hne : other ≠ name := by
        rintro rfl
        simp [LoxScan.outside, hname] at hother
      rw [find?_setScanner, if_neg hne]
      exact h.outside.scanners hother
    sinks := h.outside.sinks
    held := h.outside.held }
  inside := {
    scanners := by
      intro other hother
      rw [find?_setScanner, find?_setScanner, h.inside.scanners hother]
    sinks := h.inside.sinks
    held := h.inside.held }

theorem insertSinks (h : Shift part w v v') {name : String} (hname : part (.sink name))
    (sinks : List Sink) :
    Shift part w { v with sinks := v.sinks.insert name sinks }
      { v' with sinks := v'.sinks.insert name sinks } where
  respects := ⟨h.respects.reporter, h.respects.owner⟩
  outside := {
    scanners := h.outside.scanners
    sinks := by
      intro other hother
      have hne : other ≠ name := by
        rintro rfl
        simp [LoxScan.outside, hname] at hother
      rw [Registry.find?_insert, if_neg hne]
      exact h.outside.sinks hother
    held := h.outside.held }
  inside := {
    scanners := h.inside.scanners
    sinks := by
      intro other hother
      rw [Registry.find?_insert, Registry.find?_insert, h.inside.sinks hother]
    held := h.inside.held }

theorem addSink (h : Shift part w v v') {name : String} (hname : part (.sink name)) (sink : Sink) :
    Shift part w (v.addSink name sink) (v'.addSink name sink) := by
  have hinsert := h.insertSinks hname (v.sinksNamed name ++ [sink])
  rw [Workspace.addSink, Workspace.addSink, ← h.inside.sinksNamed hname]
  exact hinsert

theorem setSink (h : Shift part w v v') {ref : SinkRef} (href : part (.sink ref.name))
    (sink : Sink) : Shift part w (v.setSink ref sink) (v'.setSink ref sink) := by
  have hinsert := h.insertSinks href ((v.sinksNamed ref.name).set ref.version sink)
  rw [Workspace.setSink, Workspace.setSink, ← h.inside.sinksNamed href]
  exact hinsert

theorem setOutlet (h : Shift part w v v') {reporter : Option SinkRef}
    (hreporter : ∀ ref ∈ reporter, part (.sink ref.name)) (outlet : Outlet) :
    Shift part w (v.setOutlet reporter outlet) (v'.setOutlet reporter outlet) := by
  obtain ⟨sink, shown⟩ := outlet
  cases reporter with
  | none => exact h
  | some ref =>
    cases sink with
    | none => exact h
    | some sink => exact h.setSink (hreporter ref rfl) sink

theorem setHeld (h : Shift part w v v') {name : String} {held : Held} (hname : part (.held name))
    (howner : ∀ owner, held.owner? = some owner → part (.scanner owner) = part (.held name)) :
    Shift part w (v.setHeld name held) (v'.setHeld name held) where
  respects := {
    reporter := h.respects.reporter
    owner := by
      intro other held' owner hfind hheld
      rw [find?_setHeld] at hfind
      split at hfind
      case isTrue hother =>
        obtain rfl := Option.some.inj hfind
        rw [hother]
        exact howner owner hheld
      case isFalse => exact h.respects.owner hfind hheld }
  outside := {
    scanners := h.outside.scanners
    sinks := h.outside.sinks
    held := by
      intro other hother
      have hne : other ≠ name := by
        rintro rfl
        simp [LoxScan.outside, hname] at hother
      rw [find?_setHeld, if_neg hne]
      exact h.outside.held hother }
  inside := {
    scanners := h.inside.scanners
    sinks := h.inside.sinks
    held := by
      intro other hother
      rw [find?_setHeld, find?_setHeld, h.inside.held hother] }

theorem hold (h : Shift part w v v') {name : Option String} {held : Held} {owner : String}
    (hname : ∀ list ∈ name, part (.held list)) (hscanner : part (.scanner owner))
    (howner : held.owner? = some owner) :
    Shift part w (v.hold name held) (v'.hold name held) := by
  cases name with
  | none => exact h
  | some list =>
    refine h.setHeld (hname list rfl) fun other hother => ?_
    obtain rfl := Option.some.inj (howner.symm.trans hother)
    exact hscanner.trans (hname list rfl).symm

theorem detach (h : Shift part w v v') {name : String} (hname : part (.scanner name)) :
    Shift part w (v.detach name) (v'.detach name) where
  respects := {
    reporter := h.respects.reporter
    owner := by
      intro list held owner hfind howner
      rw [find?_detach] at hfind
      obtain ⟨before, hbefore, rfl⟩ := Option.map_eq_some_iff.1 hfind
      split at howner
      case isTrue => cases howner
      case isFalse => exact h.respects.owner hbefore howner }
  outside := {
    scanners := h.outside.scanners
    sinks := h.outside.sinks
    held := by
      intro list hlist
      rw [find?_detach, h.outside.held hlist]
      cases hfind : v.held.find? list with
      | none => rfl
      | some held =>
        -- A list out there is no view of a scanner in here, so it is not copied.
        have hne : held.owner? ≠ some name := by
          intro howner
          have hside := h.respects.owner hfind howner
          simp [LoxScan.outside, ← hside, hname] at hlist
        rw [Option.map_some, if_neg hne] }
  inside := {
    scanners := h.inside.scanners
    sinks := h.inside.sinks
    held := by
      intro list hlist
      rw [find?_detach, find?_detach, h.inside.held hlist]
      refine Option.map_congr fun held _ => ?_
      split
      case isTrue howner =>
        rw [h.inside.heldItems fun owner hmem => ?_]
        obtain rfl := Option.some.inj (howner.symm.trans hmem)
        exact hname
      case isFalse => rfl }

end Shift

end Workspace

end LoxScan
