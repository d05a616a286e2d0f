import LoxScan.Proofs.Parts

/-! # Independence of the parts of a workspace

A part of a workspace that nothing links with the rest behaves as if it was alone.

* `Workspace.Moves` is an action in two workspaces with the same part; `perform_moves` is that every
  command on a part is one.
* `reply_outside`: requests to the rest leave a part as it is.
* `session_independent`: a session on a part is not disturbed by requests to the rest, and two
  neighbouring requests to different parts may change places.
-/

namespace LoxScan

namespace Workspace

variable {part : Entity → Bool} {w w' v v' : Workspace}

/-! ## Single commands -/

/-- The same action in two workspaces with the same part: it answers the same, and changes both
    inside of the part. -/
structure Moves (part : Entity → Bool) (w : Workspace) (r r' : Response × Workspace) : Prop where
  answer : r.1 = r'.1
  shift : Shift part w r.2 r'.2

theorem mem_of_resolve {reporter : Option String} {ref : Option SinkRef}
    (h : w.resolve reporter = .ok ref) : ∀ found ∈ ref, found.name ∈ reporter := by
  rintro found rfl
  have hbind := w.bind_sinkRef? reporter
  rw [h] at hbind
  obtain ⟨name, rfl, href⟩ := Option.bind_eq_some_iff.1 hbind
  rw [name_of_sinkRef? href]
  rfl

theorem AgreeOn.currentSink (h : AgreeOn part w w') {name : String} (hname : part (.sink name)) :
    w.currentSink name = w'.currentSink name := by
  have hfound : ((w.sinkRef? name).bind fun ref => (w.sink? ref).map fun sink => (ref, sink)) =
      (w'.sinkRef? name).bind fun ref => (w'.sink? ref).map fun sink => (ref, sink) := by
    rw [h.sinkRef? hname]
    refine Option.bind_congr fun ref href => ?_
    rw [h.sink? (name_of_sinkRef? href ▸ hname)]
  rw [Workspace.currentSink, Workspace.currentSink, hfound]

section

variable (hw : w.Respects part) (h : AgreeOn part w w')

include hw h

theorem answer_moves (response : Response) : Moves part w (response, w) (response, w') :=
  ⟨rfl, .refl hw h⟩

theorem askScanner_moves {name : String} (hname : part (.scanner name))
    (question : Scanner → Answer) :
    Moves part w (w.askScanner name question) (w'.askScanner name question) := by
  rw [askScanner, askScanner, ← h.scanners hname]
  cases w.scanners.find? name with
  | none => exact answer_moves hw h _
  | some wired => exact answer_moves hw h _

theorem onScanner_moves {name : String} (hname : part (.scanner name))
    (act : Scanner → Except Failure Answer × Scanner) :
    Moves part w (w.onScanner name act) (w'.onScanner name act) := by
  rw [onScanner, onScanner, ← h.scanners hname]
  cases hfind : w.scanners.find? name with
  | none => exact answer_moves hw h _
  | some wired =>
    exact ⟨rfl, (Shift.refl hw h).setScanner hname _ fun ref href => hw.reporter hfind href⟩

theorem onSink_moves {name : String} (hname : part (.sink name)) (act : Sink → Delivery) :
    Moves part w (w.onSink name act) (w'.onSink name act) := by
  rw [onSink, onSink, ← h.currentSink hname]
  cases hfound : w.currentSink name with
  | error failure => exact answer_moves hw h _
  | ok found =>
    have href : part (.sink found.1.name) :=
      name_of_sinkRef? (sinkRef?_of_currentSink hfound) ▸ hname
    exact ⟨rfl, (Shift.refl hw h).setSink href _⟩

theorem tokenize_moves {name : String} (hname : part (.scanner name)) {hold : Option String}
    (hhold : ∀ list ∈ hold, part (.held list)) :
    Moves part w (w.tokenize name hold) (w'.tokenize name hold) := by
  rw [tokenize, tokenize, ← h.scanners hname]
  cases hfind : w.scanners.find? name with
  | none => exact answer_moves hw h _
  | some wired =>
    have hsame : ∀ ref, wired.reporter = some ref →
        part (.sink ref.name) = part (.scanner name) := fun ref href => hw.reporter hfind href
    have hreporter : ∀ ref ∈ wired.reporter, part (.sink ref.name) :=
      fun ref href => (hsame ref href).trans hname
    simp only [← h.outlet hreporter]
    rcases wired.scanner.tokenize Outlet.receive (w.outlet wired.reporter) with ⟨_ | _, p⟩
    all_goals
      have hshift := (((Shift.refl hw h).detach hname).setScanner hname
        { wired with scanner := p.scanner } hsame).setOutlet hreporter p.state
    case error failure => exact ⟨rfl, hshift⟩
    case ok => exact ⟨rfl, hshift.hold hhold hname rfl⟩

theorem scan_moves (source : String) (filename : Option String) {reporter : Option String}
    (hreporter : ∀ name ∈ reporter, part (.sink name)) :
    Moves part w (w.scan source filename reporter) (w'.scan source filename reporter) := by
  rw [scan, scan, ← h.resolve hreporter]
  cases href : w.resolve reporter with
  | error failure => exact answer_moves hw h _
  | ok ref =>
    have hsink : ∀ found ∈ ref, part (.sink found.name) :=
      fun found hfound => hreporter _ (mem_of_resolve href found hfound)
    simp only [← h.outlet hsink]
    exact ⟨rfl, (Shift.refl hw h).setOutlet hsink _⟩

theorem stepReport_moves {name : String} (hname : part (.scanner name)) :
    Moves part w (w.stepReport name) (w'.stepReport name) := by
  rw [stepReport, stepReport, ← h.scanners hname]
  cases hfind : w.scanners.find? name with
  | none => exact answer_moves hw h _
  | some wired =>
    have hsame : ∀ ref, wired.reporter = some ref →
        part (.sink ref.name) = part (.scanner name) := fun ref href => hw.reporter hfind href
    have hreporter : ∀ ref ∈ wired.reporter, part (.sink ref.name) :=
      fun ref href => (hsame ref href).trans hname
    simp only [← h.outlet hreporter]
    rcases wired.scanner.step with ⟨_ | error | _, after⟩
    case faulty =>
      exact ⟨rfl, ((Shift.refl hw h).setScanner hname { wired with scanner := after.keep error }
        hsame).setOutlet hreporter _⟩
    all_goals exact ⟨rfl, (Shift.refl hw h).setScanner hname _ hsame⟩

theorem makeScanner_moves {name : String} (hname : part (.scanner name)) (source : String)
    (filename : Option String) {reporter : Option String}
    (hreporter : ∀ sink ∈ reporter, part (.sink sink)) :
    Moves part w (w.perform (.makeScanner name source filename reporter))
      (w'.perform (.makeScanner name source filename reporter)) := by
  simp only [perform, ← h.resolve hreporter]
  cases href : w.resolve reporter with
  | error failure => exact answer_moves hw h _
  | ok ref =>
    refine ⟨rfl, ((Shift.refl hw h).detach hname).setScanner hname _ fun found hfound => ?_⟩
    rw [hreporter _ (mem_of_resolve href found hfound), hname]

theorem setReporter_moves {name : String} (hname : part (.scanner name)) {reporter : Option String}
    (hreporter : ∀ sink ∈ reporter, part (.sink sink)) :
    Moves part w (w.edit name (.reporter reporter)) (w'.edit name (.reporter reporter)) := by
  simp only [edit, ← h.resolve hreporter, ← h.scanners hname]
  cases hfind : w.scanners.find? name with
  | none => exact answer_moves hw h _
  | some wired =>
    cases href : w.resolve reporter with
    | error failure => exact answer_moves hw h _
    | ok ref =>
      refine ⟨rfl, (Shift.refl hw h).setScanner hname _ fun found hfound => ?_⟩
      rw [hreporter _ (mem_of_resolve href found hfound), hname]

theorem diagnostics_moves {name : String} (hname : part (.scanner name)) {hold : Option String}
    (hhold : ∀ list ∈ hold, part (.held list)) :
    Moves part w (w.perform (.diagnostics name hold)) (w'.perform (.diagnostics name hold)) := by
  simp only [perform, ← h.scanners hname]
  cases w.scanners.find? name with
  | none => exact answer_moves hw h _
  | some wired => exact ⟨rfl, (Shift.refl hw h).hold hhold hname rfl⟩

theorem held_moves {name : String} (hname : part (.held name)) :
    Moves part w (w.perform (.held name)) (w'.perform (.held name)) := by
  simp only [perform, ← h.held hname]
  cases hfind : w.held.find? name with
  | none => exact answer_moves hw h _
  | some held =>
    have howner : ∀ owner ∈ held.owner?, part (.scanner owner) :=
      fun owner hmem => (hw.owner hfind hmem).trans hname
    simp only [← h.heldItems howner]
    exact answer_moves hw h _

theorem popHeld_shift {name : String} {held : Held} (hname : part (.held name))
    (hfind : w.held.find? name = some held) :
    (∃ failure, w.popHeld name held = .error failure ∧ w'.popHeld name held = .error failure) ∨
      ∃ v v', w.popHeld name held = .ok v ∧ w'.popHeld name held = .ok v' ∧ Shift part w v v' := by
  have hsame : ∀ owner, held.owner? = some owner → part (.scanner owner) = part (.held name) :=
    fun owner howner => hw.owner hfind howner
  cases held with
  | tokensOf scanner =>
    have hscanner : part (.scanner scanner) := (hsame scanner rfl).trans hname
    simp only [popHeld, ← h.scanners hscanner]
    cases hwired : w.scanners.find? scanner with
    | none => exact .inl ⟨_, rfl, rfl⟩
    | some wired =>
      by_cases hempty : wired.scanner.tokens.isEmpty = true
      · simp only [hempty, if_true]
        exact .inl ⟨_, rfl, rfl⟩
      · simp only [hempty]
        exact .inr ⟨_, _, rfl, rfl, (Shift.refl hw h).setScanner hscanner _
          fun ref href => hw.reporter hwired href⟩
  | errorsOf scanner count =>
    cases count with
    | zero => exact .inl ⟨_, rfl, rfl⟩
    | succ count => exact .inr ⟨_, _, rfl, rfl, (Shift.refl hw h).setHeld hname hsame⟩
  | copy items =>
    simp only [popHeld]
    cases items.pop? with
    | none => exact .inl ⟨_, rfl, rfl⟩
    | some left =>
      exact .inr ⟨_, _, rfl, rfl, (Shift.refl hw h).setHeld hname fun owner howner => by cases howner⟩

theorem heldPop_moves {name : String} (hname : part (.held name)) :
    Moves part w (w.perform (.heldPop name)) (w'.perform (.heldPop name)) := by
  simp only [perform, ← h.held hname]
  cases hfind : w.held.find? name with
  | none => exact answer_moves hw h _
  | some held =>
    obtain ⟨failure, hpop, hpop'⟩ | ⟨v, v', hpop, hpop', hshift⟩ := popHeld_shift hw h hname hfind
    · simp only [hpop, hpop']
      exact answer_moves hw h _
    · simp only [hpop, hpop']
      refine ⟨?_, hshift⟩
      have howner : ∀ owner ∈ ((v.held.find? name).getD held).owner?, part (.scanner owner) := by
        intro owner howner
        cases hafter : v.held.find? name with
        | none =>
          rw [hafter] at howner
          exact (hw.owner hfind howner).trans hname
        | some left =>
          rw [hafter] at howner
          exact (hshift.respects.owner hafter howner).trans hname
      rw [hshift.inside.heldItems howner, hshift.inside.held hname]

theorem sameTokens_moves {a b : String} (ha : part (.scanner a)) (hb : part (.scanner b)) :
    Moves part w (w.perform (.sameTokens a b)) (w'.perform (.sameTokens a b)) := by
  simp only [perform, ← h.scanners ha, ← h.scanners hb]
  split
  all_goals exact answer_moves hw h _

/-- A command that speaks of a part only reads and changes nothing but this part. -/
theorem perform_moves {command : Command} (hpart : ∀ entity ∈ command.entities, part entity) :
    Moves part w (w.perform command) (w'.perform command) := by
  cases command with
  | makeSink name sink =>
    have hname : part (.sink name) := hpart _ (.head _)
    exact ⟨rfl, (Shift.refl hw h).addSink hname sink⟩
  | report name r => exact onSink_moves hw h (hpart _ (.head _)) _
  | clear name => exact onSink_moves hw h (hpart _ (.head _)) _
  | sinkState name =>
    have hname : part (.sink name) := hpart _ (.head _)
    simp only [perform, ← h.currentSink hname]
    exact answer_moves hw h _
  | makeScanner name source filename reporter =>
    exact makeScanner_moves hw h (hpart _ (.head _)) source filename
      fun sink hsink => hpart _ (by simp [Command.entities, Option.mem_def.1 hsink])
  | tokenize name hold =>
    exact tokenize_moves hw h (hpart _ (.head _))
      fun list hlist => hpart _ (by simp [Command.entities, Option.mem_def.1 hlist])
  | scan source filename reporter =>
    exact scan_moves hw h source filename
      fun sink hsink => hpart _ (by simp [Command.entities, Option.mem_def.1 hsink])
  | diagnostics name hold =>
    exact diagnostics_moves hw h (hpart _ (.head _))
      fun list hlist => hpart _ (by simp [Command.entities, Option.mem_def.1 hlist])
  | held name => exact held_moves hw h (hpart _ (.head _))
  | heldPop name => exact heldPop_moves hw h (hpart _ (.head _))
  | sameTokens a b =>
    exact sameTokens_moves hw h (hpart _ (.head _)) (hpart _ (by simp [Command.entities]))
  | set name edit =>
    cases edit with
    | reporter value =>
      exact setReporter_moves hw h (hpart _ (.head _))
        fun sink hsink => hpart _ (by simp [Command.entities, Option.mem_def.1 hsink])
    | source | filename | line | current =>
      simp only [perform, edit]
      exact onScanner_moves hw h (hpart _ (.head _)) _
  | stepReport name => exact stepReport_moves hw h (hpart _ (.head _))
  | hasErrors name | contents name | peek name | peekNext name | atEnd name =>
    simp only [perform]
    exact askScanner_moves hw h (hpart _ (.head _)) _
  | editDiagnostic name | step name | advance name | accept name =>
    simp only [perform, Workspace.step]
    exact onScanner_moves hw h (hpart _ (.head _)) _

end

/-! ## Sessions -/

theorem reply_moves {request : Request} (hw : w.Respects part) (h : AgreeOn part w w')
    (hpart : request.within part) :
    (w.reply request).1 = (w'.reply request).1 ∧
      Shift part w (w.reply request).2 (w'.reply request).2 := by
  obtain ⟨command, watched⟩ := request
  rw [Request.within, Request.entities, List.all_append, Bool.and_eq_true] at hpart
  obtain ⟨hcommand, hwatched⟩ := hpart
  obtain ⟨hanswer, hshift⟩ := perform_moves hw h (List.all_eq_true.1 hcommand)
  refine ⟨?_, hshift⟩
  cases watched with
  | none => exact congrArg (Reply.mk · none) hanswer
  | some name =>
    have hname : part (.scanner name) := by simpa using hwatched
    simp only [reply, Option.bind_some, hanswer, hshift.inside.scanners hname]

theorem reply_outside {request : Request} (hw : w.Respects part)
    (hrest : request.within (outside part)) :
    (w.reply request).2.Respects part ∧ AgreeOn part w (w.reply request).2 := by
  obtain ⟨-, hshift⟩ := reply_moves (respects_outside hw) (.refl _ w) hrest
  have hrespects := respects_outside hshift.respects
  have hagree := hshift.outside
  rw [outside_outside] at hrespects hagree
  exact ⟨hrespects, hagree⟩

theorem session_part {requests : List Request} (hw : w.Respects part) (h : AgreeOn part w w')
    (hsides : ∀ request ∈ requests, request.within part ∨ request.within (outside part)) :
    let whole := session requests w
    let alone := session (requests.filter fun request => request.within part) w'
    ((requests.zip whole.1).filter fun replied => replied.1.within part).map Prod.snd = alone.1 ∧
      AgreeOn part whole.2 alone.2 ∧ whole.2.Respects part := by
  induction requests generalizing w w' with
  | nil => exact ⟨rfl, h, hw⟩
  | cons request rest ih =>
    obtain ⟨hside, hrest⟩ := List.forall_mem_cons.1 hsides
    simp only [session, List.zip_cons_cons, List.filter_cons]
    by_cases hpart : request.within part = true
    · obtain ⟨hreply, hshift⟩ := reply_moves hw h hpart
      obtain ⟨hreplies, hafter⟩ := ih hshift.respects hshift.inside hrest
      simp only [hpart, if_true, session, List.map_cons, hreplies]
      rw [hreply]
      exact ⟨rfl, hafter⟩
    -- a request to the rest is one that is left out on the other side
    · obtain ⟨hrespects, hagree⟩ := reply_outside hw (hside.resolve_left hpart)
      simp only [hpart]
      exact ih hrespects (hagree.symm.trans h) hrest

def everything : Entity → Bool :=
  fun _ => true

theorem respects_everything (w : Workspace) : w.Respects everything :=
  ⟨fun _ _ => rfl, fun _ _ => rfl⟩

theorem agreeOn_everything (hin : AgreeOn part w w') (hout : AgreeOn (outside part) w w') :
    AgreeOn everything w w' := by
  have hside : ∀ entity, part entity = true ∨ outside part entity = true := by
    intro entity
    cases h : part entity <;> simp [outside, h]
  constructor
  · intro name _
    exact (hside _).elim hin.scanners hout.scanners
  · intro name _
    exact (hside _).elim hin.sinks hout.sinks
  · intro name _
    exact (hside _).elim hin.held hout.held

theorem session_congr (requests : List Request) (h : AgreeOn everything w w') :
    (session requests w).1 = (session requests w').1 ∧
      AgreeOn everything (session requests w).2 (session requests w').2 := by
  induction requests generalizing w w' with
  | nil => exact ⟨rfl, h⟩
  | cons request rest ih =>
    have hall : request.within everything := List.all_eq_true.2 fun _ _ => rfl
    obtain ⟨hreply, hshift⟩ := reply_moves w.respects_everything h hall
    obtain ⟨hreplies, hafter⟩ := ih hshift.inside
    exact ⟨List.cons_eq_cons.2 ⟨hreply, hreplies⟩, hafter⟩

/-- Two requests to different parts do not see each other. -/
theorem reply_swap {a b : Request} (hw : w.Respects part) (ha : a.within part)
    (hb : b.within (outside part)) :
    ((w.reply b).2.reply a).1 = (w.reply a).1 ∧ ((w.reply a).2.reply b).1 = (w.reply b).1 ∧
      AgreeOn everything ((w.reply a).2.reply b).2 ((w.reply b).2.reply a).2 := by
  have hout := respects_outside hw
  have ha' : a.within (outside (outside part)) := by rwa [outside_outside]
  -- each request moves its own side, and finds it as it was before the other request
  obtain ⟨-, hafterA⟩ := reply_outside hout ha'
  obtain ⟨-, hafterB⟩ := reply_outside hw hb
  obtain ⟨hreplyA, hmovedA⟩ := reply_moves hw hafterB ha
  obtain ⟨hreplyB, hmovedB⟩ := reply_moves hout hafterA hb
  have hin : AgreeOn part (w.reply a).2 ((w.reply a).2.reply b).2 :=
    (reply_outside hmovedA.respects hb).2
  have hrest : AgreeOn (outside part) (w.reply b).2 ((w.reply b).2.reply a).2 :=
    (reply_outside hmovedB.respects ha').2
  exact ⟨hreplyA.symm, hreplyB.symm, agreeOn_everything (hin.symm.trans hmovedA.inside)
    (hmovedB.inside.symm.trans hrest)⟩

/-- Two neighbouring requests to different parts, in the middle of a session. -/
theorem session_swap {earlier : List Request} {a b : Request} (hw : w.Respects part)
    (hsides : ∀ request ∈ earlier, request.within part ∨ request.within (outside part))
    (ha : a.within part) (hb : b.within (outside part)) (later : List Request) :
    ∃ before replyA replyB after, before.length = earlier.length ∧
      (session (earlier ++ a :: b :: later) w).1 = before ++ replyA :: replyB :: after ∧
      (session (earlier ++ b :: a :: later) w).1 = before ++ replyB :: replyA :: after ∧
      AgreeOn everything (session (earlier ++ a :: b :: later) w).2
        (session (earlier ++ b :: a :: later) w).2 := by
  obtain ⟨-, -, hmid⟩ := session_part hw (.refl part w) hsides
  obtain ⟨hreplyA, hreplyB, hagree⟩ := reply_swap hmid ha hb
  obtain ⟨hreplies, hafter⟩ := session_congr later hagree
  simp only [session_append, session, hreplyA, hreplyB, hreplies]
  exact ⟨_, _, _, _, w.length_session earlier, rfl, rfl, hafter⟩

end Workspace

/-- A part of a workspace that nothing links with the rest behaves in a session as if the requests
    to the rest were not there; neighbouring requests to a part and to the rest may change places. -/
theorem session_independent {part : Entity → Bool} {w : Workspace} {requests : List Request}
    (hw : w.Respects part)
    (hsides : ∀ request ∈ requests, request.within part ∨ request.within (outside part)) :
    let whole := Workspace.session requests w
    let alone := Workspace.session (requests.filter fun request => request.within part) w
    ((requests.zip whole.1).filter fun replied => replied.1.within part).map Prod.snd = alone.1 ∧
      Workspace.AgreeOn part whole.2 alone.2 ∧
      ∀ earlier a b later, requests = earlier ++ a :: b :: later →
        (a.within part ∧ b.within (outside part) ∨ a.within (outside part) ∧ b.within part) →
        ∃ before replyA replyB after, before.length = earlier.length ∧
          whole.1 = before ++ replyA :: replyB :: after ∧
          (Workspace.session (earlier ++ b :: a :: later) w).1
            = before ++ replyB :: replyA :: after ∧
          Workspace.AgreeOn Workspace.everything whole.2
            (Workspace.session (earlier ++ b :: a :: later) w).2 := by
  intro whole alone
  obtain ⟨hreplies, hagree, -⟩ := Workspace.session_part hw (.refl part w) hsides
  refine ⟨hreplies, hagree, ?_⟩
  rintro earlier a b later rfl hab
  have hearlier : ∀ request ∈ earlier, request.within part ∨ request.within (outside part) :=
    fun request hmem => hsides request (List.mem_append_left _ hmem)
  obtain ⟨ha, hb⟩ | ⟨ha, hb⟩ := hab
  · exact Workspace.session_swap hw hearlier ha hb later
  · refine Workspace.session_swap (Workspace.respects_outside hw) ?_ ha ?_ later
    · rw [outside_outside]
      exact fun request hmem => (hearlier request hmem).symm
    · rwa [outside_outside]

/-- A scanner that is broken off by its sink, and another one that is not. -/
theorem session_independent_failing :
    let part : Entity → Bool := fun entity => entity == .scanner "a" || entity == .sink "s"
    let earlier : List Request := [⟨.makeSink "s" (.limited 1 #[]), none⟩,
      ⟨.makeSink "t" (.collector none #[]), none⟩, ⟨.makeScanner "a" "1@" none (some "s"), none⟩,
      ⟨.makeScanner "b" "2@" none (some "t"), none⟩]
    let a : Request := ⟨.tokenize "a" none, some "a"⟩
    let b : Request := ⟨.tokenize "b" none, some "b"⟩
    let whole := Workspace.session (earlier ++ [a, b]) .empty
    let alone := Workspace.session ((earlier ++ [a, b]).filter fun r => r.within part) .empty
    Workspace.empty.Respects part ∧
      (∀ request ∈ earlier ++ [a, b], request.within part ∨ request.within (outside part)) ∧
      (whole.1.map fun reply => reply.response.result.toBool)
        = [true, true, true, true, false, true] ∧
      (((earlier ++ [a, b]).zip whole.1).filter fun replied => replied.1.within part).map Prod.snd
        = alone.1 ∧
      ∃ before replyA replyB after, before.length = 4 ∧
        whole.1 = before ++ replyA :: replyB :: after ∧
        (Workspace.session (earlier ++ [b, a]) .empty).1
          = before ++ replyB :: replyA :: after := by
  intro part earlier a b whole alone
  have hw : Workspace.empty.Respects part := Workspace.respects_empty part
  have hsides : ∀ request ∈ earlier ++ [a, b],
      request.within part ∨ request.within (outside part) := by decide +kernel
  have hresults : (whole.1.map fun reply => reply.response.result.toBool)
      = [true, true, true, true, false, true] := by decide +kernel
  obtain ⟨hreplies, -, hswap⟩ := session_independent hw hsides
  obtain ⟨before, replyA, replyB, after, hlength, hwhole, hswapped, -⟩ :=
    hswap earlier a b [] rfl (.inl ⟨by decide +kernel, by decide +kernel⟩)
  exact ⟨hw, hsides, hresults, hreplies, before, replyA, replyB, after, hlength, hwhole, hswapped⟩

end LoxScan
