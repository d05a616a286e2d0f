import Mathlib.Data.List.Basic
import Mathlib.Data.List.Flatten
import LoxScan.Proofs.Lexeme
import LoxScan.Proofs.Yield

/-! # Lexemes side by side

Lexemes that are written with nothing in between are scanned back unless two or three neighbours
read as something else together.

* `Merges` lists the neighbours that do.
* `extendedBy_written_iff`: a lexeme is extended by those after it exactly if it merges with them.
* `scan_written_iff`: lexemes side by side are scanned back exactly if no neighbours merge.
-/

namespace LoxScan

structure TokenContent where
  kind : TokenKind
  lexeme : String
  literal : Option Literal
deriving DecidableEq, Repr

def Token.content (token : Token) : TokenContent :=
  ⟨token.kind, token.lexeme, token.literal⟩

def Lexeme.content (l : Lexeme) : TokenContent :=
  ⟨l.kind, String.ofList l.text, l.literal⟩

/-- Neighbours that are something else when nothing stands between them. -/
inductive Merges : List Lexeme → Prop
  /-- A word goes on with what a word can be made of. -/
  | word {a b : Lexeme} (ha : a.kind.isWord = true)
      (hb : b.kind.isWord = true ∨ b.kind = .number) : Merges [a, b]
  | number {a b : Lexeme} (ha : a.kind = .number) (hb : b.kind = .number) : Merges [a, b]
  /-- An operator takes a following `=`. -/
  | comparison {a b : Lexeme}
      (ha : a.kind = .bang ∨ a.kind = .equal ∨ a.kind = .less ∨ a.kind = .greater)
      (hb : b.kind = .equal ∨ b.kind = .equalEqual) : Merges [a, b]
  /-- Two slashes begin a comment. -/
  | slash {a b : Lexeme} (ha : a.kind = .slash) (hb : b.kind = .slash) : Merges [a, b]
  /-- A whole number takes a dot only together with the number behind it. -/
  | fraction {a b c : Lexeme} (ha : a.kind = .number) (hwhole : '.' ∉ a.text)
      (hb : b.kind = .dot) (hc : c.kind = .number) : Merges [a, b, c]

theorem Merges.two_le_length {run : List Lexeme} (h : Merges run) : 2 ≤ run.length := by
  cases h <;> simp

/-! ## Neighbours -/

/-- What makes a token longer, by its kind. -/
theorem extendedBy_token_cons_iff {kind : TokenKind} {text rest : List Char} {c : Char} :
    Item.extendedBy ⟨.token kind, text⟩ (c :: rest) = true ↔
      (kind.isWord = true ∧ isWordPart c = true) ∨
      (kind = .number ∧ c.isDigit = true) ∨
      ((kind = .bang ∨ kind = .equal ∨ kind = .less ∨ kind = .greater) ∧ c = '=') ∨
      (kind = .slash ∧ c = '/') ∨
      (kind = .number ∧ '.' ∉ text ∧ c = '.' ∧ rest.head?.any Char.isDigit = true) := by
  cases kind
  all_goals simp [Item.extendedBy, TokenKind.isWord, TokenKind.isIdentifier, TokenKind.isKeyword,
    List.head?_eq_getElem?, and_assoc]

namespace Lexeme

theorem head?_written_isDigit_iff {after : List Lexeme} :
    (written after).head?.any Char.isDigit = true ↔
      ∃ n tail, after = n :: tail ∧ n.kind = .number := by
  cases after with
  | nil => simp
  | cons n tail =>
    obtain ⟨c, body, htext⟩ := n.exists_cons
    have hform := n.form
    rw [htext] at hform
    simp [htext, hform.isDigit_head_iff]

theorem text_of_dot {l : Lexeme} (h : l.kind = .dot) : l.text = ['.'] := by
  cases l with
  | fixed kind spelling hspelling =>
    obtain rfl : kind = .dot := h
    cases hspelling
    rfl
  | identifier | string | number => cases h

/-- The neighbours that merge are those that begin a run of two or three. -/
theorem exists_merges_iff {l m : Lexeme} {after : List Lexeme} :
    (∃ run, Merges run ∧ run <+: l :: m :: after) ↔
      (l.kind.isWord = true ∧ (m.kind.isWord = true ∨ m.kind = .number)) ∨
      (l.kind = .number ∧ m.kind = .number) ∨
      ((l.kind = .bang ∨ l.kind = .equal ∨ l.kind = .less ∨ l.kind = .greater) ∧
        (m.kind = .equal ∨ m.kind = .equalEqual)) ∨
      (l.kind = .slash ∧ m.kind = .slash) ∨
      (l.kind = .number ∧ '.' ∉ l.text ∧ m.kind = .dot ∧
        ∃ n tail, after = n :: tail ∧ n.kind = .number) := by
  have hpair : [l, m] <+: l :: m :: after := ⟨after, rfl⟩
  have hfirst : ∀ {a b : Lexeme} {rest}, [a, b] ++ rest = l :: m :: after → a = l ∧ b = m := by
    intro a b rest h
    obtain ⟨ha, hb, -⟩ : a = l ∧ b = m ∧ rest = after := by simpa using h
    exact ⟨ha, hb⟩
  constructor
  · rintro ⟨run, hmerges, rest, hrest⟩
    cases hmerges with
    | word ha hb =>
      obtain ⟨rfl, rfl⟩ := hfirst hrest
      exact .inl ⟨ha, hb⟩
    | number ha hb =>
      obtain ⟨rfl, rfl⟩ := hfirst hrest
      exact .inr (.inl ⟨ha, hb⟩)
    | comparison ha hb =>
      obtain ⟨rfl, rfl⟩ := hfirst hrest
      exact .inr (.inr (.inl ⟨ha, hb⟩))
    | slash ha hb =>
      obtain ⟨rfl, rfl⟩ := hfirst hrest
      exact .inr (.inr (.inr (.inl ⟨ha, hb⟩)))
    | fraction ha hwhole hb hc =>
      obtain ⟨rfl, rfl, rfl⟩ : _ = l ∧ _ = m ∧ _ = after := by simpa using hrest
      exact .inr (.inr (.inr (.inr ⟨ha, hwhole, hb, _, _, rfl, hc⟩)))
  · rintro (⟨ha, hb⟩ | ⟨ha, hb⟩ | ⟨ha, hb⟩ | ⟨ha, hb⟩ | ⟨ha, hwhole, hb, n, tail, rfl, hc⟩)
    · exact ⟨_, .word ha hb, hpair⟩
    · exact ⟨_, .number ha hb, hpair⟩
    · exact ⟨_, .comparison ha hb, hpair⟩
    · exact ⟨_, .slash ha hb, hpair⟩
    · exact ⟨_, .fraction ha hwhole hb hc, tail, rfl⟩

/-- A lexeme is extended by those written after it exactly if it merges with them. -/
theorem extendedBy_written_iff {l : Lexeme} {after : List Lexeme} :
    l.item.extendedBy (written after) = true ↔ ∃ run, Merges run ∧ run <+: l :: after := by
  cases after with
  | nil =>
    rw [written_nil, Item.extendedBy_nil]
    constructor
    · intro h
      cases h
    · rintro ⟨run, hmerges, hbegins⟩
      have hshort := hbegins.length_le
      have htwo := hmerges.two_le_length
      rw [List.length_singleton] at hshort
      omega
  | cons m after =>
    obtain ⟨c, body, htext⟩ := m.exists_cons
    have hform := m.form
    rw [htext] at hform
    have hdot : m.kind = .dot → body = [] := by
      intro hkind
      rw [text_of_dot hkind] at htext
      exact (List.cons.inj htext).2.symm
    rw [exists_merges_iff, written_cons, htext, List.cons_append, item, extendedBy_token_cons_iff,
      hform.isWordPart_head_iff, hform.isDigit_head_iff, hform.head_eq_equal_iff,
      hform.head_eq_slash_iff, hform.head_eq_dot_iff]
    have hfraction : (m.kind = .dot ∧ (body ++ written after).head?.any Char.isDigit = true) ↔
        m.kind = .dot ∧ ∃ n tail, after = n :: tail ∧ n.kind = .number := by
      refine and_congr_right fun hkind => ?_
      rw [hdot hkind, List.nil_append, head?_written_isDigit_iff]
    rw [hfraction]

theorem fits_map_item_iff {lexemes : List Lexeme} :
    Fits [] (lexemes.map item) ↔ ∀ run, run <:+: lexemes → ¬ Merges run := by
  induction lexemes with
  | nil =>
    constructor
    · intro _ run hrun hmerges
      obtain rfl := List.infix_nil.1 hrun
      exact absurd hmerges.two_le_length (by simp)
    · exact fun _ => .nil
  | cons l after ih =>
    rw [List.map_cons, fits_cons_iff, ih, joined_map_item, List.append_nil,
      ← Bool.not_eq_true, extendedBy_written_iff]
    constructor
    · rintro ⟨-, hfirst, hafter⟩ run hrun hmerges
      rcases List.infix_cons_iff.1 hrun with hbegins | hinside
      · exact hfirst ⟨run, hmerges, hbegins⟩
      · exact hafter run hinside hmerges
    · intro h
      refine ⟨l.shape_item, ?_, fun run hrun => h run (hrun.trans (List.suffix_cons l after).isInfix)⟩
      rintro ⟨run, hmerges, hbegins⟩
      exact h run hbegins.isInfix hmerges

end Lexeme

/-! ## What a scan says about its items -/

def Item.content? (item : Item) : Option TokenContent :=
  (item.token? 0).map Token.content

def TokenContent.item (content : TokenContent) : Item :=
  ⟨.token content.kind, content.lexeme.toList⟩

theorem content_token? (item : Item) (line : Int) :
    (item.token? line).map Token.content = item.content? := by
  unfold Item.content? Item.token?
  split <;> rfl

theorem item_of_content? {item : Item} {content : TokenContent}
    (h : item.content? = some content) : content.item = item := by
  obtain ⟨kind, text⟩ := item
  cases kind with
  | token kind =>
    cases h
    simp [TokenContent.item, Token.content]
  | _ => cases h

@[simp] theorem Lexeme.content?_item (l : Lexeme) : l.item.content? = some l.content := by
  rw [Item.content?, Lexeme.token?_item]
  rfl

@[simp] theorem Lexeme.item_content (l : Lexeme) : l.content.item = l.item :=
  item_of_content? l.content?_item

theorem content_tokensFrom (line : Int) (found : List Item) :
    (tokensFrom line found).map Token.content = found.filterMap Item.content? := by
  induction found generalizing line with
  | nil => rfl
  | cons item rest ih =>
    rw [tokensFrom_cons, List.map_append, ih, List.filterMap_cons, ← content_token? item line]
    cases item.token? line <;> rfl

/-- Some of the items of a text are all of them if their text is as long. -/
theorem eq_of_sublist_of_length_joined {first second : List Item} (h : first.Sublist second)
    (hne : ∀ item ∈ second, item.text ≠ [])
    (hlength : (joined second).length ≤ (joined first).length) : first = second := by
  induction h with
  | slnil => rfl
  | @cons first second item hsub ih =>
    -- The item that is left out has a text, which the others do not make up for.
    have hshort : (joined first).length ≤ (joined second).length :=
      (hsub.map Item.text).flatten.length_le
    have hpos := List.length_pos_iff.2 (hne item (by simp))
    rw [joined_cons, List.length_append] at hlength
    omega
  | @cons_cons first second item hsub ih =>
    have hrest := ih (fun other hother => hne other (List.mem_cons_of_mem _ hother)) (by
      simp only [joined_cons, List.length_append] at hlength
      omega)
    rw [hrest]

/-- A text of lexemes that gives their contents is cut up into these lexemes. -/
theorem items_eq_of_content {lexemes : List Lexeme}
    (h : (items (Lexeme.written lexemes)).filterMap Item.content?
      = lexemes.map Lexeme.content) : items (Lexeme.written lexemes) = lexemes.map Lexeme.item := by
  generalize hfound : items (Lexeme.written lexemes) = found at h ⊢
  have hfits : Fits [] found := hfound ▸ fits_items _
  have hitems : lexemes.map Lexeme.item = found.filter fun item => item.content?.isSome := by
    calc lexemes.map Lexeme.item
        = (lexemes.map Lexeme.content).map TokenContent.item := by
          simp
      _ = found.filterMap fun item => item.content?.map TokenContent.item := by
          rw [← h, List.map_filterMap]
      _ = found.filter fun item => item.content?.isSome := by
          rw [← List.filterMap_eq_filter]
          refine List.filterMap_congr fun item _ => ?_
          cases hcontent : item.content? with
          | none => simp [Option.guard, hcontent]
          | some content => simp [Option.guard, hcontent, item_of_content? hcontent]
  have hsub : (lexemes.map Lexeme.item).Sublist found := hitems ▸ List.filter_sublist
  have hne : ∀ item ∈ found, item.text ≠ [] := fun item hitem =>
    (hfits.shape item hitem).text_ne_nil
  have hjoined : joined found = joined (lexemes.map Lexeme.item) := by
    rw [← hfound, joined_items, Lexeme.joined_map_item]
  have hlength : (joined found).length ≤ (joined (lexemes.map Lexeme.item)).length :=
    (congrArg List.length hjoined).le
  exact (eq_of_sublist_of_length_joined hsub hne hlength).symm

/-! ## Scans -/

/-- Lexemes written with nothing in between are scanned back, with no error, exactly if no
    neighbours merge. -/
theorem scan_written_iff (lexemes : List Lexeme) (filename : Option String) :
    let scanner := scan (String.ofList (Lexeme.written lexemes)) filename
    (scanner.tokens.toList.map Token.content = lexemes.map Lexeme.content ++ [⟨.eof, "", none⟩] ∧
      scanner.errors.toList = []) ↔
      ∀ run, run <:+: lexemes → ¬ Merges run := by
  intro scanner
  obtain ⟨htokens, herrors⟩ := scan_spec (String.ofList (Lexeme.written lexemes)) filename
  rw [String.toList_ofList] at htokens herrors
  have hcontent : scanner.tokens.toList.map Token.content
      = (items (Lexeme.written lexemes)).filterMap Item.content? ++ [⟨.eof, "", none⟩] := by
    rw [htokens, tokensToEnd, List.map_append, content_tokensFrom]
    rfl
  rw [hcontent, herrors, ← Lexeme.fits_map_item_iff, ← items_joined_iff, Lexeme.joined_map_item]
  constructor
  · rintro ⟨hsame, -⟩
    exact items_eq_of_content (List.append_cancel_right hsame)
  · intro hitems
    rw [hitems]
    constructor
    · simp [List.filterMap_map]
    · refine gatherFrom_eq_nil (fun item hitem line => ?_) 1
      obtain ⟨l, -, rfl⟩ := List.mem_map.1 hitem
      rw [Item.error?, Lexeme.fault?_item, Option.map_none]

end LoxScan
