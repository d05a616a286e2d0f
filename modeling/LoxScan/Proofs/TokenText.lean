import LoxScan.Proofs.NumberReading
import LoxScan.Proofs.QuotedText
import LoxScan.Proofs.Separators

/-! # Texts of tokens

Nothing is lost when a token is written out.

* `TokenKind.name_inj` and `Literal.description_inj`: kinds are told apart by their names, and
  literals, absent ones included, by their descriptions.
* `Lexeme.text_inj_of_plainText`: a lexeme can be found in front of its value, although neither is
  quoted.
* `token_texts`: descriptions tell all tokens apart, and the lines of a listing those that scans
  find, up to the line in the source.
-/

namespace LoxScan

/-! ## Kinds -/

namespace TokenKind

theorem ofName?_name (kind : TokenKind) : ofName? kind.name = some kind := by
  cases kind
  case keyword word => cases word <;> rfl
  all_goals rfl

theorem name_inj {a b : TokenKind} : a.name = b.name ↔ a = b := by
  constructor
  · intro h
    have hfound := congrArg ofName? h
    rw [ofName?_name, ofName?_name] at hfound
    exact Option.some.inj hfound
  · rintro rfl
    rfl

theorem comma_not_mem_name (kind : TokenKind) : ',' ∉ kind.name.toList := by
  cases kind
  case keyword word => cases word <;> decide
  all_goals decide

theorem space_not_mem_name (kind : TokenKind) : ' ' ∉ kind.name.toList := by
  cases kind
  case keyword word => cases word <;> decide
  all_goals decide

end TokenKind

/-! ## Literals -/

/-- The text of a number begins with a digit, a sign, or the first letter of a word for it. -/
theorem Binary64.head?_text (x : Binary64) : ∃ c, x.text.toList.head? = some c ∧
    (c.isDigit = true ∨ c = '-' ∨ c = 'i' ∨ c = 'n') := by
  cases x with
  | nan => exact ⟨'n', rfl, by simp⟩
  | signed negative x =>
    rw [text, String.toList_ofList]
    cases negative with
    | true => exact ⟨'-', rfl, by simp⟩
    | false =>
      cases hx : x.isInfinite with
      | true =>
        rw [Magnitude.text, hx]
        exact ⟨'i', rfl, by simp⟩
      | false =>
        obtain ⟨hhead, -⟩ := Magnitude.ofText?_text hx
        rw [if_neg Bool.false_ne_true]
        cases htext : x.text with
        | nil =>
          rw [htext] at hhead
          cases hhead
        | cons c rest =>
          rw [htext] at hhead
          exact ⟨c, rfl, .inl hhead⟩

theorem head?_quoted (value : String) : ∃ c, (quoted value).toList.head? = some c ∧
    (c = '\'' ∨ c = '"') :=
  ⟨quoteMark value.toList, by rw [quoted, String.toList_ofList]; rfl, quoteMark_eq _⟩

theorem quoted_inj {a b : String} : quoted a = quoted b ↔ a = b := by
  have h : quotedChars a.toList ++ [] = quotedChars b.toList ++ [] ↔
      a.toList = b.toList ∧ [] = [] :=
    append_quotedChars_inj
  rw [List.append_nil, List.append_nil, String.toList_inj, eq_self_iff_true, and_true] at h
  rw [quoted, quoted, String.ofList_inj, h]

theorem quoted_ne_none (value : String) : quoted value ≠ "None" := by
  intro h
  obtain ⟨c, hhead, hc⟩ := head?_quoted value
  rw [h] at hhead
  cases hhead
  exact absurd hc (by decide)

theorem Binary64.text_ne_none (x : Binary64) : x.text ≠ "None" := by
  intro h
  obtain ⟨c, hhead, hc⟩ := x.head?_text
  rw [h] at hhead
  cases hhead
  exact absurd hc (by decide)

theorem quoted_ne_text (value : String) (x : Binary64) : quoted value ≠ x.text := by
  intro h
  obtain ⟨c, hhead, hc⟩ := head?_quoted value
  obtain ⟨d, hhead', hd⟩ := x.head?_text
  rw [h, hhead'] at hhead
  cases hhead
  obtain rfl | rfl := hc
  · exact absurd hd (by decide)
  · exact absurd hd (by decide)

/-- A literal is told apart by its description from all others, and from no literal. -/
theorem Literal.description_inj {a b : Option Literal} :
    (a.map description).getD "None" = (b.map description).getD "None" ↔ a = b := by
  constructor
  · intro h
    match a, b with
    | none, none => rfl
    | some (.text _), some (.text _) => rw [quoted_inj.1 h]
    | some (.number _), some (.number _) => rw [Binary64.text_injective h]
    | none, some (.text _) => exact absurd h.symm (quoted_ne_none _)
    | some (.text _), none => exact absurd h (quoted_ne_none _)
    | none, some (.number _) => exact absurd h.symm (Binary64.text_ne_none _)
    | some (.number _), none => exact absurd h (Binary64.text_ne_none _)
    | some (.text _), some (.number _) => exact absurd h (quoted_ne_text _ _)
    | some (.number _), some (.text _) => exact absurd h.symm (quoted_ne_text _ _)
  · rintro rfl
    rfl

/-! ## Descriptions -/

namespace Token

theorem toList_description (t : Token) : t.description.toList =
    "Token(".toList ++ (t.kind.name.toList ++ ',' :: ' ' :: (quotedChars t.lexeme.toList
      ++ ',' :: ' ' :: (((t.literal.map Literal.description).getD "None").toList ++ [',']
      ++ ' ' :: ((toString t.line).toList ++ [')'])))) := by
  simp [description, quoted]

theorem space_not_mem_line (line : Int) : ' ' ∉ (toString line).toList ++ [')'] := by
  intro h
  rcases List.mem_append.1 h with hline | hend
  · exact absurd (eq_minus_or_isDigit_of_mem_toString hline) (by decide)
  · exact absurd hend (by decide)

theorem description_inj {a b : Token} : a.description = b.description ↔
    a.kind = b.kind ∧ a.lexeme = b.lexeme ∧ a.literal = b.literal ∧ a.line = b.line := by
  constructor
  · intro h
    have htext := congrArg String.toList h
    rw [toList_description, toList_description] at htext
    -- The name ends at the first comma, the quoted lexeme where it is closed, and the line begins
    -- behind the last space.
    obtain ⟨hname, hrest⟩ := (append_cons_inj_of_first (TokenKind.comma_not_mem_name _)
      (TokenKind.comma_not_mem_name _)).1 (List.append_cancel_left htext)
    obtain ⟨hlexeme, hrest⟩ := append_quotedChars_inj.1 (List.cons.inj hrest).2
    obtain ⟨hliteral, hline⟩ := (append_cons_inj_of_last (space_not_mem_line _)
      (space_not_mem_line _)).1 (List.cons.inj (List.cons.inj hrest).2).2
    refine ⟨TokenKind.name_inj.1 (String.toList_inj.1 hname), String.toList_inj.1 hlexeme,
      Literal.description_inj.1 (String.toList_inj.1 (List.append_cancel_right hliteral)), ?_⟩
    exact toString_int_inj.1 (String.toList_inj.1 (List.append_cancel_right hline))
  · rintro ⟨hkind, hlexeme, hliteral, hline⟩
    rw [description, description, hkind, hlexeme, hliteral, hline]

end Token

/-! ## Lines of a listing -/

namespace Lexeme

theorem space_not_mem_of_number {l : Lexeme} (h : l.kind = .number) : ' ' ∉ l.text := by
  have hdigits (digits : Digits) : ' ' ∉ digits.text :=
    fun hmem => absurd (digits.isDigit_of_mem _ hmem) (by decide)
  cases l with
  | fixed kind spelling hspelling =>
    obtain rfl : kind = .number := h
    cases hspelling
  | identifier | string => cases h
  | number whole fraction =>
    cases fraction with
    | none => exact hdigits whole
    | some part => simp [text, hdigits]

theorem exists_body {l : Lexeme} (h : l.kind = .string) : ∃ body,
    l.text = '"' :: (body ++ ['"']) ∧ l.literal = some (.text (String.ofList body)) := by
  cases l with
  | fixed kind spelling hspelling =>
    obtain rfl : kind = .string := h
    cases hspelling
  | identifier | number => cases h
  | string body hbody => exact ⟨body, rfl, rfl⟩

theorem literal_eq_none {l : Lexeme} (hstring : l.kind ≠ .string) (hnumber : l.kind ≠ .number) :
    l.literal = none := by
  cases l with
  | fixed | identifier => rfl
  | string => exact absurd rfl hstring
  | number => exact absurd rfl hnumber

def plainText (l : Lexeme) : List Char :=
  ((l.literal.map Literal.plain).getD "None").toList

/-- Lexemes of a kind can be found in front of their values. -/
theorem text_inj_of_plainText {l m : Lexeme} (hkind : l.kind = m.kind)
    (h : l.text ++ ' ' :: l.plainText = m.text ++ ' ' :: m.plainText) : l.text = m.text := by
  by_cases hstring : l.kind = .string
  · -- A string is as long as its value and two quotes, so half of the text is the lexeme.
    obtain ⟨body, htext, hliteral⟩ := exists_body hstring
    obtain ⟨other, htext', hliteral'⟩ := exists_body (hkind.symm.trans hstring)
    rw [htext, htext', plainText, plainText, hliteral, hliteral'] at h
    have hlength := congrArg List.length h
    simp [Literal.plain] at hlength
    rw [htext, htext']
    exact List.append_inj_left h (by simp; omega)
  by_cases hnumber : l.kind = .number
  · have hnumber' : m.kind = .number := hkind.symm.trans hnumber
    exact ((append_cons_inj_of_first (space_not_mem_of_number hnumber)
      (space_not_mem_of_number hnumber')).1 h).1
  · rw [plainText, plainText, literal_eq_none hstring hnumber,
      literal_eq_none (hkind ▸ hstring) (hkind ▸ hnumber)] at h
    exact List.append_cancel_right h

end Lexeme

namespace Token

theorem toList_dump (t : Token) : t.dump.toList = t.kind.name.toList ++ ' ' ::
    (t.lexeme.toList ++ ' ' :: ((t.literal.map Literal.plain).getD "None").toList) := by
  simp [dump]

/-- The literal of a token that a scan finds depends on its kind and lexeme only. -/
theorem Scanned.literal_eq {t : Token} (h : t.Scanned) :
    t.literal = Item.literal? ⟨.token t.kind, t.lexeme.toList⟩ := by
  rcases h.cases with ⟨l, line, rfl⟩ | ⟨line, rfl⟩
  · rw [Lexeme.token, String.toList_ofList]
    exact l.literal?_item.symm
  · rfl

theorem Scanned.literal_congr {a b : Token} (ha : a.Scanned) (hb : b.Scanned)
    (hkind : a.kind = b.kind) (hlexeme : a.lexeme = b.lexeme) : a.literal = b.literal := by
  rw [ha.literal_eq, hb.literal_eq, hkind, hlexeme]

theorem Scanned.dump_inj {a b : Token} (ha : a.Scanned) (hb : b.Scanned) :
    a.dump = b.dump ↔ a.kind = b.kind ∧ a.lexeme = b.lexeme := by
  constructor
  · intro h
    have htext := congrArg String.toList h
    rw [toList_dump, toList_dump] at htext
    obtain ⟨hname, hrest⟩ := (append_cons_inj_of_first (TokenKind.space_not_mem_name _)
      (TokenKind.space_not_mem_name _)).1 htext
    have hkind : a.kind = b.kind := TokenKind.name_inj.1 (String.toList_inj.1 hname)
    refine ⟨hkind, ?_⟩
    rcases ha.cases with ⟨l, line, rfl⟩ | ⟨line, rfl⟩
    · obtain ⟨m, line', rfl⟩ := hb.exists_lexeme (hkind ▸ l.kind_ne_eof)
      have hlexemes : l.text ++ ' ' :: l.plainText = m.text ++ ' ' :: m.plainText := by
        simpa [Lexeme.token, Lexeme.plainText] using hrest
      exact congrArg String.ofList (Lexeme.text_inj_of_plainText hkind hlexemes)
    · rcases hb.cases with ⟨m, line', rfl⟩ | ⟨line', rfl⟩
      · exact absurd hkind.symm m.kind_ne_eof
      · rfl
  · rintro ⟨hkind, hlexeme⟩
    rw [dump, dump, ha.literal_congr hb hkind hlexeme, hkind, hlexeme]

end Token

/-- Nothing is lost when a token is written out: a description tells a token apart from all others,
    and a line of a listing tells the kind and the lexeme of a token that a scan finds, which
    decide its literal. -/
theorem token_texts :
    (∀ a b : Token, a.description = b.description ↔
      a.kind = b.kind ∧ a.lexeme = b.lexeme ∧ a.literal = b.literal ∧ a.line = b.line) ∧
    (∀ a b : Token, a.Scanned → b.Scanned →
      (a.dump = b.dump ↔ a.kind = b.kind ∧ a.lexeme = b.lexeme) ∧
        (a.kind = b.kind ∧ a.lexeme = b.lexeme → a.literal = b.literal)) := by
  refine ⟨fun a b => Token.description_inj, fun a b ha hb => ⟨ha.dump_inj hb, ?_⟩⟩
  rintro ⟨hkind, hlexeme⟩
  exact ha.literal_congr hb hkind hlexeme

/-- A string that looks like the end of a listing, and a number with two spellings. -/
theorem token_texts_two :
    let two : Digits := ⟨'2', [], rfl, by simp⟩
    let zero : Digits := ⟨'0', [], rfl, by simp⟩
    let a := (Lexeme.string " None".toList (by decide)).token 1
    let b := (Lexeme.string [] (by decide)).token 1
    let c := (Lexeme.number two none).token 1
    let d := (Lexeme.number two (some zero)).token 1
    a.Scanned ∧ b.Scanned ∧ a.dump ≠ b.dump ∧ a.description ≠ b.description ∧
      c.Scanned ∧ d.Scanned ∧ c.literal = d.literal ∧ c.dump ≠ d.dump ∧
        c.description ≠ d.description := by
  intro two zero a b c d
  have ha : a.Scanned := Lexeme.scanned_token _
  have hb : b.Scanned := Lexeme.scanned_token _
  have hc : c.Scanned := Lexeme.scanned_token _
  have hd : d.Scanned := Lexeme.scanned_token _
  have hstrings : a.lexeme ≠ b.lexeme := by decide
  have hnumbers : c.lexeme ≠ d.lexeme := by decide
  obtain ⟨hdescription, hdump⟩ := token_texts
  refine ⟨ha, hb, ?_, ?_, hc, hd, by decide +kernel, ?_, ?_⟩
  · exact fun h => hstrings ((hdump a b ha hb).1.1 h).2
  · exact fun h => hstrings ((hdescription a b).1 h).2.1
  · exact fun h => hnumbers ((hdump c d hc hd).1.1 h).2
  · exact fun h => hnumbers ((hdescription c d).1 h).2.1

end LoxScan
