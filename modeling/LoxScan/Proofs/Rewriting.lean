import LoxScan.Proofs.Lexing

/-! # Rewritten texts

Two texts may be cut into items that correspond to each other, although the characters in them are
not the same.  What is found in one of them is then what is found in the other, rewritten.

* `Token.rewrite` changes the lexeme of a token and the text that it carries.
* `ItemForm.role_of_mem`: only comments and strings hold characters that are not part of the
  language.
* `gatherFrom_flatMap`: if others come in the place of items, and give what those gave on as many
  lines, then so does the whole.
-/

namespace LoxScan

/-! ## Tokens -/

def Literal.rewrite (change : List Char → List Char) : Literal → Literal
  | text value => text (String.ofList (change value.toList))
  | number value => number value

/-- The token with its lexeme changed, and its value too if that is a text. -/
def Token.rewrite (change : List Char → List Char) (token : Token) : Token :=
  { token with
    lexeme := String.ofList (change token.lexeme.toList)
    literal := token.literal.map (Literal.rewrite change) }

@[simp] theorem Token.rewrite_endOfInput {change : List Char → List Char} (h : change [] = [])
    (line : Int) : (endOfInput line).rewrite change = endOfInput line := by
  simp [rewrite, endOfInput, h]

theorem Item.literal?_eq_number_or_none {item : Item} (h : item.kind ≠ .token .string) :
    (∃ value, item.literal? = some (.number value)) ∨ item.literal? = none := by
  rw [literal?]
  split <;> simp_all

theorem Token.rewrite_eq_self {change : List Char → List Char} {item : Item} {line : Int}
    {token : Token} (htoken : item.token? line = some token) (hkind : token.kind ≠ .string)
    (htext : change item.text = item.text) : token.rewrite change = token := by
  rw [Item.token?] at htoken
  split at htoken
  case h_1 kind hitem =>
    cases htoken
    have hstring : item.kind ≠ .token .string := by simpa [hitem] using hkind
    rcases Item.literal?_eq_number_or_none hstring with ⟨value, hvalue⟩ | hnone
    · simp [rewrite, Literal.rewrite, htext, hvalue]
    · simp [rewrite, htext, hnone]
  case h_2 => cases htoken

/-- A token other than a string must keep its text.  In a string what counts is that the quotes stay
    where they are. -/
theorem Item.token?_rewrite {kind : TokenKind} {text : List Char} (h : ItemForm (.token kind) text)
    {change : List Char → List Char}
    (hstring : ∀ body, text = '"' :: (body ++ ['"']) →
      change text = '"' :: (change body ++ ['"']))
    (hother : kind ≠ .string → change text = text) (line : Int) :
    token? ⟨.token kind, change text⟩ line
      = (token? ⟨.token kind, text⟩ line).map (Token.rewrite change) := by
  by_cases hkind : kind = .string
  · subst hkind
    obtain ⟨body, -, rfl⟩ := h.exists_body
    have htext := hstring body rfl
    simp [token?, literal?, Token.rewrite, Literal.rewrite, htext]
  · have hsame := hother hkind
    have htoken : token? ⟨.token kind, text⟩ line = some _ := rfl
    rw [hsame, htoken]
    exact congrArg some (Token.rewrite_eq_self htoken hkind hsame).symm

/-! ## Characters of items -/

/-- Only comments and strings hold foreign characters, and beside them only blanks hold blanks. -/
theorem ItemForm.role_of_mem {kind : ItemKind} {text : List Char} (h : ItemForm kind text)
    (hcomment : kind ≠ .comment) (hstring : kind ≠ .token .string) {c : Char} (hc : c ∈ text) :
    CharRole.of c ≠ .foreign ∧ (CharRole.of c = .blank → kind = .blank) := by
  have hdigit : ∀ {digits : List Char}, (∀ x ∈ digits, x.isDigit = true) → ∀ x ∈ digits,
      CharRole.of x = .digit := fun h x hx => CharRole.of_digit (h x hx)
  cases h with
  | blank hblank => simp [List.mem_singleton.1 hc, CharRole.of_blank hblank]
  | lineFeed | slash =>
    rw [List.mem_singleton.1 hc]
    decide
  | comment => exact absurd rfl hcomment
  | string => exact absurd rfl hstring
  | symbol hsymbol => simp [List.mem_singleton.1 hc, CharRole.of_symbol hsymbol]
  | alone halone => simp [List.mem_singleton.1 hc, CharRole.of_comparison halone]
  | pair hpair =>
    simp only [List.mem_cons, List.not_mem_nil, or_false] at hc
    rcases hc with rfl | rfl
    · simp [CharRole.of_comparison hpair]
    · simp [show CharRole.of '=' = .comparison .equal .equalEqual from rfl]
  | whole hd hdigits => simp [hdigit (List.forall_mem_cons.2 ⟨hd, hdigits⟩) c hc]
  | fraction hd hdigits he hpart =>
    simp only [List.mem_cons, List.mem_append] at hc
    rcases hc with rfl | hc | rfl | rfl | hc
    · simp [CharRole.of_digit hd]
    · simp [hdigit hdigits c hc]
    · simp [show CharRole.of '.' = .symbol .dot from rfl]
    · simp [CharRole.of_digit he]
    · simp [hdigit hpart c hc]
  | @word first rest hstart hrest =>
    have hword : ∀ x ∈ first :: rest, isWordPart x = true :=
      List.forall_mem_cons.2 ⟨CharRole.isWordPart_of_isWordStart hstart, hrest⟩
    have hpart := hword c hc
    rcases CharRole.isWordPart_iff.1 hpart with hrole | hrole <;> simp [hrole]

/-! ## Roles that decide -/

namespace CharRole

variable {p : Char → Bool} {role : CharRole} {first second : Option Char}

theorem any_congr (hp : ∀ c d, of c = of d → p c = p d) (h : first.map of = second.map of) :
    first.any p = second.any p := by
  cases first with
  | none =>
    obtain rfl := Option.map_eq_none_iff.1 h.symm
    rfl
  | some c =>
    obtain ⟨d, rfl, hd⟩ := Option.map_eq_some_iff.1 h.symm
    exact hp c d hd.symm

theorem any_isDigit_congr (h : first.map of = second.map of) :
    first.any Char.isDigit = second.any Char.isDigit :=
  any_congr (fun c d h => by rw [Bool.eq_iff_iff, isDigit_iff, isDigit_iff, h]) h

theorem any_isWordPart_congr (h : first.map of = second.map of) :
    first.any isWordPart = second.any isWordPart :=
  any_congr (fun c d h => by rw [Bool.eq_iff_iff, isWordPart_iff, isWordPart_iff, h]) h

/-- A character that is the only one of its role. -/
theorem any_beq_congr {x : Char} (hx : ∀ {c}, c = x ↔ of c = role)
    (h : first.map of = second.map of) : first.any (· == x) = second.any (· == x) :=
  any_congr (fun c d h => by rw [Bool.eq_iff_iff, beq_iff_eq, beq_iff_eq, hx, hx, h]) h

theorem eq_lineFeed_iff {c : Char} : c = '\n' ↔ of c = .lineFeed :=
  ⟨fun h => h ▸ rfl, describes_of_eq⟩

theorem any_bne_lineFeed_congr (h : first.map of = second.map of) :
    first.any (· != '\n') = second.any (· != '\n') := by
  refine any_congr (fun c d h => ?_) h
  rw [Bool.eq_iff_iff, bne_iff_ne, bne_iff_ne, ne_eq, ne_eq, eq_lineFeed_iff, eq_lineFeed_iff, h]

end CharRole

/-- Whether a text extends an item is seen from the roles of its next two characters. -/
theorem Item.extendedBy_congr_roles {kind : ItemKind} {text other rest rest' : List Char}
    (hdot : '.' ∈ text ↔ '.' ∈ other)
    (hhead : rest.head?.map CharRole.of = rest'.head?.map CharRole.of)
    (hnext : rest[1]?.map CharRole.of = rest'[1]?.map CharRole.of) :
    extendedBy ⟨kind, text⟩ rest = extendedBy ⟨kind, other⟩ rest' := by
  have hpoint (first : Option Char) : (first == some '.') = first.any (· == '.') := by
    cases first <;> rfl
  have hcontains : text.contains '.' = other.contains '.' := by
    rw [Bool.eq_iff_iff, List.contains_iff_mem, List.contains_iff_mem, hdot]
  simp only [extendedBy, hcontains, hpoint]
  rw [CharRole.any_isDigit_congr hhead, CharRole.any_isDigit_congr hnext,
    CharRole.any_isWordPart_congr hhead, CharRole.any_bne_lineFeed_congr hhead,
    CharRole.any_beq_congr CharRole.eq_slash_iff hhead,
    CharRole.any_beq_congr CharRole.eq_equal_iff hhead,
    CharRole.any_beq_congr CharRole.eq_dot_iff hhead, CharRole.any_congr (fun _ _ _ => rfl) hhead]

/-! ## Whole texts -/

section FlatMap

variable {change : Item → List Item} {found : List Item}

theorem countItemLines_flatMap
    (hlines : ∀ item ∈ found, countItemLines (change item) = countLines item.text) :
    countItemLines (found.flatMap change) = countItemLines found := by
  induction found with
  | nil => rfl
  | cons item rest ih =>
    obtain ⟨hitem, hrest⟩ := List.forall_mem_cons.1 hlines
    have happend : countItemLines (change item ++ rest.flatMap change)
        = countItemLines (change item) + countItemLines (rest.flatMap change) := by
      simp [countItemLines]
    rw [List.flatMap_cons, happend, hitem, ih hrest, countItemLines_cons]

/-- What is given by items that came in the place of others. -/
theorem gatherFrom_flatMap {α β : Type} {give : Item → Int → Option α}
    {give' : Item → Int → Option β} {become : α → β}
    (hlines : ∀ item ∈ found, countItemLines (change item) = countLines item.text)
    (hgive : ∀ item ∈ found, ∀ line,
      gatherFrom give' line (change item) = ((give item line).map become).toList) (line : Int) :
    gatherFrom give' line (found.flatMap change) = (gatherFrom give line found).map become := by
  induction found generalizing line with
  | nil => rfl
  | cons item rest ih =>
    obtain ⟨hitem, hrest⟩ := List.forall_mem_cons.1 hlines
    obtain ⟨hgiveItem, hgiveRest⟩ := List.forall_mem_cons.1 hgive
    rw [List.flatMap_cons, gatherFrom_append, hgiveItem, hitem, ih hrest hgiveRest, gatherFrom,
      List.map_append, Option.toList_map]

theorem gatherFrom_map {α β : Type} {give : Item → Int → Option α} {give' : Item → Int → Option β}
    {become : α → β} {rename : Item → Item}
    (hlines : ∀ item ∈ found, countLines (rename item).text = countLines item.text)
    (hgive : ∀ item ∈ found, ∀ line, give' (rename item) line = (give item line).map become)
    (line : Int) :
    gatherFrom give' line (found.map rename) = (gatherFrom give line found).map become := by
  rw [List.map_eq_flatMap]
  refine gatherFrom_flatMap (fun item hitem => ?_) (fun item hitem line => ?_) line
  · simp [countItemLines, hlines item hitem]
  · simp [gatherFrom, hgive item hitem]

theorem tokensToEnd_rewrite {text other : List Char} {rewrite : List Char → List Char}
    (hitems : items other = (items text).flatMap change) (hnil : rewrite [] = [])
    (hlines : ∀ item ∈ items text, countItemLines (change item) = countLines item.text)
    (htoken : ∀ item ∈ items text, ∀ line,
      tokensFrom line (change item) = ((item.token? line).map (Token.rewrite rewrite)).toList)
    (line : Int) :
    tokensToEnd line other = (tokensToEnd line text).map (Token.rewrite rewrite) := by
  have hcount : countLines other = countLines text := by
    rw [← countItemLines_items, hitems, countItemLines_flatMap hlines, countItemLines_items]
  rw [tokensToEnd, tokensToEnd, hitems, hcount, tokensFrom, gatherFrom_flatMap hlines htoken,
    List.map_append, List.map_singleton, Token.rewrite_endOfInput hnil]
  rfl

end FlatMap

end LoxScan
