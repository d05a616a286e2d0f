import LoxScan.Proofs.Joining

/-! # Lexemes

A lexeme is a token written down, with nothing left to check: every value of the type is the text
of one token, whose kind and value it tells.

* `Lexeme.kind`, `Lexeme.text` and `Lexeme.literal` are the parts of a lexeme, `Lexeme.token` is
  the token that it makes on a line.
* `Lexeme.form`: the text has the form of an item of that kind, and `Lexeme.exists_iff_form`: no
  token is written in another way.  `Lexeme.token?_item`: the item makes that token.
* `ItemForm.role_head`: the kind of a token tells the role of its first character.  The statements
  after it say which kinds begin with a digit, a character of words, or one of `/`, `=` and `.`.
-/

namespace LoxScan

/-! ## Lexemes and their parts -/

def TokenKind.spelling? : TokenKind → Option String
  | leftParen => some "("
  | rightParen => some ")"
  | leftBrace => some "\x7b"
  | rightBrace => some "\x7d"
  | comma => some ","
  | dot => some "."
  | minus => some "-"
  | plus => some "+"
  | semicolon => some ";"
  | slash => some "/"
  | star => some "*"
  | bang => some "!"
  | bangEqual => some "!="
  | equal => some "="
  | equalEqual => some "=="
  | greater => some ">"
  | greaterEqual => some ">="
  | less => some "<"
  | lessEqual => some "<="
  | keyword word => some word.spelling
  | identifier | string | number | eof => none

structure Digits where
  first : Char
  others : List Char
  isDigit_first : first.isDigit = true
  isDigit_others : ∀ c ∈ others, c.isDigit = true

def Digits.text (digits : Digits) : List Char :=
  digits.first :: digits.others

theorem Digits.isDigit_of_mem (digits : Digits) : ∀ c ∈ digits.text, c.isDigit = true :=
  List.forall_mem_cons.2 ⟨digits.isDigit_first, digits.isDigit_others⟩

theorem Digits.lineFeed_not_mem (digits : Digits) : '\n' ∉ digits.text :=
  fun hmem => absurd (digits.isDigit_of_mem _ hmem) (by decide)

/-- A token as it can be written. -/
inductive Lexeme where
  /-- An operator, a punctuation character or a reserved word. -/
  | fixed (kind : TokenKind) (spelling : String) (h : kind.spelling? = some spelling)
  /-- A word that is not reserved. -/
  | identifier (c : Char) (rest : List Char) (hc : isWordStart c = true)
      (hrest : ∀ x ∈ rest, isWordPart x = true)
      (hword : ∀ word : Keyword, word.spelling ≠ String.ofList (c :: rest))
  /-- A text in quotes, which may go over several lines. -/
  | string (body : List Char) (h : '"' ∉ body)
  | number (whole : Digits) (fraction : Option Digits)

namespace Lexeme

def kind : Lexeme → TokenKind
  | fixed kind _ _ => kind
  | identifier .. => .identifier
  | string .. => .string
  | number .. => .number

def text : Lexeme → List Char
  | fixed _ spelling _ => spelling.toList
  | identifier c rest _ _ _ => c :: rest
  | string body _ => '"' :: (body ++ ['"'])
  | number whole none => whole.text
  | number whole (some part) => whole.text ++ '.' :: part.text

/-- The value: the text between the quotes of a string, the binary64 number nearest to a
    numeral. -/
def literal : Lexeme → Option Literal
  | string body _ => some (.text (String.ofList body))
  | number whole fraction =>
    some (.number (.signed false (Decimal.ofNumeral (number whole fraction).text).nearest))
  | fixed .. | identifier .. => none

def token (l : Lexeme) (line : Int) : Token :=
  ⟨l.kind, String.ofList l.text, l.literal, line⟩

def item (l : Lexeme) : Item :=
  ⟨.token l.kind, l.text⟩

def written (lexemes : List Lexeme) : List Char :=
  (lexemes.map text).flatten

@[simp] theorem written_nil : written [] = [] := rfl

@[simp] theorem written_cons (l : Lexeme) (after : List Lexeme) :
    written (l :: after) = l.text ++ written after := rfl

@[simp] theorem text_item (l : Lexeme) : l.item.text = l.text := rfl

@[simp] theorem joined_map_item (lexemes : List Lexeme) :
    joined (lexemes.map item) = written lexemes := by
  simp [joined, written, Function.comp_def]

/-! ## Lexemes are items -/

theorem ofWord_eq_identifier {word : String} (h : ∀ k : Keyword, k.spelling ≠ word) :
    TokenKind.ofWord word = .identifier := by
  cases hword : Keyword.ofSpelling? word with
  | none => rw [TokenKind.ofWord, hword]
  | some k => exact absurd (Keyword.ofSpelling?_eq_some_iff.1 hword).symm (h k)

theorem form_keyword (word : Keyword) :
    ItemForm (.token (.keyword word)) word.spelling.toList := by
  obtain ⟨c, rest, htext, hc, hrest⟩ : ∃ c rest, word.spelling.toList = c :: rest ∧
      isWordStart c = true ∧ rest.all isWordPart = true := by
    cases word <;> exact ⟨_, _, rfl, rfl, rfl⟩
  have hform := ItemForm.word hc (List.all_eq_true.1 hrest)
  rwa [← htext, String.ofList_toList, TokenKind.ofWord_spelling] at hform

theorem form_fixed {kind : TokenKind} {spelling : String}
    (h : kind.spelling? = some spelling) : ItemForm (.token kind) spelling.toList := by
  cases kind
  case keyword word =>
    cases h
    exact form_keyword word
  case leftParen | rightParen | leftBrace | rightBrace | comma | dot | minus | plus | semicolon
      | star =>
    cases h
    exact .symbol rfl
  case slash =>
    cases h
    exact .slash
  case bang | equal | greater | less =>
    cases h
    exact .alone rfl
  case bangEqual | equalEqual | greaterEqual | lessEqual =>
    cases h
    exact .pair rfl
  case identifier | string | number | eof => cases h

theorem form (l : Lexeme) : ItemForm (.token l.kind) l.text := by
  cases l with
  | fixed kind spelling h => exact form_fixed h
  | identifier c rest hc hrest hword =>
    have hform := ItemForm.word hc hrest
    rwa [ofWord_eq_identifier hword] at hform
  | string body h => exact .string h
  | number whole fraction =>
    cases fraction with
    | none => exact .whole whole.isDigit_first whole.isDigit_others
    | some part =>
      exact .fraction whole.isDigit_first whole.isDigit_others part.isDigit_first
        part.isDigit_others

/-- The lexemes are all that a scan can take for a token. -/
theorem exists_iff_form {kind : TokenKind} {text : List Char} :
    (∃ l : Lexeme, l.kind = kind ∧ l.text = text) ↔ ItemForm (.token kind) text := by
  constructor
  · rintro ⟨l, rfl, rfl⟩
    exact l.form
  · intro h
    cases h with
    | symbol h =>
      unfold TokenKind.ofSymbol? at h
      split at h <;> cases h
      all_goals exact ⟨.fixed _ _ rfl, rfl, rfl⟩
    | slash => exact ⟨.fixed .slash "/" rfl, rfl, rfl⟩
    | alone h | pair h =>
      unfold TokenKind.comparison? at h
      split at h <;> cases h
      all_goals exact ⟨.fixed _ _ rfl, rfl, rfl⟩
    | string h => exact ⟨.string _ h, rfl, rfl⟩
    | whole hd hdigits => exact ⟨.number ⟨_, _, hd, hdigits⟩ none, rfl, rfl⟩
    | fraction hd hdigits he hpart =>
      exact ⟨.number ⟨_, _, hd, hdigits⟩ (some ⟨_, _, he, hpart⟩), rfl, rfl⟩
    | @word c rest hc hrest =>
      cases hword : Keyword.ofSpelling? (String.ofList (c :: rest)) with
      | some word =>
        have hspelling := Keyword.ofSpelling?_eq_some_iff.1 hword
        refine ⟨.fixed (.keyword word) word.spelling rfl, ?_, ?_⟩
        · rw [TokenKind.ofWord, hword]
          rfl
        · show word.spelling.toList = c :: rest
          rw [← hspelling, String.toList_ofList]
      | none =>
        have hfree : ∀ word : Keyword, word.spelling ≠ String.ofList (c :: rest) := by
          intro word hspelling
          rw [← hspelling, Keyword.ofSpelling?_spelling] at hword
          cases hword
        exact ⟨.identifier c rest hc hrest hfree, (ofWord_eq_identifier hfree).symm, rfl⟩

theorem kind_ne_eof (l : Lexeme) : l.kind ≠ .eof := by
  cases l with
  | fixed kind spelling h =>
    rintro rfl
    cases h
  | identifier | string | number => simp [kind]

theorem lineFeed_not_mem (l : Lexeme) (h : l.kind ≠ .string) : '\n' ∉ l.text := by
  cases l with
  | fixed kind spelling hspelling =>
    cases kind
    case identifier | string | number | eof => cases hspelling
    case keyword word => cases word <;> cases hspelling <;> decide
    all_goals
      cases hspelling
      decide
  | identifier c rest hc hrest _ =>
    have hword : ∀ x ∈ c :: rest, isWordPart x = true :=
      List.forall_mem_cons.2 ⟨CharRole.isWordPart_of_isWordStart hc, hrest⟩
    exact fun hmem => absurd (hword _ hmem) (by decide)
  | string => exact absurd rfl h
  | number whole fraction =>
    cases fraction with
    | none => exact whole.lineFeed_not_mem
    | some part => simp [text, whole.lineFeed_not_mem, part.lineFeed_not_mem]

theorem shape_item (l : Lexeme) : l.item.Shape :=
  .form l.form

theorem exists_cons (l : Lexeme) : ∃ c rest, l.text = c :: rest :=
  List.exists_cons_of_ne_nil l.shape_item.text_ne_nil

@[simp] theorem literal?_item (l : Lexeme) : l.item.literal? = l.literal := by
  cases l with
  | fixed kind spelling h =>
    cases kind
    case string | number => cases h
    all_goals rfl
  | identifier => rfl
  | string => simp [item, Item.literal?, kind, text, literal]
  | number => rfl

@[simp] theorem token?_item (l : Lexeme) (line : Int) : l.item.token? line = some (l.token line) := by
  have hliteral := l.literal?_item
  rw [item] at hliteral
  rw [item, Item.token?, hliteral]
  rfl

@[simp] theorem fault?_item (l : Lexeme) : l.item.fault? = none :=
  l.form.fault?_eq_none

end Lexeme

/-! ## First characters -/

/-- The role of the character that the tokens of a kind begin with. -/
def TokenKind.role : TokenKind → CharRole
  | slash => .slash
  | bang | bangEqual => .comparison bang bangEqual
  | equal | equalEqual => .comparison equal equalEqual
  | greater | greaterEqual => .comparison greater greaterEqual
  | less | lessEqual => .comparison less lessEqual
  | identifier | keyword _ => .wordStart
  | string => .quote
  | number => .digit
  | kind => .symbol kind

/-- A kind is one of words when its tokens are made of letters, underscores and digits, and begin
    with no digit. -/
def TokenKind.isWord (kind : TokenKind) : Bool :=
  kind.isIdentifier || kind.isKeyword

namespace ItemForm

variable {kind : TokenKind} {c : Char} {rest : List Char}

theorem role_head (h : ItemForm (.token kind) (c :: rest)) : CharRole.of c = kind.role := by
  cases h with
  | symbol h =>
    rw [CharRole.of_symbol h]
    unfold TokenKind.ofSymbol? at h
    split at h <;> cases h <;> rfl
  | slash => rfl
  | alone h | pair h =>
    rw [CharRole.of_comparison h]
    unfold TokenKind.comparison? at h
    split at h <;> cases h <;> rfl
  | string => rfl
  | whole hd | fraction hd => exact CharRole.of_digit hd
  | word hc =>
    rw [CharRole.of_wordStart hc, TokenKind.ofWord]
    split <;> rfl

theorem isDigit_head_iff (h : ItemForm (.token kind) (c :: rest)) :
    c.isDigit = true ↔ kind = .number := by
  rw [CharRole.isDigit_iff, h.role_head]
  cases kind <;> simp [TokenKind.role]

theorem isWordPart_head_iff (h : ItemForm (.token kind) (c :: rest)) :
    isWordPart c = true ↔ kind.isWord = true ∨ kind = .number := by
  rw [CharRole.isWordPart_iff, h.role_head]
  cases kind
  all_goals simp [TokenKind.role, TokenKind.isWord, TokenKind.isIdentifier, TokenKind.isKeyword]

theorem head_eq_slash_iff (h : ItemForm (.token kind) (c :: rest)) : c = '/' ↔ kind = .slash := by
  rw [CharRole.eq_slash_iff, h.role_head]
  cases kind <;> simp [TokenKind.role]

theorem head_eq_dot_iff (h : ItemForm (.token kind) (c :: rest)) : c = '.' ↔ kind = .dot := by
  rw [CharRole.eq_dot_iff, h.role_head]
  cases kind <;> simp [TokenKind.role]

theorem head_eq_equal_iff (h : ItemForm (.token kind) (c :: rest)) :
    c = '=' ↔ kind = .equal ∨ kind = .equalEqual := by
  rw [CharRole.eq_equal_iff, h.role_head]
  cases kind <;> simp [TokenKind.role]

theorem lineFeed_not_mem {text : List Char} (h : ItemForm (.token kind) text)
    (hkind : kind ≠ .string) : '\n' ∉ text := by
  obtain ⟨l, rfl, rfl⟩ := Lexeme.exists_iff_form.2 h
  exact l.lineFeed_not_mem hkind

theorem literal?_eq_none (h : ItemForm (.token kind) (c :: rest))
    (hquote : CharRole.of c ≠ .quote) (hdigit : CharRole.of c ≠ .digit) :
    Item.literal? ⟨.token kind, c :: rest⟩ = none := by
  rw [h.role_head] at hquote hdigit
  cases kind
  case string => exact absurd rfl hquote
  case number => exact absurd rfl hdigit
  all_goals rfl

end ItemForm

end LoxScan
