import LoxScan.Item

/-! # Roles and what they say

The role of a character is found by asking for one class of characters after the other.
`CharRole.describes_of` says what holds of a character with a given role; the other way round, a
character of one of the classes has the role of that class (`CharRole.of_symbol` and those after
it, up to `CharRole.isDigit_iff` and the like, which go both ways).  A character without a role in
Lox is one that is not in its alphabet (`CharRole.eq_foreign_iff`).
-/

namespace LoxScan

namespace CharRole

def Describes : CharRole → Char → Prop
  | symbol kind, c => TokenKind.ofSymbol? c = some kind
  | comparison alone pair, c => TokenKind.comparison? c = some (alone, pair)
  | slash, c => c = '/'
  | blank, c => isBlank c = true
  | lineFeed, c => c = '\n'
  | quote, c => c = '"'
  | digit, c => c.isDigit = true
  | wordStart, c => isWordStart c = true
  | foreign, c => TokenKind.ofSymbol? c = none ∧ TokenKind.comparison? c = none ∧ c ≠ '/' ∧
      isBlank c = false ∧ c ≠ '\n' ∧ c ≠ '"' ∧ c.isDigit = false ∧ isWordStart c = false

theorem describes_of (c : Char) : (of c).Describes c := by
  rw [of]
  split
  case h_1 kind h => exact h
  case h_2 =>
    split
    case h_1 alone pair h => exact h
    case h_2 =>
      repeat' split
      all_goals simp_all [Describes]

theorem of_symbol {c : Char} {kind : TokenKind} (h : TokenKind.ofSymbol? c = some kind) :
    of c = .symbol kind := by
  simp [of, h]

theorem of_comparison {c : Char} {alone pair : TokenKind}
    (h : TokenKind.comparison? c = some (alone, pair)) : of c = .comparison alone pair := by
  unfold TokenKind.comparison? at h
  split at h
  all_goals cases h
  all_goals rfl

theorem of_blank {c : Char} (h : isBlank c = true) : of c = .blank := by
  simp only [isBlank, Bool.or_eq_true, beq_iff_eq] at h
  obtain (rfl | rfl) | rfl := h
  all_goals rfl

theorem not_isDigit_of_isWordStart {c : Char} (h : isWordStart c = true) : c.isDigit = false := by
  have halpha : c.isAlpha
      = (decide (65 ≤ c.val ∧ c.val ≤ 90) || 97 ≤ c.val && c.val ≤ 122) := rfl
  rw [Bool.eq_false_iff]
  intro hdigit
  simp only [isWordStart, halpha, Bool.or_eq_true, Bool.and_eq_true, decide_eq_true_eq, beq_iff_eq,
    UInt32.le_iff_toNat_le] at h
  simp only [Char.isDigit, ge_iff_le, Bool.and_eq_true, decide_eq_true_eq,
    UInt32.le_iff_toNat_le] at hdigit
  obtain (h | h) | rfl := h
  all_goals simp at *
  all_goals omega

theorem isWordPart_of_isWordStart {c : Char} (h : isWordStart c = true) : isWordPart c = true := by
  simp only [isWordStart, Bool.or_eq_true] at h
  obtain h | h := h
  all_goals simp [isWordPart, Char.isAlphanum, h]

/-- A character of words is nothing else but a digit or the beginning of a word. -/
theorem of_wordPart {c : Char} (h : isWordPart c = true) :
    of c = if c.isDigit then .digit else .wordStart := by
  have hother : ∀ d, isWordPart d = false → c ≠ d := by
    rintro d hd rfl
    rw [h] at hd
    cases hd
  have hrole := describes_of c
  cases heq : of c <;> rw [heq] at hrole
  case symbol kind =>
    simp only [Describes, TokenKind.ofSymbol?] at hrole
    split at hrole
    case h_11 => cases hrole
    all_goals exact absurd h (by decide)
  case comparison alone pair =>
    simp only [Describes, TokenKind.comparison?] at hrole
    split at hrole
    case h_5 => cases hrole
    all_goals exact absurd h (by decide)
  case slash => exact absurd hrole (hother '/' (by decide))
  case blank =>
    simp only [Describes, isBlank, Bool.or_eq_true, beq_iff_eq] at hrole
    obtain (rfl | rfl) | rfl := hrole
    all_goals exact absurd h (by decide)
  case lineFeed => exact absurd hrole (hother '\n' (by decide))
  case quote => exact absurd hrole (hother '"' (by decide))
  case digit => rw [if_pos (show c.isDigit = true from hrole)]
  case wordStart => rw [if_neg (by simp [not_isDigit_of_isWordStart hrole])]
  case foreign =>
    obtain ⟨-, -, -, -, -, -, hdigit, hstart⟩ := hrole
    simp only [isWordStart, Bool.or_eq_false_iff] at hstart
    simp [isWordPart, Char.isAlphanum, hdigit, hstart] at h

theorem of_digit {c : Char} (h : c.isDigit = true) : of c = .digit := by
  rw [of_wordPart (by simp [isWordPart, Char.isAlphanum, h]), if_pos h]

theorem of_wordStart {c : Char} (h : isWordStart c = true) : of c = .wordStart := by
  rw [of_wordPart (isWordPart_of_isWordStart h), if_neg (by simp [not_isDigit_of_isWordStart h])]

/-! ## Classes as roles -/

section Classes

variable {c : Char}

theorem describes_of_eq {role : CharRole} (h : of c = role) : role.Describes c :=
  h ▸ describes_of c

theorem isDigit_iff : c.isDigit = true ↔ of c = .digit :=
  ⟨of_digit, describes_of_eq⟩

theorem isWordPart_iff : isWordPart c = true ↔ of c = .digit ∨ of c = .wordStart := by
  constructor
  · intro h
    rw [of_wordPart h]
    split <;> simp
  · rintro (h | h)
    · have hdigit : c.isDigit = true := describes_of_eq h
      simp [isWordPart, Char.isAlphanum, hdigit]
    · exact isWordPart_of_isWordStart (describes_of_eq h)

theorem eq_slash_iff : c = '/' ↔ of c = .slash :=
  ⟨fun h => h ▸ rfl, describes_of_eq⟩

theorem eq_dot_iff : c = '.' ↔ of c = .symbol .dot := by
  constructor
  · rintro rfl
    rfl
  · intro h
    have hsymbol : TokenKind.ofSymbol? c = some .dot := describes_of_eq h
    unfold TokenKind.ofSymbol? at hsymbol
    split at hsymbol <;> cases hsymbol
    rfl

theorem eq_equal_iff : c = '=' ↔ of c = .comparison .equal .equalEqual := by
  constructor
  · rintro rfl
    rfl
  · intro h
    have hpair : TokenKind.comparison? c = some (.equal, .equalEqual) := describes_of_eq h
    unfold TokenKind.comparison? at hpair
    split at hpair <;> cases hpair
    rfl

end Classes

end CharRole

/-! ## The alphabet -/

def isLoxChar (c : Char) : Bool :=
  c.isAlphanum ||
    [' ', '\t', '\r', '\n', '(', ')', '{', '}', ',', '.', '-', '+', ';', '*', '!', '=', '<', '>',
      '_', '/', '"'].contains c

theorem role_ne_foreign_of_isLoxChar {c : Char} (h : isLoxChar c = true) :
    CharRole.of c ≠ .foreign := by
  rw [isLoxChar, Bool.or_eq_true] at h
  rcases h with halnum | hlist
  · have hpart : isWordPart c = true := by simp [isWordPart, halnum]
    rw [CharRole.of_wordPart hpart]
    split <;> simp
  · simp only [List.contains_eq_mem, decide_eq_true_eq, List.mem_cons, List.not_mem_nil,
      or_false] at hlist
    rcases hlist with rfl | rfl | rfl | rfl | rfl | rfl | rfl | rfl | rfl | rfl | rfl | rfl | rfl
      | rfl | rfl | rfl | rfl | rfl | rfl | rfl | rfl
    all_goals decide

theorem isLoxChar_of_role_ne_foreign {c : Char} (h : CharRole.of c ≠ .foreign) :
    isLoxChar c = true := by
  have hrole := CharRole.describes_of c
  cases heq : CharRole.of c <;> rw [heq] at hrole
  case symbol kind =>
    simp only [CharRole.Describes, TokenKind.ofSymbol?] at hrole
    split at hrole <;> first | rfl | cases hrole
  case comparison alone pair =>
    simp only [CharRole.Describes, TokenKind.comparison?] at hrole
    split at hrole <;> first | rfl | cases hrole
  case slash | lineFeed | quote =>
    cases hrole
    rfl
  case blank =>
    simp only [CharRole.Describes, isBlank, Bool.or_eq_true, beq_iff_eq] at hrole
    obtain (rfl | rfl) | rfl := hrole <;> rfl
  case digit =>
    have hdigit : c.isDigit = true := hrole
    simp [isLoxChar, Char.isAlphanum, hdigit]
  case wordStart =>
    simp only [CharRole.Describes, isWordStart, Bool.or_eq_true, beq_iff_eq] at hrole
    rcases hrole with halpha | rfl
    · simp [isLoxChar, Char.isAlphanum, halpha]
    · rfl
  case foreign => exact absurd heq h

theorem isLoxChar_iff {c : Char} : isLoxChar c = true ↔ CharRole.of c ≠ .foreign :=
  ⟨role_ne_foreign_of_isLoxChar, isLoxChar_of_role_ne_foreign⟩

/-- The characters that begin no item are those that Lox is not written in. -/
theorem CharRole.eq_foreign_iff {c : Char} : of c = .foreign ↔ isLoxChar c = false := by
  rw [← Bool.not_eq_true, isLoxChar_iff, Classical.not_not]

end LoxScan
