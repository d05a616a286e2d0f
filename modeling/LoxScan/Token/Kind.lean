/-! # Kinds of token

Every token of Lox has one of thirty-nine kinds: punctuation, operators, the three families with
free text (identifiers, strings, numbers), the reserved words, and the mark of the end.

* `Keyword` is a reserved word, `Keyword.ofSpelling?` recognises its spelling.
* `TokenKind.name` and `TokenKind.number` are the public name and number of a kind,
  `TokenKind.ofName?` and `TokenKind.ofNumber?` find a kind again.
* `TokenKind.ofSymbol?` and `TokenKind.comparison?` say which characters are tokens by themselves
  and which may take a following `=`.
-/

namespace LoxScan

/-! ## Reserved words -/

/-- The reserved words, in the order in which their kinds are numbered. -/
inductive Keyword where
  | andWord
  | classWord
  | elseWord
  | falseWord
  | funWord
  | forWord
  | ifWord
  | nilWord
  | orWord
  | printWord
  | returnWord
  | superWord
  | thisWord
  | trueWord
  | varWord
  | whileWord
deriving DecidableEq, Repr

namespace Keyword

def spelling : Keyword → String
  | andWord => "and"
  | classWord => "class"
  | elseWord => "else"
  | falseWord => "false"
  | funWord => "fun"
  | forWord => "for"
  | ifWord => "if"
  | nilWord => "nil"
  | orWord => "or"
  | printWord => "print"
  | returnWord => "return"
  | superWord => "super"
  | thisWord => "this"
  | trueWord => "true"
  | varWord => "var"
  | whileWord => "while"

def name : Keyword → String
  | andWord => "AND"
  | classWord => "CLASS"
  | elseWord => "ELSE"
  | falseWord => "FALSE"
  | funWord => "FUN"
  | forWord => "FOR"
  | ifWord => "IF"
  | nilWord => "NIL"
  | orWord => "OR"
  | printWord => "PRINT"
  | returnWord => "RETURN"
  | superWord => "SUPER"
  | thisWord => "THIS"
  | trueWord => "TRUE"
  | varWord => "VAR"
  | whileWord => "WHILE"

def all : List Keyword :=
  [andWord, classWord, elseWord, falseWord, funWord, forWord, ifWord, nilWord, orWord, printWord,
    returnWord, superWord, thisWord, trueWord, varWord, whileWord]

/-- The reserved words in the order of their spellings, which is the order of the public table. -/
def table : List Keyword :=
  [andWord, classWord, elseWord, falseWord, forWord, funWord, ifWord, nilWord, orWord, printWord,
    returnWord, superWord, thisWord, trueWord, varWord, whileWord]

/-- Only the whole spelling is a reserved word, in lower case. -/
def ofSpelling? (word : String) : Option Keyword :=
  table.find? fun k => k.spelling == word

@[simp] theorem ofSpelling?_spelling (k : Keyword) : ofSpelling? k.spelling = some k := by
  cases k <;> simp [ofSpelling?, table, spelling]

theorem ofSpelling?_eq_some_iff {word : String} {k : Keyword} :
    ofSpelling? word = some k ↔ word = k.spelling := by
  constructor
  · intro h
    have := List.find?_some h
    simpa using (beq_iff_eq.1 this).symm
  · rintro rfl
    exact ofSpelling?_spelling k

end Keyword

/-! ## Token kinds -/

/-- The kinds of token, in the order of their numbers. -/
inductive TokenKind where
  | leftParen
  | rightParen
  | leftBrace
  | rightBrace
  | comma
  | dot
  | minus
  | plus
  | semicolon
  | slash
  | star
  | bang
  | bangEqual
  | equal
  | equalEqual
  | greater
  | greaterEqual
  | less
  | lessEqual
  | identifier
  | string
  | number
  | keyword (word : Keyword)
  | eof
deriving DecidableEq, Repr

namespace TokenKind

def name : TokenKind → String
  | leftParen => "LEFT_PAREN"
  | rightParen => "RIGHT_PAREN"
  | leftBrace => "LEFT_BRACE"
  | rightBrace => "RIGHT_BRACE"
  | comma => "COMMA"
  | dot => "DOT"
  | minus => "MINUS"
  | plus => "PLUS"
  | semicolon => "SEMICOLON"
  | slash => "SLASH"
  | star => "STAR"
  | bang => "BANG"
  | bangEqual => "BANG_EQUAL"
  | equal => "EQUAL"
  | equalEqual => "EQUAL_EQUAL"
  | greater => "GREATER"
  | greaterEqual => "GREATER_EQUAL"
  | less => "LESS"
  | lessEqual => "LESS_EQUAL"
  | identifier => "IDENTIFIER"
  | string => "STRING"
  | number => "NUMBER"
  | keyword word => word.name
  | eof => "EOF"

def description (kind : TokenKind) : String :=
  "TokenType." ++ kind.name

def all : List TokenKind :=
  [leftParen, rightParen, leftBrace, rightBrace, comma, dot, minus, plus, semicolon, slash, star,
    bang, bangEqual, equal, equalEqual, greater, greaterEqual, less, lessEqual,
    identifier, string, number] ++ Keyword.all.map keyword ++ [eof]

/-- The public number of a kind: its place among all kinds, from one. -/
def index (kind : TokenKind) : Nat :=
  all.idxOf kind + 1

def ofName? (name : String) : Option TokenKind :=
  all.find? fun kind => kind.name == name

def ofIndex? (index : Int) : Option TokenKind :=
  if 1 ≤ index then all[index.toNat - 1]? else none

/-- A kind is a literal when its tokens carry a value of their own. -/
def isLiteral : TokenKind → Bool
  | string | number => true
  | _ => false

def isKeyword : TokenKind → Bool
  | keyword _ => true
  | _ => false

def isIdentifier : TokenKind → Bool
  | identifier => true
  | _ => false

/-- The kind of a whole word: a reserved word or else an identifier. -/
def ofWord (word : String) : TokenKind :=
  match Keyword.ofSpelling? word with
  | some k => keyword k
  | none => identifier

/-- The characters that are a token by themselves, whatever follows. -/
def ofSymbol? : Char → Option TokenKind
  | '(' => some leftParen
  | ')' => some rightParen
  | '{' => some leftBrace
  | '}' => some rightBrace
  | ',' => some comma
  | '.' => some dot
  | '-' => some minus
  | '+' => some plus
  | ';' => some semicolon
  | '*' => some star
  | _ => none

/-- The characters that are a token alone and another one together with a following `=`: the
    first kind is that of the character alone, the second that of the pair. -/
def comparison? : Char → Option (TokenKind × TokenKind)
  | '!' => some (bang, bangEqual)
  | '=' => some (equal, equalEqual)
  | '<' => some (less, lessEqual)
  | '>' => some (greater, greaterEqual)
  | _ => none

@[simp] theorem ofWord_spelling (k : Keyword) : ofWord k.spelling = keyword k := by
  simp [ofWord]

end TokenKind

end LoxScan
