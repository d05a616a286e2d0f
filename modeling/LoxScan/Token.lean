import LoxScan.Number.Shortest
import LoxScan.Text.Quoted
import LoxScan.Token.Kind

/-! # Tokens

A token is a kind, the text it was read from, the value it carries, and the line it starts on.

* `Token.text`, `Token.description` and `Token.dump` are its three written forms.
* `Token.equal` compares tokens with the equality of numbers.
-/

namespace LoxScan

/-! ## Literals -/

inductive Literal where
  | text (value : String)
  | number (value : Binary64)
deriving DecidableEq, Repr

namespace Literal

def equal : Literal → Literal → Bool
  | text a, text b => a == b
  | number x, number y => x.equal y
  | _, _ => false

/-- The value written so that it can be told from any other: texts are quoted. -/
def description : Literal → String
  | text value => quoted value
  | number value => value.text

def plain : Literal → String
  | text value => value
  | number value => value.text

end Literal

/-! ## Tokens -/

structure Token where
  kind : TokenKind
  lexeme : String
  literal : Option Literal
  line : Int
deriving DecidableEq, Repr

namespace Token

def isLiteral (t : Token) : Bool :=
  t.kind.isLiteral

def isKeyword (t : Token) : Bool :=
  t.kind.isKeyword

def isIdentifier (t : Token) : Bool :=
  t.kind.isIdentifier

def endOfInput (line : Int) : Token :=
  ⟨.eof, "", none, line⟩

def equalLiterals : Option Literal → Option Literal → Bool
  | some a, some b => a.equal b
  | none, none => true
  | _, _ => false

/-- Tokens are equal if they agree in every field, numbers being compared as numbers. -/
def equal (a b : Token) : Bool :=
  a.kind == b.kind && a.lexeme == b.lexeme && equalLiterals a.literal b.literal && a.line == b.line

def equalLists : List Token → List Token → Bool
  | [], [] => true
  | a :: as, b :: bs => a.equal b && equalLists as bs
  | _, _ => false

/-- The kind and the quoted lexeme, with an arrow to the value if there is one. -/
def text (t : Token) : String :=
  match t.literal with
  | some value =>
    t.kind.name ++ "(" ++ quoted t.lexeme ++ " -> " ++ value.description ++ ")"
  | none => t.kind.name ++ "(" ++ quoted t.lexeme ++ ")"

def description (t : Token) : String :=
  "Token(" ++ t.kind.name ++ ", " ++ quoted t.lexeme ++ ", "
    ++ (t.literal.map Literal.description).getD "None" ++ ", " ++ toString t.line ++ ")"

/-- The line of a debugging listing: kind, lexeme and value with nothing quoted. -/
def dump (t : Token) : String :=
  t.kind.name ++ " " ++ t.lexeme ++ " " ++ (t.literal.map Literal.plain).getD "None"

end Token

end LoxScan
