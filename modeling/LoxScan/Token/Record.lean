import LoxScan.Failure
import LoxScan.Token

/-! # Tokens from outside

* `TokenKind.named` and `TokenKind.numbered` find a kind of token or say what is wrong.
* `Token.ofRecord` makes a token of fields with the kind given by name.
* `Token.assign` is the attempt to change a field.
-/

namespace LoxScan

def TokenKind.named (name : String) : Except Failure TokenKind :=
  match ofName? name with
  | some kind => .ok kind
  | none => .error (.unknownKindName name)

def TokenKind.numbered (index : Int) : Except Failure TokenKind :=
  match ofIndex? index with
  | some kind => .ok kind
  | none => .error (.unknownKindIndex index)

namespace Token

def ofRecord (kind lexeme : String) (literal : Option Literal) (line : Int) :
    Except Failure Token :=
  (TokenKind.named kind).map fun kind => ⟨kind, lexeme, literal, line⟩

/-- A token does not change: every assignment fails, whatever the field. -/
def assign (t : Token) (field : String) : Except Failure Unit × Token :=
  (.error (.frozenField field), t)

end Token

end LoxScan
