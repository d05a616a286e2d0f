import LoxScan.Diagnostic
import LoxScan.Text.Utf8

/-! # Failures

Everything that can keep an operation from giving its answer, one constructor per cause.
`Failure.message` is the wording of all of them.
-/

namespace LoxScan

inductive Failure where
  | lexical (error : LexicalError)
  | unknownKindName (name : String)
  | unknownKindIndex (index : Int)
  | frozenField (field : String)
  /-- A code point was asked of a text that is not a single character. -/
  | notOneCharacter (length : Nat)
  /-- A character was asked for at or after the end of the source. -/
  | readPastEnd
  | noSuchError
  | emptyList
  | closedStream
  | noReceiver
  | reportLimit
  | unknownName (name : String)
  | missingFile (name : String)
  | isDirectory (name : String)
  /-- A file name holds U+0000. -/
  | nullInName
  | undecodable (fault : Utf8Fault)
deriving DecidableEq, Repr

namespace Failure

def message : Failure → String
  | lexical error => error.text
  | unknownKindName name => quoted name
  | unknownKindIndex index => toString index ++ " is not a valid TokenType"
  | frozenField field => "cannot assign to field " ++ quoted field
  | notOneCharacter length =>
    "ord() expected a character, but string of length " ++ toString length ++ " found"
  | readPastEnd => "string index out of range"
  | noSuchError => "list index out of range"
  | emptyList => "pop from empty list"
  | closedStream => "I/O operation on closed file"
  | noReceiver => ""
  | reportLimit => "report limit reached"
  | unknownName name => quoted name
  | missingFile name => "[Errno 2] No such file or directory: " ++ quoted name
  | isDirectory name => "[Errno 21] Is a directory: " ++ quoted name
  | nullInName => "embedded null byte"
  | undecodable fault => fault.message

end Failure

/-- The error for a rejected text of any length. -/
def LexicalError.ofRejected (text : String) (location : Location) : Except Failure LexicalError :=
  match rejectionHelp? text.toList with
  | some help =>
    .ok (.ofMessage "Unexpected character." location (some "L001") (some help))
  | none => .error (.notOneCharacter text.length)

end LoxScan
