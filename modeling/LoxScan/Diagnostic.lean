import LoxScan.Text.Quoted

/-! # Diagnostics

A lexical error is a fault of the source text together with the place where it was found.

* `Location` is a file name and a line.
* `Diagnostic` is a message at a location, with a severity and, perhaps, a code and a help text.
* `LexicalFault` lists the two ways in which a text is not lexically correct.
* `LexicalError` is the record of one error, `Report` the short form that is handed on.

`text` is always the form shown to a user, `description` the form that names all the fields.
-/

namespace LoxScan

/-! ## Locations -/

/-- A line of a file, which may have no name.  Lines are any integers, as only a scan counts them
    from one. -/
structure Location where
  filename : Option String
  line : Int
deriving DecidableEq, Repr

namespace Location

def text (l : Location) : String :=
  plainOrNone l.filename ++ ":" ++ toString l.line

def description (l : Location) : String :=
  "SourceLocation(filename=" ++ quotedOrNone l.filename ++ ", line=" ++ toString l.line ++ ")"

end Location

/-! ## Diagnostics -/

structure Diagnostic where
  message : String
  location : Location
  severity : String
  code : Option String
  help : Option String
deriving DecidableEq, Repr

namespace Diagnostic

/-- The line with the help text; there is none for an absent or empty help. -/
def helpLine : Option String → String
  | some help => if help.isEmpty then "" else "  help: " ++ help ++ "\n"
  | none => ""

/-- The severity in capitals and the message, the place, and the help if there is any. -/
def text (d : Diagnostic) : String :=
  String.ofList (upperCase d.severity.toList) ++ ": " ++ d.message ++ "\n"
    ++ "  --> " ++ d.location.text ++ "\n" ++ helpLine d.help

def description (d : Diagnostic) : String :=
  "Diagnostic(message=" ++ quoted d.message ++ ", location=" ++ d.location.description
    ++ ", severity=" ++ quoted d.severity ++ ", code=" ++ quotedOrNone d.code
    ++ ", help_text=" ++ quotedOrNone d.help ++ ")"

end Diagnostic

/-! ## Reports -/

/-- What a receiver of errors is told about one. -/
structure Report where
  line : Int
  message : String
deriving DecidableEq, Repr

def Report.text (r : Report) : String :=
  "[line " ++ toString r.line ++ "] Error: " ++ r.message ++ "\n"

/-! ## Lexical errors -/

/-- The record of an error.  It keeps the message it was made with, whatever becomes of the
    diagnostic later. -/
structure LexicalError where
  message : String
  diagnostic : Diagnostic
deriving DecidableEq, Repr

namespace LexicalError

/-- A new error, which is always of severity `error`. -/
def ofMessage (message : String) (location : Location) (code help : Option String) :
    LexicalError :=
  ⟨message, ⟨message, location, "error", code, help⟩⟩

def line (e : LexicalError) : Int :=
  e.diagnostic.location.line

def report (e : LexicalError) : Report :=
  ⟨e.line, e.message⟩

def text (e : LexicalError) : String :=
  e.diagnostic.text

def description (e : LexicalError) : String :=
  "LexerError(" ++ quoted e.message ++ ")"

end LexicalError

/-! ## The two faults -/

/-- What may be wrong with a text: a character that begins no item, or a string that is not
    closed. -/
inductive LexicalFault where
  | unexpectedCharacter (c : Char)
  | unterminatedString
deriving DecidableEq, Repr

def errorCodes : List (String × String) :=
  [("L001", "Unexpected character"), ("L002", "Unterminated string literal")]

def printableHelp (text : List Char) : String :=
  "The character '" ++ String.ofList text ++ "' is not valid in Lox source code."

/-- The help for a rejected character that cannot be shown: its code point in capitals, with at
    least four digits. -/
def unprintableHelp (c : Char) : String :=
  "Non-printable character (Unicode: U+" ++ String.ofList (upperCase (hexDigits 4 c.toNat))
    ++ ") is not allowed."

/-- The help for a rejected text.  One that cannot be shown has a code point only if it is a single
    character. -/
def rejectionHelp? (text : List Char) : Option String :=
  if isPrintableText text then some (printableHelp text)
  else match text with
    | [c] => some (unprintableHelp c)
    | _ => none

namespace LexicalFault

def message : LexicalFault → String
  | unexpectedCharacter _ => "Unexpected character."
  | unterminatedString => "Unterminated string."

def code : LexicalFault → String
  | unexpectedCharacter _ => "L001"
  | unterminatedString => "L002"

def help : LexicalFault → String
  | unexpectedCharacter c => if isPrintable c then printableHelp [c] else unprintableHelp c
  | unterminatedString => "String literals must be closed with a matching \" quote."

def errorAt (fault : LexicalFault) (location : Location) : LexicalError :=
  .ofMessage fault.message location (some fault.code) (some fault.help)

@[simp] theorem line_errorAt (fault : LexicalFault) (location : Location) :
    (fault.errorAt location).line = location.line := rfl

@[simp] theorem message_errorAt (fault : LexicalFault) (location : Location) :
    (fault.errorAt location).message = fault.message := rfl

@[simp] theorem code_errorAt (fault : LexicalFault) (location : Location) :
    (fault.errorAt location).diagnostic.code = some fault.code := rfl

theorem code_eq_iff {fault : LexicalFault} : fault.code = "L002" ↔ fault = .unterminatedString := by
  cases fault <;> simp [code]

end LexicalFault

theorem rejectionHelp?_singleton (c : Char) :
    rejectionHelp? [c] = some (LexicalFault.unexpectedCharacter c).help := by
  simp only [rejectionHelp?, LexicalFault.help, isPrintableText_singleton]
  split <;> rfl

end LoxScan
