import LoxScan.Diagnostic

/-! # The log of a scan

A scan leaves a record when it starts, one for every lexical error, and one when it ends.  All are
of the lowest level, so a log that shows higher levels only shows none.
-/

namespace LoxScan

inductive LogRecord where
  /-- The scan of a file began; the source has this many characters. -/
  | started (filename : Option String) (size : Nat)
  | found (location : Location) (message : String)
  /-- The scan came to its end with this many tokens and errors. -/
  | finished (filename : Option String) (tokens errors : Nat)
deriving DecidableEq, Repr

/-- The least level of the records that a log shows. -/
inductive LogLevel where
  | debug
  | info
  | warning
deriving DecidableEq, Repr

namespace LogRecord

def text : LogRecord → String
  | started filename size =>
    "Scanning " ++ plainOrNone filename ++ " (" ++ toString size ++ " chars)"
  | found location message => "Lexical error at " ++ location.text ++ ": " ++ message
  | finished filename tokens errors =>
    "Scanned " ++ plainOrNone filename ++ ": " ++ toString tokens ++ " tokens, " ++ toString errors
      ++ " errors"

def channel : String := "lox.lexer.lexer"

def levelName : String := "DEBUG"

end LogRecord

namespace LogLevel

def ofName? : String → Option LogLevel
  | "DEBUG" => some debug
  | "INFO" => some info
  | "WARNING" => some warning
  | _ => none

def filter : LogLevel → List LogRecord → List LogRecord
  | debug, records => records
  | _, _ => []

end LogLevel

end LoxScan
