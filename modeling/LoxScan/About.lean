import LoxScan.Diagnostic

/-! # About the package

The names that the package and its scanner part make public, and what they say about themselves.
-/

namespace LoxScan

structure About where
  version : String
  author : String
  license : String
  packageNames : List String
  scannerNames : List String
  errorCodes : List (String × String)
deriving DecidableEq, Repr

def about : About where
  version := "0.1.0"
  author := "xwest"
  license := "MIT"
  packageNames :=
    ["Lexer", "Token", "TokenType", "scan_tokens", "__version__", "__author__", "__license__"]
  scannerNames :=
    ["Lexer", "Token", "TokenType", "SourceLocation", "KEYWORDS", "scan_tokens",
      "tokenize_string", "tokenize_file", "LexerError", "Diagnostic", "DiagnosticSink",
      "ErrorCollector", "StderrReporter"]
  errorCodes := errorCodes

end LoxScan
