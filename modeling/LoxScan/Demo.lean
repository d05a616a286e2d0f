import LoxScan.Sink

/-! # A demonstration

A small program is scanned and its tokens are listed, as a check that everything works together.

* `Demo.program` is the program.
* `Demo.run` is the outcome: whether there was no error, what is printed, and what is reported.
-/

namespace LoxScan

namespace Demo

def program : String :=
  String.join
    ["\n",
      "    // greeting\n",
      "    fun greet(name) \x7b\n",
      "        print \"Hello, \" + name;\n",
      "    \x7d\n",
      "    var count = 10.5;\n",
      "    if (count >= 3) greet(\"world\");\n",
      "    "]

structure Outcome where
  ok : Bool
  printed : String
  reported : String
deriving DecidableEq, Repr

def header : List String :=
  ["🚀 Lox Scanner Test Suite",
    String.ofList (List.replicate 60 '='),
    "✅ Lexer modules imported successfully",
    "",
    "Testing a small program..."]

def tokenLine (t : Token) : String :=
  "     line " ++ String.ofList (padLeft 2 ' ' (toString t.line).toList) ++ ": " ++ t.dump

def footer (ok : Bool) : List String :=
  if ok then ["✅ Smoke test PASSED", ""] else ["❌ Smoke test reported lexical errors"]

def runOn (program : String) : Outcome :=
  let (_, pass) := scanTo (.ofSink (some (.terminal false))) program (some "<smoke>")
  let tokens := pass.scanner.tokens.toList
  let ok := !pass.state.sink.elim false Sink.hadError
  let lines := header ++ ["     Generated " ++ toString tokens.length ++ " tokens"]
    ++ tokens.map tokenLine ++ footer ok
  ⟨ok, String.join (lines.map (· ++ "\n")), pass.state.shown⟩

def run : Outcome :=
  runOn program

end Demo

end LoxScan
