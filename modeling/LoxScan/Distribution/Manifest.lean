import LoxScan.About
import LoxScan.Distribution.Packages
import LoxScan.Distribution.Version
import LoxScan.Text.LineEnding

/-! # The manifest of a distribution

The manifest says what a distribution of the scanner is called and what it contains.  Most of it is
fixed; the version, the long description and the packages are taken from the source tree.

* `Manifest.ofTree` is the manifest of a source tree.
* `ownTree` is the part of the scanner's own tree that its manifest depends on.
-/

namespace LoxScan

structure Manifest where
  name : String
  version : String
  description : String
  longDescription : String
  longDescriptionType : String
  author : String
  license : String
  packages : List String
  includesData : Bool
  runtime : String
  requirements : List String
  extras : List (String × List String)
  classifiers : List String
  keywords : List String
  zipSafe : Bool
deriving DecidableEq, Repr

def fallbackVersion : String := "0.1.0"

def versionFile : List String := ["lox", packageMark]

def readmeFile : List String := ["README.md"]

namespace SourceTree

def readLines? (tree : SourceTree) (path : List String) : Option (List Char) :=
  (tree.read? path).map fun text => unifyLineEndings text.toList

def version (tree : SourceTree) : String :=
  (((tree.readLines? versionFile).bind versionIn?).map String.ofList).getD fallbackVersion

/-- The text of the readme file, which may be missing. -/
def longDescription (tree : SourceTree) : String :=
  ((tree.readLines? readmeFile).map String.ofList).getD ""

end SourceTree

def testTools : List String := ["pytest>=7.4.0", "pytest-cov>=4.1.0"]

def styleTools : List String :=
  ["black>=23.3.0", "flake8>=6.0.0", "mypy>=1.4.0", "isort>=5.12.0"]

def distributionClasses : List String :=
  ["Development Status :: 3 - Alpha",
    "Intended Audience :: Developers",
    "License :: OSI Approved :: MIT License",
    "Operating System :: OS Independent",
    "Programming Language :: Python :: 3",
    "Programming Language :: Python :: 3.8",
    "Programming Language :: Python :: 3.9",
    "Programming Language :: Python :: 3.10",
    "Programming Language :: Python :: 3.11",
    "Programming Language :: Python :: 3.12",
    "Topic :: Software Development :: Compilers",
    "Topic :: Software Development :: Interpreters"]

def Manifest.ofTree (tree : SourceTree) : Manifest where
  name := "lox-scanner"
  version := tree.version
  description := "Lexical scanner for the Lox scripting language"
  longDescription := tree.longDescription
  longDescriptionType := "text/markdown"
  author := about.author
  license := about.license
  packages := tree.packages
  includesData := true
  runtime := ">=3.8"
  requirements := []
  extras := [("dev", testTools ++ styleTools), ("test", testTools)]
  classifiers := distributionClasses
  keywords := ["lox", "lexer", "scanner", "tokenizer", "interpreter"]
  zipSafe := false

/-! ## The scanner's own tree -/

def readmeLines : List String :=
  ["# Lox Scanner",
    "",
    "Lexical scanner for the Lox scripting language. It turns source text into the",
    "ordered token list a parser consumes, and reports lexical errors without",
    "stopping the scan.",
    "",
    "```python",
    "from lox.lexer import scan_tokens, StderrReporter",
    "",
    "reporter = StderrReporter()",
    "for token in scan_tokens('var x = 10.5; print x;', reporter):",
    "    print(token.to_string())",
    "```",
    "",
    "Errors are printed as `[line N] Error: message`. A driver should skip parsing",
    "when `reporter.had_error` is set.",
    "",
    "## Development",
    "",
    "```bash",
    "pip install -e \".[dev]\"",
    "pytest                 # or: python run_tests.py",
    "```"]

def ownTree : SourceTree :=
  .ofPaths
    [("README.md", String.join (readmeLines.map (· ++ "\n"))),
      ("lox/__init__.py", "__version__ = \"" ++ about.version ++ "\"\n"),
      ("lox/lexer/__init__.py", "")]

end LoxScan
