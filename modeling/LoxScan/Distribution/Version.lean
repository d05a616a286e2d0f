/-! # The version line

The version of a distribution is written in its sources, on a line that begins with
`__version__ = "` and goes on with the version and a closing quote.

* `versionHere?` reads a version where one must begin.
* `versionIn?` looks for the first line of a text where a version can be read.
-/

namespace LoxScan

def versionMark : List Char :=
  "__version__ = \"".toList

/-- The version that a text begins with.  It is not empty, may span lines, and ends with the first
    quote after it. -/
def versionHere? (text : List Char) : Option (List Char) :=
  if versionMark.isPrefixOf text then
    let rest := text.drop versionMark.length
    let version := rest.takeWhile (· != '"')
    -- without a closing quote no shorter version is followed by one either
    if version.isEmpty || (rest.dropWhile (· != '"')).isEmpty then none else some version
  else none

/-- The first version in a text, of which the beginning may or may not be that of a line. -/
def versionFrom? (lineStart : Bool) : List Char → Option (List Char)
  | [] => none
  | c :: rest =>
    match if lineStart then versionHere? (c :: rest) else none with
    | some version => some version
    | none => versionFrom? (c == '\n') rest

/-- The version at the first line start where one can be read.  Only a line feed ends a line. -/
def versionIn? (text : List Char) : Option (List Char) :=
  versionFrom? true text

end LoxScan
