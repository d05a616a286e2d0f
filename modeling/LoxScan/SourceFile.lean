import LoxScan.Scanner
import LoxScan.Text.PathName
import LoxScan.Text.Utf8

/-! # Source files

Reading a source file can fail before any character is scanned: there may be nothing to open under
its name, and what is opened may not be UTF-8 text.  Both come before the scan.

* `FileSystem` tells what is found under each name; any such function is one.
* `decodeText` turns the bytes of a text file into characters with line feeds as line endings.
* `FileSystem.tokenizeFile` gives the tokens of a file.
* `FileSystem.newDirectory` is a directory with nothing in it but one file at most.
-/

namespace LoxScan

/-- The text in some bytes; a byte order mark stays. -/
def decodeText (bytes : List UInt8) : Except Failure String :=
  match decodeUtf8 bytes with
  | .ok text => .ok (String.ofList (unifyLineEndings text))
  | .error fault => .error (.undecodable fault)

/-- What comes of opening a file of a given name and reading it to its end: its bytes, or the reason
    why there are none. -/
structure FileSystem where
  read (name : String) : Except Failure (List UInt8)

namespace FileSystem

/-- The tokens of a file, which is its own name in diagnostics. -/
def tokenizeFile (files : FileSystem) (name : String) : Except Failure (List Token) :=
  match files.read name with
  | .error failure => .error failure
  | .ok bytes =>
    match decodeText bytes with
    | .error failure => .error failure
    | .ok source => (tokenizeText source (some name)).mapError .lexical

/-- A new directory in which bytes are stored under the name that is asked for, if any are and a
    file can have that name there.  The only directories are this one and those above it. -/
def newDirectory (stored : Option (List UInt8)) : FileSystem where
  read name :=
    let parts := pathParts name
    if name.toList.contains '\x00' then .error .nullInName
    else if name.isEmpty || !parts.dropLast.all isDirectoryPart then .error (.missingFile name)
    else if parts.getLast?.any isDirectoryPart then .error (.isDirectory name)
    else match stored with
      | none => .error (.missingFile name)
      | some bytes => .ok bytes

end FileSystem

def tokenizeFile (name : String) (stored : Option (List UInt8)) : Except Failure (List Token) :=
  (FileSystem.newDirectory stored).tokenizeFile name

end LoxScan
