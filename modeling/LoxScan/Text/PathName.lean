/-! # Path names

A path name is a row of parts with slashes between them.

* `pathParts` splits a path name.
* `isDirectoryPart` marks the parts that stand for a directory which always exists.
* `normalParts` leaves out the parts that lead nowhere.
-/

namespace LoxScan

def pathParts (path : String) : List String :=
  (path.toList.splitOn '/').map String.ofList

/-- The directory reached so far, by its empty name or as a single dot, and the one above it. -/
def isDirectoryPart (part : String) : Bool :=
  part == "" || part == "." || part == ".."

/-- The way to a file after the parts already gone: an empty part or a dot stays where it is, and
    two dots go back by one part. -/
def walkParts (gone : List String) : List String → List String
  | [] => gone
  | part :: rest =>
    if part == "" || part == "." then walkParts gone rest
    else if part == ".." then walkParts gone.dropLast rest
    else walkParts (gone ++ [part]) rest

def normalParts (path : String) : List String :=
  walkParts [] (pathParts path)

end LoxScan
