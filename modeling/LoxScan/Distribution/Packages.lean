import LoxScan.Text.PathName

/-! # Packages of a source tree

A source tree is given by its files.  A directory can be a package if it holds the mark file and so
do all the directories above it, except the root of the tree.  Some names are left out even so.

* `SourceTree.ofPaths` makes a tree of paths with slashes.
* `SourceTree.isPackageTree` says whether a directory can be a package, `isLeftOut` whether it is
  one that does not count.
* `SourceTree.packages` lists the names of the packages in ascending order.
-/

namespace LoxScan

/-- A file: the names of the directories on the way to it and its own, and its text. -/
structure TreeFile where
  path : List String
  text : String
deriving DecidableEq, Repr

/-- The files of a tree, below its root.  Of two files at one path the later one counts. -/
structure SourceTree where
  files : List TreeFile
deriving DecidableEq, Repr

def packageMark : String := "__init__.py"

def testDirectory : String := "tests"

/-- A package at the root of a tree that only sets up others; what it holds is not left out. -/
def setupPackage : String := "ez_setup"

/-- The end of the names of directories for compiled files; what they hold is not left out. -/
def cacheEnding : String := "__pycache__"

/-- Whether a directory is left out of the packages, whatever it holds. -/
def isLeftOut (directory : List String) : Bool :=
  directory.head? == some testDirectory
    || directory == [setupPackage]
    || directory.getLast?.any fun name => cacheEnding.toList.isSuffixOf name.toList

namespace SourceTree

def ofPaths (files : List (String × String)) : SourceTree :=
  ⟨files.map fun file => ⟨normalParts file.1, file.2⟩⟩

def read? (tree : SourceTree) (path : List String) : Option String :=
  (tree.files.reverse.find? fun file => file.path == path).map TreeFile.text

def marked (tree : SourceTree) : List (List String) :=
  (tree.files.filterMap fun file =>
    if file.path.getLast? == some packageMark && 1 < file.path.length then some file.path.dropLast
    else none).eraseDups

/-- A directory can be a package if it and all those above it are marked and can be named in a
    dotted path. -/
def isPackageTree (tree : SourceTree) (directory : List String) : Bool :=
  directory.all (fun name => !name.toList.contains '.')
    && (List.range directory.length).all fun above =>
      tree.marked.contains (directory.take (above + 1))

def packages (tree : SourceTree) : List String :=
  let found := tree.marked.filter fun directory =>
    tree.isPackageTree directory && !isLeftOut directory
  (found.map (String.intercalate ".")).mergeSort fun a b => decide (a ≤ b)

end SourceTree

end LoxScan
