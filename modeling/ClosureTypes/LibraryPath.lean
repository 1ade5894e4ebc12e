/-!
# Paths of library files

The declarations of the language's own library are in files named `lib.d.ts`, `lib.dom.d.ts`,
`lib.es2015.core.d.ts` and so on. Types declared there are known by name without further ado.

`fileName_append`: the file name does not depend on the directory that the file is in.
-/

namespace ClosureTypes

/-- The character parts a directory from what is in it; both customs are admitted. -/
def isPathSeparator (c : Char) : Bool := c = '/' || c = '\\'

/-- What follows the last separator of a path. -/
def fileName (path : List Char) : List Char :=
  (path.reverse.takeWhile fun c => !isPathSeparator c).reverse

/-- The file is one of the language's own library. -/
def isLibraryFile (name : List Char) : Bool :=
  "lib.".toList.isPrefixOf name && ".d.ts".toList.isSuffixOf name

/-- The path leads to a file of the language's own library. -/
def isLibraryPath (path : String) : Bool := isLibraryFile (fileName path.toList)

theorem fileName_append (directory path : List Char) {separator : Char}
    (h : isPathSeparator separator = true) :
    fileName (directory ++ separator :: path) = fileName path := by
  rw [fileName, fileName, List.reverse_append, List.reverse_cons, List.append_assoc]
  congr 1
  rw [List.takeWhile_append]
  split
  · next he => simp [h, (List.takeWhile_prefix _).eq_of_length he]
  · rfl

end ClosureTypes
