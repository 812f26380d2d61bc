/-!
# Paths and file operations

A path is text with slashes between its names.  Joining keeps both sides as they are.

What a run asks of the file system is a `FileSystem`.  A run is written against its operations, so
that it can work on real files and on a `FileTree` alike.
-/

namespace SolidityDocs

/-! ## Paths -/

/-- Whether a path starts at the root. -/
def isAbsolute (path : String) : Bool := path.toList.head? = some '/'

/-- The path `right` seen from `left`.  An absolute path is the same from everywhere. -/
def joinPath (left right : String) : String :=
  if isAbsolute right then right
  else if left.isEmpty || left.toList.getLast? = some '/' then left ++ right
  else left ++ "/" ++ right

/-- The names of a path, empty ones included. -/
def pathNames (path : String) : List String := (path.toList.splitOn '/').map String.ofList

theorem pathNames_ne_nil (path : String) : pathNames path ≠ [] :=
  fun h => List.splitOn_ne_nil _ _ (List.map_eq_nil_iff.mp h)

/-- Whether a file or a directory can have a name. -/
def isFileName (name : String) : Bool :=
  name ≠ "" && name ≠ "." && name ≠ ".." && !name.toList.contains '\x00' && name.utf8ByteSize ≤ 255

/-! ## Operations -/

/-- The operations on files, in a monad that carries them out: whether a path leads to a file or a
directory, what the text of a file is if it can be read, creating a directory with those on the way
to it, and setting the text of a file.  The last two tell whether that went well. -/
structure FileSystem (m : Type → Type) where
  isPresent : String → m Bool
  read : String → m (Option String)
  createDirs : String → m Bool
  write : String → String → m Bool

end SolidityDocs
