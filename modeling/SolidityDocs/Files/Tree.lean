import SolidityDocs.Files.Basic
import SolidityDocs.Line.Table
import SolidityDocs.Map.Ordered

/-!
# File trees

A `FileTree` holds the files and directories of a file system and knows its working directory.  A
path is followed name by name, from the root if it is absolute and from the working directory
otherwise: each name has to be found in a directory, `.` and the empty name stay where they are, and
`..` goes up, except at the root.

Every operation on files is a function of the tree: `isPresent` and `read` look at it, `createDirs`
and `write` give a new one, also when they fail.  Files hold bytes; only a file whose bytes are the
UTF-8 form of a text can be read.  The size of files may be bounded.  A text that is too large for
a file is found to be so only when the file has lost its old bytes and has been filled.
-/

namespace SolidityDocs

/-- What stands at a place of a file tree: a file with its bytes, or a directory. -/
inductive FileNode
  | file (content : List UInt8)
  | directory
  deriving DecidableEq

/-- The files and directories of a file system.  Each node stands under the names that lead to it
from the root, which is not among the nodes itself.  The working directory is given by the names
that lead to it, and the size of files may have a bound. -/
structure FileTree where
  nodes : OrderedMap (List String) FileNode
  workingDir : List String
  maxFileSize : Option Nat
  deriving DecidableEq

/-- The text with the given bytes, if there is one. -/
def textOfBytes? (bytes : List UInt8) : Option String := String.fromUTF8? ⟨bytes.toArray⟩

namespace FileTree

/-- What stands at a place. -/
def nodeAt? (t : FileTree) : List String → Option FileNode
  | [] => some .directory
  | names => t.nodes.get? names

/-- Whether there is a directory at a place. -/
def isDirectory (t : FileTree) (names : List String) : Bool := t.nodeAt? names = some .directory

/-- Where a path starts. -/
def startOf (t : FileTree) (path : String) : List String :=
  if isAbsolute path then [] else t.workingDir

/-- Follows one name of a path. -/
def enter (t : FileTree) (names : List String) (name : String) : Option (List String) :=
  if !t.isDirectory names then none
  else if name = "" ∨ name = "." then some names
  else if name = ".." then some names.dropLast
  else if (t.nodeAt? (names ++ [name])).isSome then some (names ++ [name])
  else none

/-- Follows the names of a path. -/
def follow (t : FileTree) (start names : List String) : Option (List String) :=
  names.foldlM t.enter start

/-- The place to which a path leads. -/
def resolve (t : FileTree) (path : String) : Option (List String) :=
  if path = "" then none else t.follow (t.startOf path) (pathNames path)

/-! ## The operations -/

/-- Whether a path leads to a file or a directory. -/
def isPresent (t : FileTree) (path : String) : Bool := (t.resolve path).isSome

/-- The text of the file to which a path leads. -/
def read (t : FileTree) (path : String) : Option String :=
  match (t.resolve path).bind t.nodeAt? with
  | some (.file content) => textOfBytes? content
  | _ => none

/-- Sets the node at a place below the root. -/
def set (t : FileTree) (names : List String) (n : FileNode) : FileTree :=
  { t with nodes := t.nodes.insert names n }

/-- Follows names from a place, and creates the directories that are missing.  Tells where the names
lead, if all went well. -/
def createAlong (t : FileTree) (start : List String) : List String → Option (List String) × FileTree
  | [] => (some start, t)
  | name :: names =>
    match t.enter start name with
    | some next => t.createAlong next names
    | none =>
      let next := start ++ [name]
      if t.isDirectory start && (t.nodeAt? next).isNone && isFileName name then
        (t.set next .directory).createAlong next names
      else (none, t)

/-- The names of a path that matter when directories are created.  A path that ends with the name
`.` speaks of a directory that is already there; the flag tells so. -/
def namesToCreate (path : String) : List String × Bool :=
  let names := (pathNames path).filter fun name => name ≠ ""
  (names.filter fun name => name ≠ ".", names.getLast? = some ".")

/-- Creates the directory to which a path leads, with those on the way. -/
def createDirs (t : FileTree) (path : String) : Bool × FileTree :=
  let (names, settled) := namesToCreate path
  let last := names.getLast?.getD ".."
  let (place, t) :=
    if settled && last ≠ ".." then
      let (place, t) := t.createAlong (t.startOf path) names.dropLast
      (place.bind fun p => t.enter p last, t)
    else t.createAlong (t.startOf path) names
  ((place.map t.isDirectory).getD false, t)

/-- The place of the file that can be set by a path: all names but the last lead to a directory, and
the last one is not the name of a directory there. -/
def target? (t : FileTree) (path : String) : Option (List String) :=
  let names := pathNames path
  let name := names.getLast?.getD ""
  (t.follow (t.startOf path) names.dropLast).bind fun dir =>
    if isFileName name && t.isDirectory dir && !t.isDirectory (dir ++ [name]) then
      some (dir ++ [name])
    else none

/-- Whether a file can hold the bytes. -/
def holds (t : FileTree) (bytes : List UInt8) : Bool :=
  t.maxFileSize.all fun size => bytes.length ≤ size

/-- What is in a new file after the bytes have been written to it: as many as it can hold. -/
def fill (t : FileTree) (bytes : List UInt8) : List UInt8 :=
  match t.maxFileSize with
  | none => bytes
  | some size => bytes.take size

/-- Sets the text of the file to which a path leads.  The old bytes are gone in any case; a text
that is too large leaves its beginning behind. -/
def write (t : FileTree) (path content : String) : Bool × FileTree :=
  match t.target? path with
  | none => (false, t)
  | some target =>
    (t.holds (textBytes content), t.set target (.file (t.fill (textBytes content))))

/-- The operations on files, carried out on a tree. -/
def system : FileSystem (StateM FileTree) where
  isPresent path := fun t => (t.isPresent path, t)
  read path := fun t => (t.read path, t)
  createDirs path := fun t => t.createDirs path
  write path content := fun t => t.write path content

/-! ## Trees and lists of files -/

/-- The tree with nothing but a working directory, and without a bound on files. -/
def empty : FileTree := ⟨.ofList [(["work"], .directory)], ["work"], none⟩

/-- Adds a file, or a directory when there is no text, with the directories on the way. -/
def add (t : FileTree) (path : String) (content : Option String) : FileTree :=
  let names := pathNames path
  let t := (t.createAlong t.workingDir names.dropLast).2
  t.set (t.workingDir ++ names) ((content.map fun text => .file (textBytes text)).getD .directory)

/-- The tree with the given files and directories in its working directory. -/
def ofList (files : List (String × Option String)) : FileTree :=
  files.foldl (fun t f => t.add f.1 f.2) .empty

/-- The path of a node, with a slash after a directory, and its text. -/
def listing (names : List String) : FileNode → String × String
  | .file content => ("/".intercalate names, (textOfBytes? content).getD "")
  | .directory => ("/".intercalate names ++ "/", "")

/-- What is new or different in the working directory of a tree. -/
def changes (before after : FileTree) : List (String × String) :=
  (after.nodes.entries.filter fun e =>
    after.workingDir.isPrefixOf e.1 && before.nodes.get? e.1 ≠ some e.2).map fun e =>
      listing (e.1.drop after.workingDir.length) e.2

end FileTree

end SolidityDocs
