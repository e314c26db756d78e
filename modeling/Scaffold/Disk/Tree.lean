import Scaffold.Disk.Content
import Scaffold.Disk.Path
import Scaffold.Entity.Registry

/-!
# Trees

A tree is the part of a file system that a run can see: folders, and files with their content.  Each
is found at a location, a list of names from the root; the root itself is always a folder.  What a run
has changed is the difference of the trees before and after it.
-/

namespace Scaffold.Disk

/-- A place in a tree, by names from the root. -/
abbrev Location := List String

/-- Folders and files, with a working directory. -/
structure Tree where
  home : Location := []
  folders : List Location := []
  files : List (Location × Content) := []
  deriving DecidableEq, Repr

/-- What a location holds. -/
inductive Kind where
  | folder
  | file
  deriving DecidableEq, Repr

/-- Why an operation on a tree fails. -/
inductive DiskError where
  | missing
  | exists
  | notFolder
  | isFolder
  /-- A path that leads to a parent cannot be replaced. -/
  | busy
  | nameTooLong
  /-- A name has the character with the code zero. -/
  | zeroInName
  /-- The content of a file is no text. -/
  | notText
  deriving DecidableEq, Repr

/-- The wording of an error. -/
def DiskError.message : DiskError → String
  | .missing => "[Errno 2]"
  | .exists => "[Errno 17]"
  | .notFolder => "[Errno 20]"
  | .isFolder => "[Errno 21]"
  | .busy => "[Errno 16]"
  | .nameTooLong => "[Errno 36]"
  | .zeroInName => "embedded null byte"
  | .notText => "invalid UTF-8"

/-- The name of the class of an error in reports. -/
def DiskError.className : DiskError → String
  | .missing => "FileNotFoundError"
  | .exists => "FileExistsError"
  | .notFolder => "NotADirectoryError"
  | .isFolder => "IsADirectoryError"
  | .busy => "OSError"
  | .nameTooLong => "OSError"
  | .zeroInName => "ValueError"
  | .notText => "UnicodeDecodeError"

namespace Tree

/-- The content of the file at a location. -/
def contentAt? (tree : Tree) (location : Location) : Option Content :=
  (tree.files.find? (·.1 == location)).map (·.2)

/-- What a location holds, if it holds anything. -/
def kindAt? (tree : Tree) (location : Location) : Option Kind :=
  if location.isEmpty || tree.folders.contains location then some .folder
  else if (tree.contentAt? location).isSome then some .file
  else none

/-- The greatest number of bytes of a name. -/
def nameLimit : Nat :=
  255

/-- The greatest number of bytes of a path. -/
def pathLimit : Nat :=
  4095

/-- The location that a name leads to from another one. -/
def step (location : Location) (name : String) : Location :=
  if name == ".." then location.dropLast else location ++ [name]

/--
Follow names from a location; each of them but the last has to lead to a folder, and none may be too
long.
-/
def walk (tree : Tree) (location : Location) : List String → Except DiskError Location
  | [] => .ok location
  | name :: rest =>
      match tree.kindAt? location with
      | some .folder =>
          if nameLimit < name.utf8ByteSize then .error .nameTooLong
          else tree.walk (step location name) rest
      | some .file => .error .notFolder
      | none => .error .missing

/-- The location where a path starts. -/
def start (tree : Tree) (path : Path) : Location :=
  if path.isAbsolute then [] else tree.home

/-- A name has the character with the code zero. -/
def hasZero (path : Path) : Bool :=
  path.names.any fun name => name.toList.contains '\x00'

/-- The location of a path. -/
def locate (tree : Tree) (path : Path) : Except DiskError Location :=
  if hasZero path then .error .zeroInName
  else if pathLimit < path.text.utf8ByteSize then .error .nameTooLong
  else tree.walk (tree.start path) path.names

/-- The location of a path by its names alone, whether or not its folders are there. -/
def resolve (tree : Tree) (path : Path) : Location :=
  path.names.foldl step (tree.start path)

/-- The absolute path of a path. -/
def absolutePath (tree : Tree) (path : Path) : Path :=
  .ofRoot (tree.resolve path)

/-- What a path leads to.  Only a name that is too long makes the question fail. -/
def inspect (tree : Tree) (path : Path) : Except DiskError (Option Kind) :=
  match tree.locate path with
  | .ok location => .ok (tree.kindAt? location)
  | .error .nameTooLong => .error .nameTooLong
  | .error _ => .ok none

/-- A path leads to a file. -/
def isFile (tree : Tree) (path : Path) : Except DiskError Bool :=
  (tree.inspect path).map (· == some .file)

/-- A path leads to a folder. -/
def isFolder (tree : Tree) (path : Path) : Except DiskError Bool :=
  (tree.inspect path).map (· == some .folder)

/-- A path leads to a file or a folder. -/
def has (tree : Tree) (path : Path) : Except DiskError Bool :=
  (tree.inspect path).map (·.isSome)

/-- The first of several paths that leads to a file. -/
def firstFile? (tree : Tree) : List Path → Except DiskError (Option Path)
  | [] => .ok none
  | path :: paths =>
      match tree.isFile path with
      | .error error => .error error
      | .ok true => .ok (some path)
      | .ok false => tree.firstFile? paths

/-- The last name of a location that lies directly in a folder. -/
def nameIn? (folder location : Location) : Option String :=
  if !location.isEmpty && location.dropLast == folder then location.getLast? else none

/-- The names directly in a folder, in alphabetical order. -/
def names (tree : Tree) (path : Path) : List String :=
  match tree.locate path with
  | .error _ => []
  | .ok folder =>
      sortedTexts
        (tree.folders.filterMap (nameIn? folder) ++
          tree.files.filterMap fun file => nameIn? folder file.1)

/-- The text of a file with every line end as a single line feed. -/
def withLineFeeds : List Char → List Char
  | '\r' :: '\n' :: rest => '\n' :: withLineFeeds rest
  | '\r' :: rest => '\n' :: withLineFeeds rest
  | c :: rest => c :: withLineFeeds rest
  | [] => []

/-- Read the text of a file. -/
def readText (tree : Tree) (path : Path) : Except DiskError String :=
  match tree.locate path with
  | .error error => .error error
  | .ok location =>
      match tree.contentAt? location, tree.kindAt? location with
      | some (.text value), _ => .ok (String.ofList (withLineFeeds value.toList))
      | some (.bytes _), _ => .error .notText
      | none, some _ => .error .isFolder
      | none, none => .error .missing

/-- The names of the folder of a path that end in given characters, in alphabetical order. -/
def namesEnding (tree : Tree) (path : Path) (ending : String) : List String :=
  (tree.names path).filter fun name => ending.toList.isSuffixOf name.toList

end Tree

/-! ## Differences -/

/-- What one tree has and another one has not. -/
structure Difference where
  /-- Files that are new or have another content. -/
  changed : List (Location × Content)
  removed : List Location
  addedFolders : List Location
  deriving DecidableEq, Repr

/-- What has changed from one tree to another. -/
def Tree.difference (before after : Tree) : Difference :=
  { changed := after.files.filter fun file => !before.files.contains file
    removed := (before.files.map (·.1)).filter fun location => (after.contentAt? location).isNone
    addedFolders := after.folders.filter (!before.folders.contains ·) }

end Scaffold.Disk
