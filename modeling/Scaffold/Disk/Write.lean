import Scaffold.Disk.Tree

/-!
# Writing to a tree

Folders are made together with the folders above them.  A file is written in place, or as a whole
under another name in the same folder before it takes the place of the old one.  An operation that
fails answers with its error and with the tree as it has left it.
-/

namespace Scaffold.Disk

/-- How a file is written. -/
inductive WriteMode where
  | inPlace
  /-- Under another name first, which then replaces the name of the file. -/
  | atOnce
  deriving DecidableEq, Repr

namespace Tree

/-- Make a folder at a location. -/
def addFolder (tree : Tree) (location : Location) : Tree :=
  { tree with folders := tree.folders ++ [location] }

/-- Set the content of an entry of a list of files, which comes last if it is new. -/
def putFile (location : Location) (content : Content) :
    List (Location × Content) → List (Location × Content)
  | [] => [(location, content)]
  | file :: rest =>
      if file.1 == location then (location, content) :: rest
      else file :: putFile location content rest

/-- Make one folder, whose parent has to be there. -/
def makeFolder (tree : Tree) (path : Path) : Except DiskError Tree :=
  match tree.locate path with
  | .error error => .error error
  | .ok location =>
      match tree.kindAt? location with
      | some _ => .error .exists
      | none => .ok (tree.addFolder location)

/-- An error counts unless a path leads to a folder all the same. -/
def unlessFolder (tree : Tree) (path : Path) (error : DiskError) : Option DiskError :=
  match tree.isFolder path with
  | .ok found => if found then none else some error
  | .error unanswered => some unanswered

/-- Make a folder unless it is there; its parent has to be. -/
def allowFolder (tree : Tree) (path : Path) : Tree × Option DiskError :=
  match tree.makeFolder path with
  | .ok made => (made, none)
  | .error error => (tree, tree.unlessFolder path error)

/--
Make the folder of names that follow a path, with all folders above it, unless it is there.  The
names are given from the last one.
-/
def ensureNames (tree : Tree) (start : PathStart) : List String → Tree × Option DiskError
  | [] => tree.allowFolder ⟨start, []⟩
  | name :: above =>
      let path : Path := ⟨start, (name :: above).reverse⟩
      match tree.makeFolder path with
      | .ok made => (made, none)
      | .error .missing =>
          match tree.ensureNames start above with
          | (made, none) => made.allowFolder path
          | (made, some error) => (made, some error)
      | .error error => (tree, tree.unlessFolder path error)

/-- Make the folder of a path, with all folders above it, unless it is there. -/
def ensureFolder (tree : Tree) (path : Path) : Tree × Option DiskError :=
  tree.ensureNames path.start path.names.reverse

/-- The number of bytes that the other name of a file has more than its own. -/
def otherNameExcess : Nat :=
  14

/-- A file cannot be written under another name first. -/
def otherNameError? (path : Path) : Option DiskError :=
  if hasZero path then some .zeroInName
  else if nameLimit < path.name.utf8ByteSize + otherNameExcess ||
      pathLimit < path.text.utf8ByteSize + otherNameExcess then some .nameTooLong
  else if path.name.isEmpty || path.name == ".." then some .busy
  else none

/-- Replace the content of the file of a path, whose folder has to be there. -/
def replaceFile (tree : Tree) (mode : WriteMode) (path : Path) (content : Content) :
    Except DiskError Tree :=
  let refused := if mode == .atOnce then otherNameError? path else none
  match refused, tree.locate path with
  | some error, _ => .error error
  | none, .error error => .error error
  | none, .ok location =>
      match tree.kindAt? location with
      | some .folder => .error .isFolder
      | _ => .ok { tree with files := putFile location content tree.files }

/-- Write the file of a path, and make the folders above it. -/
def writeFile (tree : Tree) (mode : WriteMode) (path : Path) (content : Content) :
    Tree × Option DiskError :=
  match tree.ensureFolder path.parent with
  | (made, some error) => (made, some error)
  | (made, none) =>
      match made.replaceFile mode path content with
      | .ok written => (written, none)
      | .error error => (made, some error)

/-- Write a text to the file of a path, and make the folders above it. -/
def writeText (tree : Tree) (mode : WriteMode) (path : Path) (text : String) :
    Tree × Option DiskError :=
  tree.writeFile mode path (.text text)

/-- Remove what a path leads to, with all that lies below it. -/
def remove (tree : Tree) (path : Path) : Tree :=
  let location := tree.resolve path
  let isBelow := fun (other : Location) => location.isPrefixOf other
  { tree with
    folders := tree.folders.filter (!isBelow ·)
    files := tree.files.filter (!isBelow ·.1) }

end Tree

end Scaffold.Disk
