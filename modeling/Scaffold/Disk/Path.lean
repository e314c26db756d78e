import Scaffold.Text.Words

/-!
# Paths

A path is a list of names that starts at the root or at the working directory.  Empty names and
single dots are dropped when a path is read; a double dot stays and leads back to the parent.  Of the
slashes in front of a path exactly two are kept, and any other number counts as one.
-/

namespace Scaffold.Disk

/-- Where a path starts. -/
inductive PathStart where
  /-- The working directory. -/
  | here
  | root
  /-- The root as well, spelled with two slashes. -/
  | doubleRoot
  deriving DecidableEq, Repr

/-- The slashes that a start is spelled with. -/
def PathStart.text : PathStart → String
  | .here => ""
  | .root => "/"
  | .doubleRoot => "//"

/-- The start that a text is spelled with. -/
def PathStart.ofText : List Char → PathStart
  | '/' :: '/' :: '/' :: _ => .root
  | '/' :: '/' :: _ => .doubleRoot
  | '/' :: _ => .root
  | _ => .here

/-- A path by names. -/
structure Path where
  start : PathStart
  names : List String
  deriving DecidableEq, Repr

namespace Path

/-- The parts of a text between slashes. -/
def splitSlash : List Char → List (List Char)
  | [] => [[]]
  | c :: rest =>
      match splitSlash rest with
      | [] => [[c]]
      | part :: parts => if c == '/' then [] :: part :: parts else (c :: part) :: parts

/-- Read a path. -/
def ofText (text : String) : Path :=
  let characters := text.toList
  let parts := (splitSlash characters).filter fun part => !part.isEmpty && part != ['.']
  ⟨.ofText characters, parts.map String.ofList⟩

/-- The path of names from the root. -/
def ofRoot (names : List String) : Path :=
  ⟨.root, names⟩

/-- A path starts at the root. -/
def isAbsolute (path : Path) : Bool :=
  path.start != .here

/-- A path as a text. -/
def text (path : Path) : String :=
  if path.start == .here && path.names.isEmpty then "."
  else path.start.text ++ "/".intercalate path.names

/-- A path followed by another one, which counts alone when it starts at the root. -/
def join (path other : Path) : Path :=
  if other.isAbsolute then other else { path with names := path.names ++ other.names }

/-- A path followed by the names of a text. -/
def child (path : Path) (text : String) : Path :=
  path.join (ofText text)

/-- The path without its last name. -/
def parent (path : Path) : Path :=
  { path with names := path.names.dropLast }

/-- The last name of a path, empty when it has none. -/
def name (path : Path) : String :=
  path.names.getLast?.getD ""

end Path

/-- The part of a name after its last dot, if a dot stands inside the name. -/
def extension? (name : String) : Option (List Char) :=
  let reversed := name.toList.reverse
  let ending := reversed.takeWhile (· != '.')
  match reversed.dropWhile (· != '.') with
  | '.' :: _ :: _ => if ending.isEmpty then none else some ending.reverse
  | _ => none

/-- A name without its last dot and what follows it, if a dot stands inside the name. -/
def stem (name : String) : String :=
  match extension? name with
  | some ending =>
      let characters := name.toList
      String.ofList (characters.take (characters.length - ending.length - 1))
  | none => name

end Scaffold.Disk
