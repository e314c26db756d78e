import Scaffold.Disk.Tree
import Scaffold.Log
import Scaffold.Stub.Builtin
import Scaffold.Stub.Placeholder
import Scaffold.Text.Quoted

/-!
# Shelves of stubs

A shelf finds the stub of a name: in the folder of its variant, in the folder of stubs itself, or
among the built-in stubs.
-/

namespace Scaffold.Stub

open Scaffold.Disk (DiskError Path Tree)

/-- Where stubs are found. -/
structure Shelf where
  /-- The folder of stubs, if there is one. -/
  folder : Option Path
  /-- Stubs for modules without attributes are preferred. -/
  clean : Bool
  tree : Tree

/-- Why a stub cannot be used. -/
inductive StubError where
  | notFound (name : String) (searched : List String)
  /-- A file of the stub cannot be looked up or read. -/
  | disk (error : DiskError)
  deriving DecidableEq, Repr

/-- The wording of an error. -/
def StubError.message : StubError → String
  | .notFound name searched =>
      "Stub '" ++ name ++ "' not found (searched " ++ Text.quotedList searched ++
        " and the built-in stubs)"
  | .disk error => error.message

namespace Shelf

/-- The folder of the variant of a shelf. -/
def variant (shelf : Shelf) : String :=
  if shelf.clean then "clean" else "dynamic"

/-- The files in which a shelf looks for a stub, in order. -/
def candidates (shelf : Shelf) (name : String) : List Path :=
  match shelf.folder with
  | none => []
  | some folder =>
      [(folder.child shelf.variant).child (name ++ ".stub"), folder.child (name ++ ".stub")]

/-- The stub of a name. -/
def load (shelf : Shelf) (name : String) : Except StubError String :=
  match shelf.tree.firstFile? (shelf.candidates name) with
  | .error error => .error (.disk error)
  | .ok (some path) => (shelf.tree.readText path).mapError .disk
  | .ok none =>
      match Keyed.get? builtin name with
      | some stub => .ok stub
      | none => .error (.notFound name ((shelf.candidates name).map (·.text)))

/-- The warnings about placeholders without a value, in alphabetical order. -/
def warnings (name : String) (missing : List String) : List LogRecord :=
  (sortedTexts missing).map fun key =>
    .warning .templates
      ("Stub '" ++ name ++ "': no value for placeholder '\x7b\x7b " ++ key ++ " \x7d\x7d'")

/-- Render the stub of a name, with the warnings that this gives rise to. -/
def render (shelf : Shelf) (name : String) (values : Keyed String) :
    Except StubError (String × List LogRecord) :=
  match shelf.load name with
  | .ok stub => .ok (fill values stub, warnings name (missingKeys values stub))
  | .error error => .error error

end Shelf

end Scaffold.Stub
