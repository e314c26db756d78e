import Scaffold.Disk.Write
import Scaffold.Entity.Discovery
import Scaffold.Setup.Example
import Scaffold.Stub.Builtin

/-!
# Setup

Setup publishes the built-in stubs and the example documents to a folder among the modules, where
they can be changed.  A file that exists is kept.
-/

namespace Scaffold

open Scaffold.Disk (DiskError Path Tree)

/-- A setup under way: the tree as it is now, and what became of the files so far. -/
structure Setup where
  tree : Tree
  written : List Path := []
  skipped : List Path := []
  /-- What stopped the setup, if anything did. -/
  error : Option DiskError := none

namespace Setup

/-- The folder of published files. -/
def folder (modules : Path) : Path :=
  modules.child setupFolderName

/-- The built-in stubs in alphabetical order of their names. -/
def sortedStubs : Keyed String :=
  Stub.builtin.mergeSort fun left right => left.1 ≤ right.1

/-- All files to publish with their contents, in order. -/
def files (folder : Path) : List (Path × String) :=
  let stubs : String → List (Path × String) := fun variant =>
    sortedStubs.map fun (name, stub) =>
      (((folder.child "stubs").child variant).child (name ++ ".stub"), stub)
  let documents := examples.map fun (name, document) =>
    (folder.child name, Document.Json.written .ascii document)
  stubs "clean" ++ stubs "dynamic" ++ documents

/-- Publish a file, unless it exists or the setup was stopped. -/
def publish (setup : Setup) (file : Path × String) : Setup :=
  if setup.error.isSome then setup
  else
    match setup.tree.has file.1 with
    | .error error => { setup with error := some error }
    | .ok true => { setup with skipped := setup.skipped ++ [file.1] }
    | .ok false =>
        match setup.tree.writeText .atOnce file.1 file.2 with
        | (tree, none) => { setup with tree, written := setup.written ++ [file.1] }
        | (tree, some error) => { setup with tree, error := some error }

/-- Publish all files below the folder of the modules. -/
def run (tree : Tree) (modules : Path) : Setup :=
  (files (folder modules)).foldl publish { tree }

end Setup

end Scaffold
