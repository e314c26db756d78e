import Scaffold.Digest.Sha256
import Scaffold.Module.Config
import Scaffold.Text.Lines

/-!
# Output files

A file that a run generates, with its path relative to the module.  A file of an entity may be kept
when it exists; an aggregate belongs to the whole module and is written anew on every run.
-/

namespace Scaffold

open Scaffold.Document

/-- A generated file. -/
structure OutputFile where
  path : String
  content : String
  aggregate : Bool := false
  entity : Option String := none
  deriving DecidableEq, Repr

namespace OutputFile

/-- The number of lines of a file. -/
def lineCount (file : OutputFile) : Nat :=
  Text.countLines file.content

/-- The number of bytes of a file. -/
def size (file : OutputFile) : Nat :=
  file.content.utf8ByteSize

/-- The digest of a file. -/
def checksum (file : OutputFile) : String :=
  Digest.sha256Text file.content

/-- Read the description of a file. -/
def check (value : Value) : Checked OutputFile :=
  match value with
  | .mapping entries =>
      let required := fun (name : String) (nonEmpty : Bool) =>
        checkField [] entries name none "" fun place => checkWith "" place (readText nonEmpty)
      let path := required "path" true
      let content := required "content" false
      let aggregate := Config.checkSetting entries "aggregate" false Document.readSwitch
      let entity := Config.checkSetting entries "entity" none Config.readTextOrNull
      let unknown := unknownFields [] ["path", "content", "aggregate", "entity"] entries
      ⟨⟨path.value, content.value, aggregate.value, entity.value⟩,
        path.issues ++ content.issues ++ aggregate.issues ++ entity.issues ++ unknown⟩
  | _ => .faulty ⟨"", "", false, none⟩ [] (.notInstance "GeneratedFile")

/-- Read the description of a file. -/
def read (value : Value) : Except ShapeError OutputFile :=
  (check value).toExcept "GeneratedFile"

end OutputFile

end Scaffold
