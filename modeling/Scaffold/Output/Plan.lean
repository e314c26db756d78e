import Scaffold.Entity.Descriptor
import Scaffold.Module.Config
import Scaffold.Output.File
import Scaffold.Stub.Shelf

/-!
# Plans of files

A plan says which stub a file is rendered from and with which values.  This module holds plans, the
names that generated code uses, and the rendering of plans in order.
-/

namespace Scaffold

open Scaffold.Stub (Shelf StubError)

/-- A file to be rendered. -/
structure FilePlan where
  path : String
  stub : String
  values : Keyed String
  deriving DecidableEq, Repr

/-- Why files cannot be rendered. -/
inductive RenderError where
  | stub (error : StubError)
  | keyMissing (entity : String)
  | unknownKinds (names : List String)
  deriving DecidableEq, Repr

/-- The wording of an error. -/
def RenderError.message : RenderError → String
  | .stub error => error.message
  | .keyMissing entity => entity ++ ": a migration key is required"
  | .unknownKinds names => "Unknown component kind(s): " ++ Text.quotedList names

/-- Rendered files, or what stopped their rendering, with what was logged before. -/
structure Rendering where
  files : Except RenderError (Keyed String)
  logs : List LogRecord := []

/-- Render plans in order; of several plans of one path the last content counts. -/
def renderPlans (shelf : Shelf) :
    Keyed String → List LogRecord → List (Except RenderError FilePlan) → Rendering
  | files, logs, [] => ⟨.ok files, logs⟩
  | _, logs, .error error :: _ => ⟨.error error, logs⟩
  | files, logs, .ok plan :: rest =>
      match shelf.render plan.stub plan.values with
      | .error error => ⟨.error (.stub error), logs⟩
      | .ok (content, warnings) =>
          renderPlans shelf (Keyed.put files plan.path content) (logs ++ warnings) rest

namespace Config

/-- The namespace of parts below the namespace of all modules. -/
def namespaceOf (config : Config) (parts : List String) : String :=
  "\\".intercalate (config.moduleNamespace :: parts)

/-- The full name of the model of an entity. -/
def modelClass (config : Config) (module entity : String) : String :=
  config.namespaceOf [module, "Models", entity]

/-- The import of a class. -/
def importOf (config : Config) (parts : List String) : String :=
  "use " ++ config.namespaceOf parts ++ ";"

end Config

/-- The shelf of a run. -/
def Config.shelf (config : Config) (clean : Bool) (tree : Disk.Tree) : Shelf :=
  ⟨(config.stubsPath.filter (!·.isEmpty)).map Disk.Path.ofText, clean, tree⟩

/-- Spaces in front of a line. -/
def indentation (level : Nat) : String :=
  String.ofList (List.replicate (4 * level) ' ')

end Scaffold
