import Scaffold.Document.Switch
import Scaffold.Entity.Registry
import Scaffold.Module.Component

/-!
# Generation settings

The settings of a run: where modules and models lie, which namespaces they have, which entities are
known beforehand, and how files are written.  A document gives them under fixed names; a switch may
be spelled in several ways.
-/

namespace Scaffold

open Scaffold.Document

/-- The settings of a run. -/
structure Config where
  modulesPath : String := "Modules"
  moduleNamespace : String := "Modules"
  appModelsPath : Option String := some "app/Models"
  appModelNamespace : String := "App\\Models"
  stubsPath : Option String := none
  knownModules : Keyed (List String) := []
  globalModels : List String := []
  strictReferences : Bool := false
  overwriteExisting : Bool := true
  generateTests : Bool := true
  generateWebRoutes : Bool := true
  writeManifest : Bool := true
  atomicWrites : Bool := true
  deriving DecidableEq, Repr

namespace Config

/-- A namespace that is more than backslashes, without backslashes at its ends. -/
def readNamespace (value : Value) : Except Fault String :=
  match textOf value with
  | .error fault => .error fault
  | .ok name =>
      let stripped := strippedNamespace name
      if stripped.isEmpty then .error .emptyNamespace else .ok stripped

/-- A text or null. -/
def readTextOrNull : Value → Except Fault (Option String)
  | .null => .ok none
  | value => (readText false value).map some

/-- A list of texts. -/
def checkTexts (path : List Step) (value : Value) : Checked (List String) :=
  checkList (fun place => checkWith "" place (readText false)) path value

/-- The lists of texts of a mapping. -/
def checkTextLists (path : List Step) : Entries → Checked (Keyed (List String))
  | [] => ⟨[], []⟩
  | (key, value) :: rest =>
      let list := checkTexts (path ++ [entryStep key]) value
      let others := checkTextLists path rest
      ⟨((asTextKey key).keyText, list.value) :: others.value,
        keyIssues path [(key, value)] ++ list.issues ++ others.issues⟩

/-- A mapping from modules to their entities. -/
def checkModules (path : List Step) (value : Value) : Checked (Keyed (List String)) :=
  match value.content with
  | .mapping entries => checkTextLists path entries
  | _ => .faulty [] path .notMapping

/-- The names of all settings in their order. -/
def fieldNames : List String :=
  ["modules_path", "module_namespace", "app_models_path", "app_model_namespace", "stubs_path",
    "known_modules", "global_models", "strict_references", "overwrite_existing", "generate_tests",
    "generate_web_routes", "write_manifest", "atomic_writes"]

/-- A setting with the value that it has when it is not given. -/
def checkSetting {α : Type} (entries : Entries) (name : String) (standard : α)
    (read : Value → Except Fault α) : Checked α :=
  checkField [] entries name (some standard) standard fun place => checkWith standard place read

/-- Read the settings of a document. -/
def check (value : Value) : Checked Config :=
  match value.content with
  | .mapping entries =>
      let modulesPath := checkSetting entries "modules_path" "Modules" (readText false)
      let moduleNamespace := checkSetting entries "module_namespace" "Modules" readNamespace
      let appModelsPath :=
        checkSetting entries "app_models_path" (some "app/Models") readTextOrNull
      let appModelNamespace :=
        checkSetting entries "app_model_namespace" "App\\Models" readNamespace
      let stubsPath := checkSetting entries "stubs_path" none readTextOrNull
      let knownModules := checkField [] entries "known_modules" (some []) [] checkModules
      let globalModels := checkField [] entries "global_models" (some []) [] checkTexts
      let strictReferences := checkSetting entries "strict_references" false readSwitch
      let overwriteExisting := checkSetting entries "overwrite_existing" true readSwitch
      let generateTests := checkSetting entries "generate_tests" true readSwitch
      let generateWebRoutes := checkSetting entries "generate_web_routes" true readSwitch
      let writeManifest := checkSetting entries "write_manifest" true readSwitch
      let atomicWrites := checkSetting entries "atomic_writes" true readSwitch
      ⟨{ modulesPath := modulesPath.value
         moduleNamespace := moduleNamespace.value
         appModelsPath := appModelsPath.value
         appModelNamespace := appModelNamespace.value
         stubsPath := stubsPath.value
         knownModules := knownModules.value
         globalModels := globalModels.value
         strictReferences := strictReferences.value
         overwriteExisting := overwriteExisting.value
         generateTests := generateTests.value
         generateWebRoutes := generateWebRoutes.value
         writeManifest := writeManifest.value
         atomicWrites := atomicWrites.value },
        modulesPath.issues ++ moduleNamespace.issues ++ appModelsPath.issues ++
          appModelNamespace.issues ++ stubsPath.issues ++ knownModules.issues ++
          globalModels.issues ++ strictReferences.issues ++ overwriteExisting.issues ++
          generateTests.issues ++ generateWebRoutes.issues ++ writeManifest.issues ++
          atomicWrites.issues ++ unknownFields [] fieldNames entries⟩
  | _ => .faulty {} [] (.notInstance "GenerationConfig")

/-- Read the settings of a document. -/
def read (value : Value) : Except ShapeError Config :=
  (check value).toExcept "GenerationConfig"

end Config

end Scaffold
