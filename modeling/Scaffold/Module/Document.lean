import Scaffold.Module.Config
import Scaffold.Module.Definition

/-!
# Module documents

A module document holds a module definition and, under one of two names, the settings of the run
that generates it.
-/

namespace Scaffold

open Scaffold.Document (Entries ShapeError Value)

/-- A module definition with its settings. -/
structure ModuleDocument where
  definition : ModuleDefinition
  config : Config

/-- Why a mapping is no module document. -/
inductive DocumentError where
  | moduleNameMissing
  | definitionInvalid (error : ShapeError)
  | configInvalid (error : ShapeError)

/-- The wording of an error. -/
def DocumentError.message : DocumentError → String
  | .moduleNameMissing => "Cannot find 'module_name' in module file."
  | .definitionInvalid error => "Module definition is invalid: " ++ error.message
  | .configInvalid error => "Config validation failed: " ++ error.message

namespace ModuleDocument

/-- The names under which a document gives its settings, the preferred one first. -/
def configNames : List String :=
  ["config", "generation_config"]

/-- The name under which a document gives its settings. -/
def configName? (entries : Entries) : Option String :=
  configNames.find? (Entries.has entries)

/-- A value, or another one in its place when it is absent or counts as absent. -/
def valueOr (value : Option Value) (fallback : Value) : Value :=
  match value with
  | some value => if value.isTruthy then value else fallback
  | none => fallback

/-- The settings that a document gives, as they stand there. -/
def configValue (entries : Entries) : Value :=
  match configName? entries with
  | some name => valueOr (Entries.get? entries name) (.mapping [])
  | none => .mapping []

/-- Read a module document. -/
def read (entries : Entries) : Except DocumentError ModuleDocument :=
  match Entries.get? entries "module_name" with
  | none => .error .moduleNameMissing
  | some name =>
      let components := valueOr (Entries.get? entries "components") (.list [])
      let definition :=
        Value.mapping [(.text "module_name", name), (.text "components", components)]
      match ModuleDefinition.read definition with
      | .error error => .error (.definitionInvalid error)
      | .ok definition =>
          match Config.read (configValue entries) with
          | .error error => .error (.configInvalid error)
          | .ok config => .ok ⟨definition, config⟩

end ModuleDocument

end Scaffold
