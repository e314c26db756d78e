import Scaffold.Module.Component

/-!
# Module definitions

A module definition names a module and lists its components in order.
-/

namespace Scaffold

open Scaffold.Document

/-- A module with its components. -/
structure ModuleDefinition where
  name : String
  components : List Component := []

namespace ModuleDefinition

/-- The name of the module as a namespace and a folder. -/
def studlyName (definition : ModuleDefinition) : String :=
  Text.studlyCase definition.name

/-- The class names of the entities in order. -/
def entities (definition : ModuleDefinition) : List String :=
  definition.components.map (·.entity)

/-- A short description of a module definition. -/
def describe (definition : ModuleDefinition) : String :=
  "<ModuleSpec " ++ definition.studlyName ++ ": " ++
    Decimal.writtenInt definition.components.length ++ " components>"

/-- Read a module definition. -/
def check (value : Value) : Checked ModuleDefinition :=
  match value with
  | .mapping entries =>
      let name :=
        checkField [] entries "module_name" none "" fun place =>
          checkWith "" place (readText true)
      let components := checkField [] entries "components" (some []) [] (checkList Component.check)
      let unknown := unknownFields [] ["module_name", "components"] entries
      ⟨⟨name.value, components.value⟩, name.issues ++ components.issues ++ unknown⟩
  | _ => .faulty ⟨"", []⟩ [] (.notInstance "ModuleSpec")

/-- Read a module definition. -/
def read (value : Value) : Except ShapeError ModuleDefinition :=
  (check value).toExcept "ModuleSpec"

end ModuleDefinition

end Scaffold
