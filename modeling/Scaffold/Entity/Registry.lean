import Scaffold.Entity.Target
import Scaffold.Keyed
import Scaffold.Text.Words

/-!
# Entity registries

A registry holds the entity names that a module can refer to: its own, those of other modules, and
the models of the application.  A name is looked up in that order, and among other modules in
alphabetical order.
-/

namespace Scaffold

/-- Put texts in alphabetical order. -/
def sortedTexts (texts : List String) : List String :=
  texts.mergeSort fun left right => left ≤ right

/-- Add a text to a list unless it is there. -/
def addText (texts : List String) (text : String) : List String :=
  if texts.contains text then texts else texts ++ [text]

/-- A namespace without backslashes at its ends. -/
def strippedNamespace (name : String) : String :=
  let isBackslash := fun (c : Char) => c == '\\'
  String.ofList
    (((name.toList.dropWhile isBackslash).reverse.dropWhile isBackslash).reverse)

/-- The entity names known to a module; no list repeats a name. -/
structure Registry where
  module : String
  siblings : List String := []
  neighbours : Keyed (List String) := []
  application : List String := []
  moduleNamespace : String := "Modules"
  applicationNamespace : String := "App\\Models"

namespace Registry

/-- Make an entity known in the module itself. -/
def addSibling (registry : Registry) (entity : String) : Registry :=
  { registry with siblings := addText registry.siblings (Text.studlyCase entity) }

/-- Make entities known in a module, which may be the registry's own. -/
def addModule (registry : Registry) (module : String) (entities : List String) : Registry :=
  let name := Text.studlyCase module
  if name == registry.module then entities.foldl addSibling registry
  else
    let known := (Keyed.get? registry.neighbours name).getD []
    let extended := (entities.map Text.studlyCase).foldl addText known
    { registry with neighbours := Keyed.put registry.neighbours name extended }

/-- A registry of a module with its entities, those of other modules, and application models. -/
def build (module : String) (siblings : List String) (others : Keyed (List String))
    (application : List String) (moduleNamespace applicationNamespace : String) : Registry :=
  let empty : Registry :=
    { module := Text.studlyCase module
      application := (application.map Text.studlyCase).foldl addText []
      moduleNamespace := strippedNamespace moduleNamespace
      applicationNamespace := strippedNamespace applicationNamespace }
  let own := siblings.foldl addSibling empty
  others.foldl (fun registry pair => registry.addModule pair.1 pair.2) own

/-- The namespace of a module; no name stands for the registry's own module. -/
def namespaceOf (registry : Registry) (module : String) : String :=
  registry.moduleNamespace ++ "\\" ++ (if module.isEmpty then registry.module else module)

/-- The full name of the model of an entity. -/
def modelName (registry : Registry) (entity module : String) : String :=
  registry.namespaceOf module ++ "\\Models\\" ++ entity

/-- The full name of the factory of an entity. -/
def factoryName (registry : Registry) (entity module : String) : String :=
  registry.namespaceOf module ++ "\\Database\\Factories\\" ++ entity ++ "Factory"

/-- The first module in alphabetical order, among given ones, that knows an entity. -/
def neighbourOf? (registry : Registry) (entity : String) : Option String :=
  (sortedTexts (Keyed.keys registry.neighbours)).find? fun module =>
    ((Keyed.get? registry.neighbours module).getD []).contains entity

/-- Look up an entity name. -/
def resolve (registry : Registry) (name : String) : Target :=
  let entity := Text.studlyCase name
  if registry.siblings.contains entity then
    ⟨entity, .sibling registry.module (registry.modelName entity "")⟩
  else
    match registry.neighbourOf? entity with
    | some module => ⟨entity, .neighbour module (registry.modelName entity module)⟩
    | none =>
        if registry.application.contains entity then
          ⟨entity, .application (registry.applicationNamespace ++ "\\" ++ entity)⟩
        else ⟨entity, .unknown registry.module registry.neighbours.length⟩

/-- A short description of a registry. -/
def describe (registry : Registry) : String :=
  "<EntityRegistry " ++ registry.module ++ ": " ++ Decimal.writtenInt registry.siblings.length ++
    " local, " ++ Decimal.writtenInt registry.neighbours.length ++ " external modules, " ++
    Decimal.writtenInt registry.application.length ++ " global>"

end Registry

end Scaffold
