import Scaffold.Entity.Descriptor
import Scaffold.Module.Definition

/-!
# Compiling a module

The components of a module are compiled one by one, after the names of all of them are known.  A
component with a violation is skipped and its siblings still compile; only a factory number that is
too large stops the module.
-/

namespace Scaffold

/-- The outcome of compiling the components of a module. -/
structure ModuleCompilation where
  registry : Registry
  descriptors : List Descriptor := []
  /-- The violations of the components that were skipped, under their entities. -/
  failures : Keyed Violation := []
  logs : List LogRecord := []
  /-- What stopped the module, if anything did. -/
  stopped : Option FactoryError := none

namespace ModuleCompilation

/-- The warnings of all descriptors in order. -/
def warnings (compilation : ModuleCompilation) : List String :=
  compilation.descriptors.flatMap (·.warnings)

/-- Compile one more component. -/
def add (strict : Bool) (compilation : ModuleCompilation) (component : Component) :
    ModuleCompilation :=
  let logs := compilation.logs ++ component.compileLog compilation.registry
  match component.compile compilation.registry strict with
  | .ok descriptor =>
      { compilation with logs, descriptors := compilation.descriptors ++ [descriptor] }
  | .error (.violation violation) =>
      let message := "Skipping entity " ++ component.entity ++ ": " ++ violation.message
      { compilation with
        logs := logs ++ [.error .compiler message]
        failures := Keyed.put compilation.failures component.entity violation }
  | .error (.factory error) => { compilation with logs, stopped := some error }

/-- Compile components in order until one stops the module. -/
def addAll (strict : Bool) (compilation : ModuleCompilation) : List Component → ModuleCompilation
  | [] => compilation
  | component :: rest =>
      let next := compilation.add strict component
      if next.stopped.isSome then next else next.addAll strict rest

end ModuleCompilation

/-- Make the entities of a module known to a registry. -/
def ModuleDefinition.register (definition : ModuleDefinition) (registry : Registry) : Registry :=
  definition.entities.foldl Registry.addSibling registry

/-- Compile the components of a module, all of them or those of given entities. -/
def ModuleDefinition.compile (definition : ModuleDefinition) (registry : Registry) (strict : Bool)
    (only : Option (List String)) : ModuleCompilation :=
  let selected := definition.components.filter fun component =>
    match only with
    | some names => names.contains component.entity
    | none => true
  ModuleCompilation.addAll strict { registry := definition.register registry } selected

end Scaffold
