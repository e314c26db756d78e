import Scaffold.Disk.Tree
import Scaffold.Entity.Registry
import Scaffold.Module.Config

/-!
# Discovering entities

The registry of a module is discovered from the models that lie on disk, in the folders of all
modules and of the application, and from those that the settings name.
-/

namespace Scaffold

open Scaffold.Disk (DiskError Path Tree)

/-- The folder among the modules that holds published stubs and examples, and is no module. -/
def setupFolderName : String :=
  "module-maker-config"

namespace Registry

/-- The models in a folder, in alphabetical order. -/
def modelsIn (tree : Tree) (folder : Path) : Except DiskError (List String) := do
  if ← tree.isFolder folder then
    let files ← (tree.namesEnding folder ".php").filterM fun name =>
      tree.isFile (folder.child name)
    return sortedTexts (files.map Disk.stem)
  else return []

/-- The modules of given names in a folder that have models, with their models. -/
def modulesAmong (tree : Tree) (folder : Path) :
    List String → Except DiskError (Keyed (List String))
  | [] => .ok []
  | name :: names => do
      let module := folder.child name
      let models ←
        if (← tree.isFolder module) && name != setupFolderName then
          modelsIn tree (module.child "Models")
        else pure []
      let others ← modulesAmong tree folder names
      return if models.isEmpty then others else (name, models) :: others

/-- The modules of a folder that have models, in alphabetical order, with their models. -/
def modulesIn (tree : Tree) (folder : Path) : Except DiskError (Keyed (List String)) := do
  if ← tree.isFolder folder then modulesAmong tree folder (tree.names folder) else return []

/-- Add the entities of modules to those that were found. -/
def extend (found known : Keyed (List String)) : Keyed (List String) :=
  known.foldl (fun all pair =>
    Keyed.put all pair.1 ((Keyed.get? all pair.1).getD [] ++ pair.2)) found

/-- The application's models: those of the settings, then those on disk. -/
def applicationModels (config : Config) (tree : Tree) : Except DiskError (List String) :=
  match config.appModelsPath.filter (!·.isEmpty) with
  | some folder => (modelsIn tree (Path.ofText folder)).map (config.globalModels ++ ·)
  | none => .ok config.globalModels

/-- Discover the registry of a module with its own entities. -/
def discover (config : Config) (tree : Tree) (module : String) (siblings : List String) :
    Except DiskError Registry := do
  let found ← modulesIn tree (Path.ofText config.modulesPath)
  let others := extend found config.knownModules
  let application ← applicationModels config tree
  return build module siblings others application config.moduleNamespace config.appModelNamespace

end Registry

end Scaffold
