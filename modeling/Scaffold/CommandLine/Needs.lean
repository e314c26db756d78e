import Scaffold.CommandLine.Session

/-!
# What a command needs

A command looks at few places of a file system: the files where its document may lie, and the folders
that its settings name.
-/

namespace Scaffold.CommandLine

open Scaffold.Disk (Path Tree)

/-- The folder of the modules that arguments name. -/
def MakeArguments.modulesFolder (arguments : MakeArguments) : Path :=
  Path.ofText (arguments.modulesPath.getD "Modules")

/-- The files where the document of a command may lie. -/
def MakeArguments.documentPlaces (tree : Tree) (arguments : MakeArguments) : List Path :=
  match arguments.config with
  | none => []
  | some name =>
      let path := Path.ofText name
      if path.isAbsolute then [path]
      else ModuleDocument.places tree arguments.modulesFolder arguments.module path

/-- The settings of a command, given a tree with its document. -/
def MakeArguments.configIn (tree : Tree) (arguments : MakeArguments) : Config :=
  let own := ((Config.read (.mapping arguments.settings)).toOption).getD {}
  match arguments.config with
  | none => own
  | some name =>
      match ModuleDocument.locate tree arguments.modulesFolder arguments.module name with
      | .error _ => own
      | .ok file =>
          match ModuleDocument.load tree file arguments.module arguments.settings with
          | .ok document => document.config
          | .error _ => own

/-- The folders that settings name. -/
def configFolders (config : Config) : List Path :=
  (config.modulesPath :: (config.appModelsPath.toList ++ config.stubsPath.toList)).map Path.ofText

/-- The files that a command needs before its settings are known. -/
def Command.files (tree : Tree) : Command → List Path
  | .make arguments => arguments.documentPlaces tree
  | .setup _ => []

/-- The folders that a command needs, given a tree with the files that it needs. -/
def Command.folders (tree : Tree) : Command → List Path
  | .make arguments => configFolders (arguments.configIn tree)
  | .setup arguments => [Setup.folder (Path.ofText (arguments.modulesPath.getD "Modules"))]

/-- The text that says how commands are given. -/
def usageText : String :=
  Text.joinLines ["usage: modulegen [-h] [--version] COMMAND ...", "",
    "  make MODULE   create a module, or add components to one",
    "    -c, --config PATH      module file (JSON or YAML)",
    "    --append               add the components of the module file to a module",
    "    --model, --controller, --request, --service, --repository, --migration NAME",
    "                           generate only this file of a module",
    "    --modules-path DIR     folder of the modules (default: Modules)",
    "    --stubs-path DIR       folder of stubs",
    "    --strict-references    fail an entity when a model that it refers to is unknown",
    "    --no-overwrite         keep files of entities that exist",
    "    --validate-only        only validate the module file",
    "    --dry-run              write no files",
    "  setup         publish stubs and example module files",
    "    --modules-path DIR     folder of the modules (default: Modules)",
    "  -v, --verbose and -q, --quiet go with both commands", ""]

end Scaffold.CommandLine
