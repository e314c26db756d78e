import Scaffold.Disk.Write
import Scaffold.Export.Manifest
import Scaffold.Log
import Scaffold.Module.Config

/-!
# Exports

An export makes the folders of a module and writes generated files below them.  A file that cannot
be written is reported, and the others are still written, but a name that is too long to be looked up
stops the export.  A dry run changes nothing and records the files that would be written.
-/

namespace Scaffold

open Scaffold.Disk (DiskError Path Tree WriteMode)

/-- Where and how files are exported. -/
structure Exporter where
  config : Config
  /-- The folder of the module, as an absolute path. -/
  folder : Path
  module : String
  dryRun : Bool
  /-- The time of the export. -/
  time : String

/-- An export under way: the tree as it is now, and what was reported so far. -/
structure Export where
  tree : Tree
  errors : List String := []
  warnings : List String := []
  records : List FileRecord := []
  logs : List LogRecord := []
  /-- What stopped the export, if anything did. -/
  stopped : Option DiskError := none

/-- The folders that every module has. -/
def moduleFolders : List String :=
  ["config", "Http/Controllers", "Http/Requests", "Database/Migrations", "Database/Seeders",
    "Database/Factories", "routes", "Models", "Services/Contracts", "Repositories/Contracts",
    "Providers", "resources/views", "resources/lang", "Tests/Unit"]

/-- The name of the file that keeps the manifest of a module. -/
def manifestName : String :=
  ".modulegen-manifest.json"

namespace Export

/-- Report an error. -/
def fail (state : Export) (message : String) : Export :=
  { state with
    errors := state.errors ++ [message]
    logs := state.logs ++ [.error .exporter message] }

/-- Stop because of an error. -/
def stop (state : Export) (error : DiskError) : Export :=
  { state with stopped := some error }

/-- Report an error of the disk.  A name that no file can have stops the export. -/
def failWith (state : Export) (error : DiskError) (message : String) : Export :=
  if error == .zeroInName then state.stop error else state.fail message

/-- Do the next step, unless the export was stopped. -/
def next (state : Export) (step : Export → Export) : Export :=
  if state.stopped.isSome then state else step state

/-- Report a warning. -/
def warn (state : Export) (message : String) : Export :=
  { state with
    warnings := state.warnings ++ [message]
    logs := state.logs ++ [.warning .exporter message] }

/-- Record what became of a file. -/
def record (state : Export) (file : OutputFile) (status : FileStatus) : Export :=
  { state with records := state.records ++ [.ofFile file status] }

end Export

namespace Exporter

/-- An exporter of a module to a folder of a tree. -/
def ofFolder (config : Config) (tree : Tree) (folder : Path) (module : String) (dryRun : Bool)
    (time : String) : Exporter :=
  ⟨config, tree.absolutePath folder, if module.isEmpty then folder.name else module, dryRun, time⟩

/-- How the files of an export are written. -/
def writeMode (exporter : Exporter) : WriteMode :=
  if exporter.config.atomicWrites then .atOnce else .inPlace

/-- Make a folder of the module. -/
def addFolder (exporter : Exporter) (state : Export) (name : String) : Export :=
  let folder := exporter.folder.child name
  match state.tree.ensureFolder folder with
  | (made, none) => { state with tree := made }
  | (made, some error) =>
      { state with tree := made }.failWith error
        ("Failed to create directory " ++ folder.text ++ ": " ++ error.message)

/-- Write one file, or record why it is not written. -/
def addFile (exporter : Exporter) (state : Export) (file : OutputFile) : Export :=
  let path := exporter.folder.child file.path
  match state.tree.has path with
  | .error error => state.stop error
  | .ok found =>
      if found && !file.aggregate && !exporter.config.overwriteExisting then
        (state.warn ("Skipped existing file " ++ file.path)).record file .skipped
      else if exporter.dryRun then state.record file .planned
      else
        match state.tree.writeText exporter.writeMode path file.content with
        | (written, none) => { state with tree := written }.record file .written
        | (made, some error) =>
            { state with tree := made }.failWith error
              ("Failed to write " ++ file.path ++ ": " ++ error.className ++ ": " ++ error.message)

/-- The manifest of an export. -/
def manifest (exporter : Exporter) (state : Export) : Manifest :=
  ⟨exporter.module, exporter.time, exporter.folder, exporter.dryRun, state.records⟩

/-- Write the manifest of an export. -/
def addManifest (exporter : Exporter) (state : Export) : Export :=
  let text := (exporter.manifest state).text
  match state.tree.writeText exporter.writeMode (exporter.folder.child manifestName) text with
  | (written, none) => { state with tree := written }
  | (made, some error) =>
      { state with
        tree := made
        warnings := state.warnings ++ ["Could not write manifest: " ++ error.message]
        logs := state.logs ++ [.warning .exporter ("Failed to write manifest: " ++ error.message)] }

/-- Report how many errors an export had, if it had any. -/
def close (exporter : Exporter) (state : Export) : Export :=
  if state.errors.isEmpty then state
  else
    { state with
      logs := state.logs ++ [.error .exporter
        ("Export of " ++ exporter.module ++ " completed with " ++
          Decimal.writtenInt state.errors.length ++ " error(s) in 0.000s.")] }

/-- Why there can be no folder of the module at all. -/
def refusal? (exporter : Exporter) : Option DiskError :=
  if Tree.hasZero exporter.folder then some .zeroInName else none

/-- Export files to a tree. -/
def run (exporter : Exporter) (tree : Tree) (files : List OutputFile) : Export :=
  let start : Export := { tree, stopped := exporter.refusal? }
  let folders := if exporter.dryRun then [] else moduleFolders
  let prepared :=
    folders.foldl (fun state name => state.next (exporter.addFolder · name)) start
  let exported := files.foldl (fun state file => state.next (exporter.addFile · file)) prepared
  let isListed :=
    exporter.config.writeManifest && !exporter.dryRun && exported.errors.isEmpty
  let listed := if isListed then exported.next exporter.addManifest else exported
  listed.next exporter.close

end Exporter

end Scaffold
