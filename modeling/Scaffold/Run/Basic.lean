import Scaffold.Factory.Expression
import Scaffold.Log
import Scaffold.Migration.Sequence
import Scaffold.Module.Loading
import Scaffold.Run.Report

/-!
# Runs

A run turns a module definition into files.  Its state is the tree and the sequence of migration keys
as they are now, the report so far and what was logged.  A few errors stop a run before its report is
complete.
-/

namespace Scaffold

open Scaffold.Disk (DiskError Path Tree)

/-- Why a run stops before its report is complete. -/
inductive RunError where
  | factory (error : FactoryError)
  /-- There is no migration key after the last one. -/
  | noKeyLeft
  | key (error : Migration.KeyError)
  /-- A path cannot be looked up, or the content of a file is no text. -/
  | disk (error : DiskError)
  /-- A module document has no value, and no wording for the reason. -/
  | load (error : LoadError)
  /-- A number of a ledger has too many digits. -/
  | numberTooLong (digits : Nat)

/-- The settings that all runs of a generator share. -/
structure Generator where
  config : Config
  dryRun : Bool := false
  /-- The time of every export. -/
  time : String

/-- A run under way. -/
structure Run where
  tree : Tree
  sequence : Migration.Sequence
  report : Report
  logs : List LogRecord := []
  /-- What stopped the run, if anything did. -/
  stopped : Option RunError := none

namespace Run

/-- Change the report. -/
def mapReport (run : Run) (change : Report → Report) : Run :=
  { run with report := change run.report }

/-- Add records to the log. -/
def addLogs (run : Run) (records : List LogRecord) : Run :=
  { run with logs := run.logs ++ records }

/-- Stop the run. -/
def stop (run : Run) (error : RunError) : Run :=
  { run with stopped := some error }

/-- Go on with an answer of the disk, or stop because there is none. -/
def withAnswer {α : Type} (run : Run) (answer : Except DiskError α) (next : α → Run) : Run :=
  match answer with
  | .ok value => next value
  | .error error => run.stop (.disk error)

/-- Report an error of the generation. -/
def fail (run : Run) (message : String) : Run :=
  run.mapReport (·.addGenerationError message)

end Run

/-- The folder of a module. -/
def Config.moduleFolder (config : Config) (module : String) : Path :=
  (Path.ofText config.modulesPath).child (Text.studlyCase module)

/-- The folder of a module is there. -/
def Config.hasModule (config : Config) (tree : Tree) (module : String) : Except DiskError Bool :=
  tree.isFolder (config.moduleFolder module)

/-- The start of a run. -/
def Generator.start (generator : Generator) (tree : Tree) (sequence : Migration.Sequence)
    (mode : RunMode) : Run :=
  { tree, sequence, report := { mode, dryRun := generator.dryRun } }

end Scaffold
