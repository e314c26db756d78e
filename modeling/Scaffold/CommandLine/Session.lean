import Scaffold.CommandLine.Arguments
import Scaffold.Run.Generate
import Scaffold.Setup.Basic

/-!
# Running commands

A command runs on a tree and answers with an exit status, a text and a log.  The status tells which
kind of error came first; a command that fails says so at the end of its log.
-/

namespace Scaffold.CommandLine

open Scaffold.Disk (Path Tree)
open Scaffold.Document (Entries Value)

/-- The status with which a command ends. -/
inductive ExitStatus where
  | success
  | invalid
  | notGenerated
  | notExported
  | badInput
  deriving DecidableEq, Repr

/-- The number of a status. -/
def ExitStatus.code : ExitStatus → Nat
  | .success => 0
  | .invalid => 1
  | .notGenerated => 2
  | .notExported => 3
  | .badInput => 4

/-- The status for a report. -/
def ExitStatus.ofReport (report : Report) : ExitStatus :=
  if report.success then .success
  else if !report.inputErrors.isEmpty then .badInput
  else if !report.validationErrors.isEmpty then .invalid
  else if !report.generationErrors.isEmpty then .notGenerated
  else .notExported

/-- The outcome of a command. -/
structure Outcome where
  tree : Tree
  clock : Migration.Clock
  status : ExitStatus
  output : String := ""
  logs : List LogRecord := []
  /-- What stopped the command before it was complete, if anything did. -/
  stopped : Option RunError := none

/-- What a command runs on. -/
structure Setting where
  tree : Tree
  clock : Migration.Clock
  /-- The time of every export. -/
  time : String

namespace Setting

/-- A command ends without a text and leaves the tree as it is. -/
def refuse (setting : Setting) (status : ExitStatus) (message : String) : Outcome :=
  { tree := setting.tree
    clock := setting.clock
    status
    logs := [.error .commandLine message] }

/-- A command stops before it is complete. -/
def stop (setting : Setting) (error : RunError) : Outcome :=
  { tree := setting.tree
    clock := setting.clock
    status := .notGenerated
    stopped := some error }

/-- The outcome of a run. -/
def ofRun (run : Run) : Outcome :=
  { tree := run.tree
    clock := run.sequence.clock
    status := .ofReport run.report
    output := run.report.summary ++ "\n"
    logs := run.logs
    stopped := run.stopped }

end Setting

/-- The settings that arguments give. -/
def MakeArguments.settings (arguments : MakeArguments) : Entries :=
  let textEntry := fun (name : String) (value : Option String) =>
    value.toList.map fun text => (Value.text name, Value.text text)
  let switch := fun (name : String) (isGiven value : Bool) =>
    if isGiven then [(Value.text name, Value.bool value)] else []
  textEntry "modules_path" arguments.modulesPath ++ textEntry "stubs_path" arguments.stubsPath ++
    switch "strict_references" arguments.strictReferences true ++
    switch "overwrite_existing" arguments.noOverwrite false

/-- Single files are asked for. -/
def MakeArguments.wantsFiles (arguments : MakeArguments) : Bool :=
  arguments.files.any fun entry => !entry.2.isEmpty

/-- A list of findings under a title, after an empty line; an empty list has none. -/
def findingLines (title : String) (review : Review) : List String :=
  if review.isEmpty then []
  else
    "" :: ("  " ++ title ++ " (" ++ Decimal.writtenInt review.length ++ "):") ::
      review.map fun finding => "    " ++ finding.level.sign ++ " " ++ finding.describe

/-- The text that a review of a document ends with. -/
def reviewText (file : Path) (definition : ModuleDefinition) (review : Review) : String :=
  let rule := String.ofList (List.replicate 50 '=')
  let errors := Review.errors review
  let warnings := Review.warnings review
  let passed := if errors.isEmpty && warnings.isEmpty then ["", "  ✅ All validations passed!"] else []
  Text.joinLines (["", rule, "  Module Validation Report", rule,
    "  File:       " ++ file.name,
    "  Module:     " ++ definition.studlyName,
    "  Components: " ++ Decimal.writtenInt definition.components.length,
    "  Time:       0.000s",
    "  Valid:      " ++ (if errors.isEmpty then "Yes" else "No")] ++
    findingLines "Errors" errors ++ findingLines "Warnings" warnings ++ passed ++ [rule, "", ""])

namespace MakeArguments

/-- Review the document of a file and generate nothing. -/
def runReview (setting : Setting) (arguments : MakeArguments) (file : Path) : Outcome :=
  match ModuleDocument.load setting.tree file arguments.module [] with
  | .error error =>
      match error.message? with
      | some message => setting.refuse .badInput ("Failed to load module file: " ++ message)
      | none => setting.stop (.load error)
  | .ok document =>
      let review := document.definition.review (some document.config) true
      { tree := setting.tree
        clock := setting.clock
        status := if Review.passes review then .success else .invalid
        output := reviewText file document.definition review }

/-- Generate the definition of a file. -/
def runFile (setting : Setting) (arguments : MakeArguments) (file : Path) : Outcome :=
  let generator : Generator := ⟨{}, arguments.dryRun, setting.time⟩
  Setting.ofRun (generator.fileModule setting.tree ⟨setting.clock, []⟩ file arguments.module
    arguments.append arguments.settings)

/-- Start a clean module, or generate single files of a module. -/
def runParts (setting : Setting) (arguments : MakeArguments) (config : Config)
    (definition : Option ModuleDefinition) : Outcome :=
  let generator : Generator := ⟨config, arguments.dryRun, setting.time⟩
  let sequence : Migration.Sequence := ⟨setting.clock, []⟩
  let run :=
    if arguments.wantsFiles then
      generator.selectedFiles setting.tree sequence arguments.module arguments.files definition
    else generator.cleanModule setting.tree sequence arguments.module
  Setting.ofRun run

/-- Run without a file of a definition, or with one from which single files are generated. -/
def runLoaded (setting : Setting) (arguments : MakeArguments) (file : Option Path) : Outcome :=
  let fail := fun (message : String) =>
    setting.refuse .badInput ("Failed to load configuration: " ++ message)
  match file with
  | none =>
      match Config.read (.mapping arguments.settings) with
      | .ok config => arguments.runParts setting config none
      | .error error => fail error.message
  | some file =>
      match ModuleDocument.load setting.tree file arguments.module arguments.settings with
      | .ok document => arguments.runParts setting document.config (some document.definition)
      | .error error =>
          match error.message? with
          | some message => fail message
          | none => setting.stop (.load error)

/-- Run with the file of a definition, if one is given. -/
def runWith (setting : Setting) (arguments : MakeArguments) (file : Option Path) : Outcome :=
  if arguments.validateOnly then
    match file with
    | some file => arguments.runReview setting file
    | none => setting.refuse .badInput "--validate-only requires --config."
  else if arguments.append && (file.isNone || arguments.wantsFiles) then
    setting.refuse .badInput "--append requires --config and no individual component flags."
  else
    match file with
    | some file =>
        if arguments.wantsFiles then arguments.runLoaded setting (some file)
        else arguments.runFile setting file
    | none => arguments.runLoaded setting none

/-- Make a module. -/
def run (setting : Setting) (arguments : MakeArguments) : Outcome :=
  let modules := Path.ofText (arguments.modulesPath.getD "Modules")
  match arguments.config with
  | none => arguments.runWith setting none
  | some name =>
      match ModuleDocument.locate setting.tree modules arguments.module name with
      | .ok file => arguments.runWith setting (some file)
      | .error (.disk error) => setting.stop (.disk error)
      | .error error => setting.refuse .badInput error.message

end MakeArguments

/-- Publish stubs and examples. -/
def SetupArguments.run (setting : Setting) (arguments : SetupArguments) : Outcome :=
  let given := (arguments.modulesPath.filter (!·.isEmpty)).getD "Modules"
  let setup := Setup.run setting.tree (Path.ofText given)
  match setup.error with
  | some .zeroInName => { setting.stop (.disk .zeroInName) with tree := setup.tree }
  | some error =>
      { setting.refuse .notExported ("Setup failed: " ++ error.message) with tree := setup.tree }
  | none =>
      let lines :=
        (setup.written.map fun path => "  ✓ " ++ path.text) ++
          (setup.skipped.map fun path => "  ⊘ " ++ path.text ++ " (exists)") ++
          ["Published " ++ Decimal.writtenInt setup.written.length ++ " file(s), skipped " ++
            Decimal.writtenInt setup.skipped.length ++ ".", ""]
      { tree := setup.tree
        clock := setting.clock
        status := .success
        output := Text.joinLines lines }

/-- Run a command. -/
def Command.run (setting : Setting) (command : Command) : Outcome :=
  let outcome :=
    match command with
    | .make arguments => arguments.run setting
    | .setup arguments => arguments.run setting
  let failure : List LogRecord :=
    if outcome.status = .success then []
    else
      [.error .commandLine (command.name ++ " failed with exit code " ++
        Decimal.writtenInt outcome.status.code ++ ".")]
  { outcome with logs := if command.isQuiet then [] else outcome.logs ++ failure }

/-- The text that names the version. -/
def versionText : String :=
  "Laravel ModuleGen v" ++ Manifest.version ++ "\n"

end Scaffold.CommandLine
