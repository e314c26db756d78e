import Scaffold.Export.Manifest
import Scaffold.Text.Lines

/-!
# Reports

A report says what a run did, step by step, and lists everything that went wrong.  A run succeeds
when nothing of that is an error.
-/

namespace Scaffold

/-- What a run is asked to do. -/
inductive RunMode where
  /-- Start a module with one entity of its own name. -/
  | clean
  /-- Start a module from a definition. -/
  | dynamic
  /-- Add the components of a definition to a module. -/
  | append
  /-- Add single files to a module. -/
  | individual
  deriving DecidableEq, Repr

/-- The name of a mode. -/
def RunMode.name : RunMode → String
  | .clean => "clean"
  | .dynamic => "dynamic"
  | .append => "append"
  | .individual => "individual"

/-- A step of a run. -/
inductive RunStep where
  | load
  | validate
  | compile
  | render
  | write
  deriving DecidableEq, Repr

/-- The name of a step. -/
def RunStep.name : RunStep → String
  | .load => "Load Module File"
  | .validate => "Validate Module"
  | .compile => "Compile Entities"
  | .render => "Render Templates"
  | .write => "Export to Filesystem"

/-- The outcome of a step. -/
structure StepOutcome where
  step : RunStep
  success : Bool
  detail : String
  deriving DecidableEq, Repr

/-- What a run did. -/
structure Report where
  mode : RunMode
  dryRun : Bool
  module : String := ""
  /-- The folder of the module as an absolute path, once it is known. -/
  folder : String := ""
  /-- The number of entities that compiled. -/
  entityCount : Nat := 0
  steps : List StepOutcome := []
  inputErrors : List String := []
  validationErrors : List String := []
  validationWarnings : List String := []
  generationErrors : List String := []
  exportErrors : List String := []
  warnings : List String := []
  skippedEntities : List String := []
  manifest : Option Manifest := none
  deriving DecidableEq, Repr

namespace Report

/-- Nothing went wrong. -/
def success (report : Report) : Bool :=
  report.inputErrors.isEmpty && report.validationErrors.isEmpty &&
    report.generationErrors.isEmpty && report.exportErrors.isEmpty

/-- The number of files that count. -/
def fileCount (report : Report) : Nat :=
  (report.manifest.map (·.fileCount)).getD 0

/-- The number of bytes of the files that count. -/
def byteCount (report : Report) : Nat :=
  (report.manifest.map (·.byteCount)).getD 0

/-- The number of lines of the files that count. -/
def lineCount (report : Report) : Nat :=
  (report.manifest.map (·.lineCount)).getD 0

/-- Add the outcome of a step. -/
def addStep (report : Report) (step : RunStep) (success : Bool) (detail : String) : Report :=
  { report with steps := report.steps ++ [⟨step, success, detail⟩] }

/-- Add an error of the input. -/
def addInputError (report : Report) (message : String) : Report :=
  { report with inputErrors := report.inputErrors ++ [message] }

/-- Add an error of the generation. -/
def addGenerationError (report : Report) (message : String) : Report :=
  { report with generationErrors := report.generationErrors ++ [message] }

/-- Skip an entity because of an error. -/
def skipEntity (report : Report) (entity message : String) : Report :=
  { report with
    generationErrors := report.generationErrors ++ [message]
    skippedEntities := report.skippedEntities ++ [entity] }

/-! ## Summaries -/

/-- Digits in groups of three, of which the first may be shorter; they are given in reverse. -/
def grouped : List Char → List Char
  | a :: b :: c :: d :: rest => a :: b :: c :: ',' :: grouped (d :: rest)
  | digits => digits

/-- A number with a comma between groups of three digits. -/
def groupedNumber (n : Nat) : String :=
  String.ofList (grouped (Decimal.writtenInt n).toList.reverse).reverse

/-- A text filled up with blanks to a width. -/
def padded (width : Nat) (text : String) : String :=
  text ++ String.ofList (List.replicate (width - text.length) ' ')

/-- The width of summaries. -/
def summaryWidth : Nat :=
  60

/-- A line of a summary that consists of one character. -/
def rule (c : Char) : String :=
  String.ofList (List.replicate summaryWidth c)

/-- The status line of a report. -/
def status (report : Report) : String :=
  if !report.success then "❌ FAILED"
  else if report.dryRun then "✅ SUCCESS (dry run)"
  else "✅ SUCCESS"

/-- The lines of a list of messages under a title; an empty list has none. -/
def listing (title sign : String) (messages : List String) : List String :=
  if messages.isEmpty then []
  else
    rule '─' :: ("  " ++ title ++ " (" ++ Decimal.writtenInt messages.length ++ "):") ::
      messages.map fun message => "    " ++ sign ++ " " ++ message

/-- The line of a step. -/
def stepLine (outcome : StepOutcome) : String :=
  "    " ++ (if outcome.success then "✓" else "✗") ++ " " ++ padded 28 outcome.step.name ++
    "   0.000s  " ++ outcome.detail

/-- The text that sums up a report. -/
def summary (report : Report) : String :=
  let head :=
    [rule '=', "  Laravel ModuleGen — Generation Report", rule '=',
      "  Status:             " ++ report.status,
      "  Module:             " ++ report.module,
      "  Mode:               " ++ report.mode.name,
      "  Directory:          " ++ report.folder,
      "  Entities processed: " ++ Decimal.writtenInt report.entityCount,
      "  Files:              " ++ Decimal.writtenInt report.fileCount,
      "  Total lines:        " ++ groupedNumber report.lineCount,
      "  Total bytes:        " ++ groupedNumber report.byteCount,
      "  Total time:         0.000s", rule '─']
  let steps :=
    if report.steps.isEmpty then [] else "  Pipeline Steps:" :: report.steps.map stepLine
  Text.joinLines (head ++ steps ++ listing "Input Errors" "✗" report.inputErrors ++
    listing "Validation Errors" "✗" report.validationErrors ++
    listing "Validation Warnings" "⚠" report.validationWarnings ++
    listing "Generation Errors" "✗" report.generationErrors ++
    listing "Export Errors" "✗" report.exportErrors ++
    listing "Warnings" "⚠" report.warnings ++
    listing "Skipped Entities" "⊘" report.skippedEntities ++ [rule '='])

end Report

end Scaffold
