import Scaffold.Export.Basic
import Scaffold.Module.Compilation
import Scaffold.Module.Review
import Scaffold.Run.Rendering

/-!
# Generating modules

A run reviews a definition, compiles its entities, renders their files and exports them.  A module is
started clean or from a definition, a definition is added to a module, or single files are.
-/

namespace Scaffold

open Scaffold.Disk (DiskError Path Tree WriteMode)
open Scaffold.Document (Entries Value)

namespace Run

/-! ## Steps -/

/-- Review a definition without its records. -/
def review (config : Config) (definition : ModuleDefinition) (run : Run) : Run :=
  let review := definition.review (some config) false
  let errors := (Review.errors review).map (·.describe)
  let warnings := (Review.warnings review).map (·.describe)
  let detail :=
    if !errors.isEmpty then Decimal.writtenInt errors.length ++ " error(s)"
    else if !warnings.isEmpty then Decimal.writtenInt warnings.length ++ " warning(s)"
    else "all checks passed"
  let report : Report :=
    { run.report with
      validationErrors := run.report.validationErrors ++ errors
      validationWarnings := run.report.validationWarnings ++ warnings }
  let logs : List LogRecord :=
    if errors.isEmpty then warnings.map fun warning => .warning .generator ("  ⚠ " ++ warning)
    else
      let head := "Validation failed with " ++ Decimal.writtenInt errors.length ++
        " error(s) in 0.000s."
      .error .generator head :: errors.map fun error => .error .generator ("  ✗ " ++ error)
  { run with report := report.addStep .validate errors.isEmpty detail }.addLogs logs

/-- Report what became of the entities of a definition. -/
def addCompilation (compilation : ModuleCompilation) (run : Run) : Run :=
  let skipped := compilation.failures.foldl (fun report (entity, violation) =>
    report.skipEntity entity violation.message) run.report
  let report : Report :=
    { skipped with
      warnings := skipped.warnings ++ compilation.warnings
      entityCount := compilation.descriptors.length }
  let detail :=
    Decimal.writtenInt compilation.descriptors.length ++ " compiled, " ++
      Decimal.writtenInt compilation.failures.length ++ " failed"
  { run with report := report.addStep .compile compilation.failures.isEmpty detail }

/-- Save the ledger of a module after its files were exported. -/
def saveLedger (mode : WriteMode) (folder : Path) (ledger : Ledger) (run : Run) : Run :=
  match ledger.save run.tree mode folder with
  | (tree, _, none) => { run with tree }
  | (tree, _, some error) =>
      let message := "Failed to save " ++ (Ledger.file folder).text ++ ": " ++ error.message
      { run with
        tree
        report := { run.report with exportErrors := run.report.exportErrors ++ [message] } }

/-- Report what became of the files of an export. -/
def addExport (manifest : Manifest) (exported : Export) (run : Run) : Run :=
  let report : Report :=
    { run.report with
      exportErrors := run.report.exportErrors ++ exported.errors
      warnings := run.report.warnings ++ exported.warnings
      manifest := some manifest }
  let count := fun (status : FileStatus) =>
    Decimal.writtenInt (manifest.withStatus status).length
  let detail :=
    if manifest.dryRun then Decimal.writtenInt manifest.fileCount ++ " planned"
    else count .written ++ " written, " ++ count .skipped ++ " skipped"
  { run with report := report.addStep .write exported.errors.isEmpty detail }

/-- Export files, and save the ledger when all of them were exported. -/
def exportFiles (generator : Generator) (config : Config) (folder : Path) (ledger : Ledger)
    (files : List OutputFile) (run : Run) : Run :=
  let exporter :=
    Exporter.ofFolder config run.tree folder ledger.module generator.dryRun generator.time
  let exported := exporter.run run.tree files
  let written := { run with tree := exported.tree }.addLogs exported.logs
  match exported.stopped with
  | some error => written.stop (.disk error)
  | none =>
      let saved :=
        if exported.errors.isEmpty && !generator.dryRun && ledger.unsaved then
          written.saveLedger exporter.writeMode folder ledger
        else written
      saved.addExport (exporter.manifest exported) exported

/-- Render the files of a compiled module and export them. -/
def renderAndExport (generator : Generator) (config : Config) (clean : Bool)
    (selection : Option Selection) (folder : Path) (module : String) (ledger : Ledger)
    (descriptors : List Descriptor) (run : Run) : Run :=
  match assignKeys run.tree folder run.sequence selection descriptors with
  | (.error error, sequence) => { run with sequence }.stop error
  | (.ok keys, sequence) =>
      let plan : RenderPlan := ⟨config, config.shelf clean run.tree, keys, selection⟩
      let rendering := plan.run module ledger run.report descriptors
      let rendered :=
        { run with sequence, report := rendering.report, stopped := rendering.stopped }.addLogs
          rendering.logs
      if rendered.stopped.isSome then rendered
      else if rendering.files.isEmpty then
        rendered.fail "No files were generated — aborting export."
      else rendered.exportFiles generator config folder rendering.ledger rendering.files

/-- Compile the entities of a definition, and go on with those that compiled. -/
def compileAndGenerate (generator : Generator) (config : Config) (clean : Bool)
    (selection : Option Selection) (definition : ModuleDefinition) (run : Run) : Run :=
  let folder := config.moduleFolder definition.studlyName
  match Registry.discover config run.tree definition.studlyName definition.entities with
  | .error error => run.stop (.disk error)
  | .ok registry =>
      let compilation :=
        definition.compile registry config.strictReferences (selection.map Keyed.keys)
      let logged := run.addLogs compilation.logs
      match compilation.stopped with
      | some error => logged.stop (.factory error)
      | none =>
          let compiled := logged.addCompilation compilation
          if compilation.descriptors.isEmpty then
            compiled.fail "No entity compiled — aborting export."
          else
            match (Ledger.ofModule definition.studlyName).load run.tree folder with
            | (_, some (.disk error)) => compiled.stop (.disk error)
            | (_, some (.numberTooLong error)) => compiled.stop (.numberTooLong error)
            | (_, some error) => compiled.fail error.message
            | (ledger, none) =>
                compiled.renderAndExport generator config clean selection folder
                  definition.studlyName ledger compilation.descriptors

/-- Generate the files of a definition. -/
def generate (generator : Generator) (config : Config) (clean : Bool)
    (selection : Option Selection) (definition : ModuleDefinition) (run : Run) : Run :=
  let folder := config.moduleFolder definition.studlyName
  if Tree.hasZero folder then run.stop (.disk .zeroInName)
  else
    let located : Run :=
      run.mapReport fun report =>
        { report with
          module := definition.studlyName
          folder := (run.tree.absolutePath folder).text }
    let reviewed := located.review config definition
    if !reviewed.report.validationErrors.isEmpty then reviewed
    else reviewed.compileAndGenerate generator config clean selection definition

end Run

/-! ## Modes -/

/-- A definition given as its name and the documents of its components. -/
def ModuleDefinition.ofParts (name : String) (components : List Value) :
    Except Document.ShapeError ModuleDefinition :=
  ModuleDefinition.read
    (.mapping [(.text "module_name", .text name), (.text "components", .list components)])

/-- A component as a document. -/
def Component.document (component : Component) : Value :=
  .mapping [(.text "name", .text component.name), (.text "attributes", .list component.attributes),
    (.text "relations", .list component.relations), (.text "indexes", .list component.indexes)]

/-- The document of a component of which only the name is given. -/
def Component.bareDocument (name : String) : Value :=
  .mapping [(.text "name", .text name)]

/-- Report that the parts of a definition do not fit together. -/
def Run.failInput (run : Run) (error : Document.ShapeError) : Run :=
  run.mapReport (·.addInputError ("Invalid module definition: " ++ error.message))

namespace Generator

/-- Start a module with one entity of its own name and without attributes. -/
def cleanModule (generator : Generator) (tree : Tree) (sequence : Migration.Sequence)
    (name : String) : Run :=
  let run := generator.start tree sequence .clean
  match ModuleDefinition.ofParts name [Component.bareDocument name] with
  | .error error => run.failInput error
  | .ok definition =>
      let module := definition.studlyName
      run.withAnswer (generator.config.hasModule tree module) fun isThere =>
        if isThere then
          { run with report := { run.report with module } }.fail
            ("Module '" ++ module ++ "' already exists at " ++
              (generator.config.moduleFolder module).text)
        else run.generate generator generator.config true none definition

/-- Generate a definition, for a new module or, on request, for one that exists. -/
def addDefinition (generator : Generator) (config : Config) (append : Bool)
    (definition : ModuleDefinition) (run : Run) : Run :=
  let module := definition.studlyName
  run.withAnswer (config.hasModule run.tree module) fun isThere =>
    if isThere && !append then
      { run with report := { run.report with module } }.fail
        ("Module '" ++ module ++ "' already exists; use append to add components to it")
    else run.generate generator config false none definition

/-- The mode of a run that may add to a module. -/
def definitionMode (append : Bool) : RunMode :=
  if append then .append else .dynamic

/-- Generate every component of a definition. -/
def dynamicModule (generator : Generator) (tree : Tree) (sequence : Migration.Sequence)
    (config : Config) (append : Bool) (definition : ModuleDefinition) : Run :=
  generator.addDefinition config append definition
    (generator.start tree sequence (definitionMode append))

/-- Generate the definition of a file, with another module name and further settings. -/
def fileModule (generator : Generator) (tree : Tree) (sequence : Migration.Sequence)
    (path : Path) (name : String) (append : Bool) (settings : Entries) : Run :=
  let run := generator.start tree sequence (definitionMode append)
  match ModuleDocument.load tree path name settings with
  | .error error =>
      match error.message? with
      | none => run.stop (.load error)
      | some text =>
          run.mapReport fun report =>
            (report.addInputError text).addStep .load false text
  | .ok document =>
      let detail :=
        Decimal.writtenInt document.definition.components.length ++ " component(s) from " ++
          path.name
      generator.addDefinition document.config append document.definition
        (run.mapReport (·.addStep .load true detail))

/-- The documents of the entities of a selection, as a definition gives them or without records. -/
def selectedDocuments (definition : Option ModuleDefinition) (selection : Selection) :
    List Value :=
  let components := ((definition.map (·.components)).getD []).reverse
  (Keyed.keys selection).map fun entity =>
    match components.find? (·.entity == entity) with
    | some component => component.document
    | none => Component.bareDocument entity

/-- Generate single files of a module that exists. -/
def selectedFiles (generator : Generator) (tree : Tree) (sequence : Migration.Sequence)
    (module : String) (requests : Keyed String) (definition : Option ModuleDefinition) : Run :=
  let selection := Selection.ofRequests requests
  let studly := Text.studlyCase module
  let start := generator.start tree sequence .individual
  let run : Run := { start with report := { start.report with module := studly } }
  if selection.isEmpty then run.mapReport (·.addInputError "No components requested.")
  else
    run.withAnswer (generator.config.hasModule tree studly) fun isThere =>
      if !isThere then
        run.fail ("Module '" ++ studly ++ "' does not exist at " ++
          (generator.config.moduleFolder studly).text)
      else
        match ModuleDefinition.ofParts studly (selectedDocuments definition selection) with
        | .error error => run.failInput error
        | .ok whole => run.generate generator generator.config false (some selection) whole

end Generator

end Scaffold
