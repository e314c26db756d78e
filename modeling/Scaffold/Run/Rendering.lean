import Scaffold.Ledger.Store
import Scaffold.Migration.Order
import Scaffold.Output.Aggregate
import Scaffold.Run.Basic
import Scaffold.Run.Selection

/-!
# Rendering a module

The entities of a module get their migration keys and are rendered one by one; one that cannot be
rendered is skipped.  Those that were rendered are entered into the ledger, from which the
aggregates are rendered at the end.
-/

namespace Scaffold

open Scaffold.Disk (DiskError Path Tree)

/-! ## Migration keys -/

/-- Migration keys for entities. -/
structure KeyAssignment where
  keys : Keyed String := []
  sequence : Migration.Sequence
  /-- There was no key left for an entity. -/
  exhausted : Bool := false

/--
Give a key to each descriptor in turn: the one of an existing migration of its table, or else a new
one.
-/
def KeyAssignment.addAll (module : String) (existing : Keyed String)
    (assignment : KeyAssignment) : List Descriptor → KeyAssignment
  | [] => assignment
  | descriptor :: rest =>
      match Keyed.get? existing descriptor.table with
      | some key =>
          let keys := Keyed.put assignment.keys descriptor.entity key
          KeyAssignment.addAll module existing { assignment with keys } rest
      | none =>
          match assignment.sequence.next module with
          | (some key, sequence) =>
              let keys := Keyed.put assignment.keys descriptor.entity key.text
              KeyAssignment.addAll module existing { assignment with keys, sequence } rest
          | (none, sequence) => { assignment with sequence, exhausted := true }

/-- A migration is asked for. -/
def wantsMigration (selection : Option Selection) (descriptor : Descriptor) : Bool :=
  match selection with
  | none => true
  | some selection =>
      Keyed.has ((Keyed.get? selection descriptor.entity).getD []) FileKind.migration.name

/-- The keys of the migrations in a folder, under their tables. -/
def keysIn (tree : Tree) (folder : Path) : Except DiskError (Keyed String) :=
  (tree.isFolder folder).map fun found =>
    if found then Migration.Sequence.existingKeys (tree.names folder) else []

/-- The folder of the migrations of a module. -/
def migrationsFolder (module : Path) : Path :=
  module.child "Database/Migrations"

/-- Give keys to the descriptors for which a migration is asked, in the order of their tables. -/
def assignKeys (tree : Tree) (folder : Path) (sequence : Migration.Sequence)
    (selection : Option Selection) (descriptors : List Descriptor) :
    Except RunError (Keyed String) × Migration.Sequence :=
  let module := (tree.absolutePath folder).text
  match keysIn tree (migrationsFolder folder) with
  | .error error => (.error (.disk error), sequence)
  | .ok existing =>
      match sequence.observeAll module (existing.map (·.2)) with
      | (some error, observed) => (.error (.key error), observed)
      | (none, observed) =>
          let wanted := (Migration.order descriptors).filter (wantsMigration selection)
          let assignment := KeyAssignment.addAll module existing { sequence := observed } wanted
          if assignment.exhausted then (.error .noKeyLeft, assignment.sequence)
          else (.ok assignment.keys, assignment.sequence)

/-! ## Files -/

/-- A rendering under way: the files and the ledger so far. -/
structure ModuleRendering where
  files : List OutputFile := []
  ledger : Ledger
  report : Report
  logs : List LogRecord := []
  /-- What stopped the rendering, if anything did. -/
  stopped : Option RunError := none

/-- What rendering a module needs. -/
structure RenderPlan where
  config : Config
  shelf : Stub.Shelf
  keys : Keyed String
  selection : Option Selection

/-- Kinds of files whose presence makes an entity part of the aggregates. -/
def layeredKinds : List FileKind :=
  [.controller, .service, .repository]

namespace RenderPlan

/-- The class names chosen for an entity, if files are chosen at all. -/
def chosen? (plan : RenderPlan) (entity : String) : Option (Keyed String) :=
  plan.selection.bind fun selection => Keyed.get? selection entity

/-- The kinds of files of an entity. -/
def kinds (plan : RenderPlan) (entity : String) : List FileKind :=
  match plan.chosen? entity with
  | some names => FileKind.all.filter fun kind => Keyed.has names kind.name
  | none => FileKind.standard plan.config

/-- Enter a rendered entity into the ledger. -/
def enter (plan : RenderPlan) (entity : String) (ledger : Ledger) : Ledger :=
  match plan.chosen? entity with
  | none => (ledger.register .entities entity).register .seeders (entity ++ "Seeder")
  | some _ =>
      if layeredKinds.all ((plan.kinds entity).contains ·) then ledger.register .entities entity
      else ledger

/-- Render the files of an entity. -/
def addEntity (plan : RenderPlan) (state : ModuleRendering) (descriptor : Descriptor) :
    ModuleRendering :=
  let entity := descriptor.entity
  let output :=
    descriptor.generate plan.config plan.shelf (Keyed.get? plan.keys entity) (plan.kinds entity)
      ((plan.chosen? entity).getD [])
  let logs := state.logs ++ output.logs
  match output.files with
  | .ok files =>
      { state with files := state.files ++ files, ledger := plan.enter entity state.ledger, logs }
  | .error (.stub (.disk .nameTooLong)) => { state with logs, stopped := some (.disk .nameTooLong) }
  | .error error =>
      let message := "Rendering failed for " ++ entity ++ ": " ++ error.message
      { state with
        report := state.report.skipEntity entity (entity ++ ": " ++ error.message)
        logs := logs ++ [.error .generator message] }

/-- Render the aggregates of a module from its ledger, if there are files at all. -/
def addAggregates (plan : RenderPlan) (module : String) (state : ModuleRendering) :
    ModuleRendering :=
  if state.files.isEmpty then state
  else
    let output :=
      Aggregate.generate plan.config plan.shelf module state.ledger.entities state.ledger.seeders
    let logs := state.logs ++ output.logs
    match output.files with
    | .ok files => { state with files := state.files ++ files, logs }
    | .error (.stub (.disk error)) => { state with logs, stopped := some (.disk error) }
    | .error error =>
        { state with
          report := state.report.addGenerationError ("Aggregates: " ++ error.message)
          logs := logs ++ [.error .generator ("Rendering aggregates failed: " ++ error.message)] }

/-- Report how many files were rendered. -/
def close (state : ModuleRendering) : ModuleRendering :=
  let aggregates := (state.files.filter (·.aggregate)).length
  let detail :=
    Decimal.writtenInt (state.files.length - aggregates : Nat) ++ " entity file(s), " ++
      Decimal.writtenInt aggregates ++ " aggregate(s)"
  { state with
    report := state.report.addStep .render state.report.skippedEntities.isEmpty detail }

/-- Render the files of descriptors and the aggregates of their module. -/
def run (plan : RenderPlan) (module : String) (ledger : Ledger) (report : Report)
    (descriptors : List Descriptor) : ModuleRendering :=
  let start : ModuleRendering := { ledger, report }
  let rendered :=
    descriptors.foldl (fun state descriptor =>
      if state.stopped.isSome then state else plan.addEntity state descriptor) start
  let complete := if rendered.stopped.isSome then rendered else plan.addAggregates module rendered
  if complete.stopped.isSome then complete else close complete

end RenderPlan

end Scaffold
