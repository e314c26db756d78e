import Scaffold.Proofs.Run.Rekeying
import Scaffold.Run.Generate

/-!
# What a run comes to

A run either leaves the tree as it is, or exports the files of a preparation: of a registry, of the
descriptors that compile, of a ledger, and of keys.  A run that is not stopped and exports nothing
finds no preparation with any sequence of keys.
-/

namespace Scaffold

open Scaffold.Disk (DiskError Path Tree)

/-- What a run is to generate. -/
structure Request where
  config : Config
  clean : Bool
  selection : Option Selection
  definition : ModuleDefinition

namespace Request

/-- The name of the module. -/
def module (request : Request) : String :=
  request.definition.studlyName

/-- The folder of the module. -/
def folder (request : Request) : Path :=
  request.config.moduleFolder request.module

/-- The plan of a rendering from a tree with given keys. -/
def plan (request : Request) (tree : Tree) (keys : Keyed String) : RenderPlan :=
  ⟨request.config, request.config.shelf request.clean tree, keys, request.selection⟩

/-- The outcome of compiling the components with a registry. -/
def compilation (request : Request) (registry : Registry) : ModuleCompilation :=
  request.definition.compile registry request.config.strictReferences
    (request.selection.map Keyed.keys)

end Request

/-- What the files of a run are made from. -/
structure Preparation where
  registry : Registry
  descriptors : List Descriptor
  loaded : Ledger
  keys : Keyed String
  rendering : ModuleRendering

/-- A run of a request on a tree comes to a preparation. -/
structure Prepares (request : Request) (tree : Tree) (sequence : Migration.Sequence)
    (preparation : Preparation) : Prop where
  zeroFree : Tree.hasZero request.folder = false
  reviewed : Review.errors (request.definition.review (some request.config) false) = []
  discovered :
    Registry.discover request.config tree request.module request.definition.entities =
      .ok preparation.registry
  running : (request.compilation preparation.registry).stopped = none
  compiled : (request.compilation preparation.registry).descriptors = preparation.descriptors
  nonempty : preparation.descriptors ≠ []
  loaded :
    (Ledger.ofModule request.module).load tree request.folder = (preparation.loaded, none)
  assigned :
    (assignKeys tree request.folder sequence request.selection preparation.descriptors).1 =
      .ok preparation.keys
  renders :
    RenderPlan.Renders (request.plan tree preparation.keys) request.module
      preparation.descriptors preparation.loaded preparation.rendering
  files : preparation.rendering.files ≠ []

/-- Nothing of a preparation was skipped. -/
structure Preparation.IsComplete (preparation : Preparation) (request : Request) (tree : Tree) :
    Prop where
  compiled : (request.compilation preparation.registry).failures = []
  rendered : ∀ descriptor ∈ preparation.descriptors,
    ((request.plan tree preparation.keys).filesOf descriptor).isOk = true
  aggregates :
    ((request.plan tree preparation.keys).aggregatesOf request.module
      preparation.rendering.ledger).isOk = true

namespace Run

variable {generator : Generator} {request : Request}

/-- A run has left the tree as it was, and has been stopped or has failed. -/
structure Fails (before after : Run) : Prop where
  tree : after.tree = before.tree
  failed : after.stopped ≠ none ∨ after.report.success = false
  manifest : after.report.manifest = before.report.manifest

theorem success_eq_false_of_fail (run : Run) (message : String) :
    (run.fail message).report.success = false := by
  simp [fail, mapReport, Report.addGenerationError, Report.success]

/-- The keys of two sequences lead to files or do not. -/
theorem files_eq_nil_of_renders
    {tree : Tree} {first second : Migration.Sequence} {descriptors : List Descriptor}
    {firstKeys secondKeys : Keyed String} {ledger : Ledger} {rendering other : ModuleRendering}
    (firstAssigned :
      (assignKeys tree request.folder first request.selection descriptors).1 = .ok firstKeys)
    (secondAssigned :
      (assignKeys tree request.folder second request.selection descriptors).1 = .ok secondKeys)
    (renders : RenderPlan.Renders (request.plan tree firstKeys) request.module descriptors ledger
      rendering)
    (rendersOther : RenderPlan.Renders (request.plan tree secondKeys) request.module descriptors
      ledger other)
    (nothing : rendering.files = []) :
    other.files = [] := by
  refine rendersOther.nothing ?_
  have rekeys : RenderPlan.Rekeys (request.plan tree secondKeys) (request.plan tree firstKeys) :=
    ⟨rfl, rfl, fun _ _ => .inl rfl⟩
  refine (rekeys.entityFiles_eq_nil_iff (fun entity => ?_) rendersOther.short).mpr ?_
  · exact (isSome_keys_of_assignKeys secondAssigned entity).trans
      (isSome_keys_of_assignKeys firstAssigned entity).symm
  · by_contra some
    rw [(renders.files some).2, List.append_eq_nil_iff] at nothing
    exact some nothing.1

/-- What a run exports: the files of a rendering, and the ledger that goes with them. -/
structure Exports (generator : Generator) (request : Request) (rendering : ModuleRendering)
    (before middle after : Run) : Prop where
  tree : middle.tree = before.tree
  running : middle.stopped = none
  manifest : middle.report.manifest = before.report.manifest
  exported : after =
    middle.exportFiles generator request.config request.folder rendering.ledger rendering.files

/-- A run after a rendering. -/
def rendered (run : Run) (sequence : Migration.Sequence) (rendering : ModuleRendering) : Run :=
  { run with sequence, report := rendering.report, stopped := rendering.stopped }.addLogs
    rendering.logs

theorem renderAndExport_of_assigned
    (generator : Generator) {run : Run} {ledger : Ledger} {descriptors : List Descriptor}
    {keys : Keyed String} {sequence : Migration.Sequence}
    (assigned : assignKeys run.tree request.folder run.sequence request.selection descriptors =
      (.ok keys, sequence)) :
    run.renderAndExport generator request.config request.clean request.selection request.folder
        request.module ledger descriptors =
      let rendering :=
        (request.plan run.tree keys).run request.module ledger run.report descriptors
      if rendering.stopped.isSome then run.rendered sequence rendering
      else if rendering.files.isEmpty then
        (run.rendered sequence rendering).fail "No files were generated — aborting export."
      else
        (run.rendered sequence rendering).exportFiles generator request.config request.folder
          rendering.ledger rendering.files := by
  rw [renderAndExport, assigned]
  rfl

/-- Rendering is stopped or fails, or its files are exported. -/
theorem renderAndExport_spec
    (generator : Generator) (request : Request) (run : Run) (ledger : Ledger)
    (descriptors : List Descriptor) {after : Run}
    (comes : after = run.renderAndExport generator request.config request.clean request.selection
      request.folder request.module ledger descriptors) :
    (Fails run after ∧ (after.stopped = none → ∀ sequence keys rendering,
      (assignKeys run.tree request.folder sequence request.selection descriptors).1 = .ok keys →
      RenderPlan.Renders (request.plan run.tree keys) request.module descriptors ledger
        rendering →
      rendering.files = [])) ∨
    ∃ keys rendering middle,
      (assignKeys run.tree request.folder run.sequence request.selection descriptors).1 =
        .ok keys ∧
      RenderPlan.Renders (request.plan run.tree keys) request.module descriptors ledger
        rendering ∧
      rendering.files ≠ [] ∧ Exports generator request rendering run middle after ∧
      (middle.report.generationErrors = [] →
        run.report.generationErrors = [] ∧
        (∀ descriptor ∈ descriptors,
          ((request.plan run.tree keys).filesOf descriptor).isOk = true) ∧
        ((request.plan run.tree keys).aggregatesOf request.module rendering.ledger).isOk =
          true) := by
  cases assigned : assignKeys run.tree request.folder run.sequence request.selection descriptors with
  | mk answer sequence =>
  cases answer with
  | error error =>
      have stopped : after = { run with sequence }.stop error := by
        rw [comes, renderAndExport, assigned]
      subst stopped
      exact .inl ⟨⟨rfl, .inl (by simp [stop]), rfl⟩, fun running => by simp [stop] at running⟩
  | ok keys =>
      rw [renderAndExport_of_assigned generator assigned] at comes
      have spec := @RenderPlan.run_spec (request.plan run.tree keys) request.module ledger
        run.report descriptors
      have unlisted := RenderPlan.manifest_run (request.plan run.tree keys) request.module ledger
        run.report descriptors
      generalize (request.plan run.tree keys).run request.module ledger run.report descriptors =
        rendering at comes spec unlisted
      dsimp only at comes
      cases stopped : rendering.stopped with
      | some error =>
          rw [if_pos (by simp [stopped])] at comes
          subst comes
          refine .inl ⟨⟨rfl, .inl ?_, unlisted⟩, fun running => ?_⟩
          · simp [rendered, addLogs, stopped]
          · simp [rendered, addLogs, stopped] at running
      | none =>
          obtain ⟨renders, clean⟩ := spec stopped
          rw [if_neg (by simp [stopped])] at comes
          by_cases nothing : rendering.files = []
          · rw [if_pos (by simp [nothing])] at comes
            subst comes
            refine .inl ⟨⟨rfl, .inr (success_eq_false_of_fail _ _), unlisted⟩, ?_⟩
            intro _ other otherKeys otherRendering otherAssigned otherRenders
            exact files_eq_nil_of_renders (by rw [assigned]) otherAssigned renders otherRenders
              nothing
          · rw [if_neg (by simpa using nothing)] at comes
            refine .inr ⟨keys, rendering, run.rendered sequence rendering, rfl, renders, nothing,
              ⟨rfl, stopped, unlisted, comes⟩, fun noErrors => ?_⟩
            obtain ⟨before, each, aggregates⟩ := clean noErrors
            rw [renders.ledger]
            exact ⟨before, each, aggregates fun none => nothing (renders.nothing none)⟩

/-- Skipping entities changes the errors of the generation only. -/
theorem skipEntities_spec (failures : Keyed Violation) (report : Report) :
    (failures.foldl (fun report (entity, violation) =>
        report.skipEntity entity violation.message) report).manifest = report.manifest ∧
      (failures.foldl (fun report (entity, violation) =>
        report.skipEntity entity violation.message) report).generationErrors =
          report.generationErrors ++ failures.map (·.2.message) := by
  induction failures generalizing report with
  | nil => exact ⟨rfl, (List.append_nil _).symm⟩
  | cons failure rest hypothesis =>
      obtain ⟨manifest, errors⟩ := hypothesis (report.skipEntity failure.1 failure.2.message)
      exact ⟨manifest, errors.trans (List.append_assoc ..)⟩

theorem addCompilation_spec (compilation : ModuleCompilation) (run : Run) :
    (run.addCompilation compilation).tree = run.tree ∧
      (run.addCompilation compilation).sequence = run.sequence ∧
      (run.addCompilation compilation).stopped = run.stopped ∧
      (run.addCompilation compilation).report.manifest = run.report.manifest ∧
      ((run.addCompilation compilation).report.generationErrors = [] →
        compilation.failures = []) := by
  refine ⟨rfl, rfl, rfl, (skipEntities_spec _ _).1, fun clean => ?_⟩
  rw [addCompilation] at clean
  simp only [Report.addStep] at clean
  rw [(skipEntities_spec _ _).2, List.append_eq_nil_iff, List.map_eq_nil_iff] at clean
  exact clean.2

/-- What a run does from the discovery of entities on. -/
inductive Comes (generator : Generator) (request : Request) (before after : Run) : Prop where
  /-- The run is stopped or fails; if it goes on to its end, there was nothing to export. -/
  | fails (failed : Fails before after)
      (nothing : after.stopped = none → ∀ sequence preparation,
        ¬ Prepares request before.tree sequence preparation)
  | exports (preparation : Preparation) (middle : Run)
      (prepares : Prepares request before.tree before.sequence preparation)
      (exports : Exports generator request preparation.rendering before middle after)
      (complete : middle.report.generationErrors = [] →
        preparation.IsComplete request before.tree)

/-- What a run comes to depends on its tree, its sequence and its manifest only. -/
theorem Comes.of_eq
    {first second after : Run} (comes : Comes generator request first after)
    (tree : first.tree = second.tree) (sequence : first.sequence = second.sequence)
    (manifest : first.report.manifest = second.report.manifest) :
    Comes generator request second after := by
  cases comes with
  | fails failed nothing =>
      exact .fails ⟨failed.tree.trans tree, failed.failed, failed.manifest.trans manifest⟩
        (tree ▸ nothing)
  | exports preparation middle prepares exports complete =>
      exact .exports preparation middle (tree ▸ sequence ▸ prepares)
        ⟨exports.tree.trans tree, exports.running, exports.manifest.trans manifest,
          exports.exported⟩ (tree ▸ complete)

/-- A run whose definition has no errors fails or exports the files of a preparation. -/
theorem compileAndGenerate_spec
    (generator : Generator) (request : Request) (run : Run)
    (zeroFree : Tree.hasZero request.folder = false)
    (reviewed : Review.errors (request.definition.review (some request.config) false) = []) :
    Comes generator request run (run.compileAndGenerate generator request.config request.clean
      request.selection request.definition) := by
  rw [compileAndGenerate]
  dsimp only
  cases discovered : Registry.discover request.config run.tree request.definition.studlyName
    request.definition.entities with
  | error error => exact .fails ⟨rfl, .inl (by simp [stop]), rfl⟩ fun running => by simp [stop] at running
  | ok registry =>
      dsimp only
      have compiles : request.definition.compile registry request.config.strictReferences
          (request.selection.map Keyed.keys) = request.compilation registry := rfl
      rw [compiles]
      cases stopped : (request.compilation registry).stopped with
      | some error =>
          exact .fails ⟨rfl, .inl (by simp [stop]), rfl⟩ fun running => by simp [stop] at running
      | none =>
          dsimp only
          have same {sequence : Migration.Sequence} {preparation : Preparation}
              (prepares : Prepares request run.tree sequence preparation) :
              preparation.descriptors = (request.compilation registry).descriptors := by
            have again := prepares.discovered
            rw [Request.module, discovered] at again
            rw [← prepares.compiled, Except.ok.inj again]
          obtain ⟨tree, sequence, _, manifest, failures⟩ := addCompilation_spec
            (request.compilation registry) (run.addLogs (request.compilation registry).logs)
          have unlisted : ((run.addLogs (request.compilation registry).logs).addCompilation
              (request.compilation registry)).report.manifest = run.report.manifest := manifest
          split_ifs with none
          · refine .fails ⟨rfl, .inr (success_eq_false_of_fail _ _), unlisted⟩ fun _ _ _ prepares => ?_
            exact prepares.nonempty ((same prepares).trans (List.isEmpty_iff.mp none))
          · cases loaded : (Ledger.ofModule request.definition.studlyName).load run.tree
              (request.config.moduleFolder request.definition.studlyName) with
            | mk ledger answer =>
            cases answer with
            | some error =>
                have unloaded {sequence : Migration.Sequence} {preparation : Preparation} :
                    ¬ Prepares request run.tree sequence preparation := by
                  intro prepares
                  have again := prepares.loaded
                  rw [Request.module, Request.folder, Request.module, loaded] at again
                  cases again
                cases error with
                | disk error =>
                    exact .fails ⟨rfl, .inl (by simp [stop]), unlisted⟩ fun _ _ _ => unloaded
                | numberTooLong error =>
                    exact .fails ⟨rfl, .inl (by simp [stop]), unlisted⟩ fun _ _ _ => unloaded
                | notJson _ | notObject _ | notTexts _ _ =>
                    exact .fails ⟨rfl, .inr (success_eq_false_of_fail _ _), unlisted⟩ fun _ _ _ => unloaded
            | none =>
                dsimp only
                -- the outcome stays a variable, or its fields are computed
                have spec := renderAndExport_spec generator request
                  ((run.addLogs (request.compilation registry).logs).addCompilation
                    (request.compilation registry)) ledger
                  (request.compilation registry).descriptors rfl
                rw [Request.folder, Request.module] at spec
                generalize Run.renderAndExport _ _ _ _ _ _ _ _ _ = after at spec ⊢
                rcases spec with ⟨failed, nothing⟩ |
                  ⟨keys, rendering, middle, assigned, renders, some, exports, clean⟩
                · refine .fails ⟨failed.tree, failed.failed, failed.manifest.trans unlisted⟩
                    fun running other preparation prepares => ?_
                  have ledgerSame : ledger = preparation.loaded := congrArg Prod.fst
                    (loaded.symm.trans prepares.loaded)
                  refine prepares.files
                    (nothing running other preparation.keys preparation.rendering ?_ ?_)
                  · rw [← same prepares]
                    exact prepares.assigned
                  · rw [← same prepares, ledgerSame]
                    exact prepares.renders
                · refine .exports
                    ⟨registry, (request.compilation registry).descriptors, ledger, keys, rendering⟩
                    middle
                    ⟨zeroFree, reviewed, discovered, stopped, rfl, ?_, loaded, assigned, renders,
                      some⟩
                    ⟨exports.tree, exports.running, exports.manifest.trans unlisted, exports.exported⟩
                    fun noErrors => ?_
                  · simpa using none
                  · obtain ⟨before, each, aggregates⟩ := clean noErrors
                    exact ⟨failures before, each, aggregates⟩

theorem review_spec (config : Config) (definition : ModuleDefinition) (run : Run) :
    (run.review config definition).tree = run.tree ∧
      (run.review config definition).sequence = run.sequence ∧
      (run.review config definition).report.manifest = run.report.manifest ∧
      (run.review config definition).report.validationErrors =
        run.report.validationErrors ++
          (Review.errors (definition.review (some config) false)).map (·.describe) :=
  ⟨rfl, rfl, rfl, rfl⟩

/-- A run that neither is stopped at its folder nor finds errors goes on to compile. -/
theorem generate_spec
    (generator : Generator) (request : Request) (run : Run)
    (unreviewed : run.report.validationErrors = []) :
    Comes generator request run (run.generate generator request.config request.clean
      request.selection request.definition) := by
  rw [generate]
  dsimp only
  split_ifs with zero failed
  · exact .fails ⟨rfl, .inl (by simp [stop]), rfl⟩ fun running => by simp [stop] at running
  all_goals
    obtain ⟨tree, sequence, manifest, errors⟩ := review_spec request.config request.definition
      (run.mapReport fun report =>
        { report with
          module := request.definition.studlyName
          folder := (run.tree.absolutePath
            (request.config.moduleFolder request.definition.studlyName)).text })
    generalize (run.mapReport _).review request.config request.definition = reviewed at *
    have noneBefore : (run.mapReport fun report =>
        { report with
          module := request.definition.studlyName
          folder := (run.tree.absolutePath
            (request.config.moduleFolder request.definition.studlyName)).text
        }).report.validationErrors = [] :=
      unreviewed
    rw [noneBefore, List.nil_append] at errors
  · refine .fails ⟨tree, .inr ?_, manifest⟩ fun _ _ _ prepares => ?_
    · simp only [Bool.not_eq_true', List.isEmpty_eq_false_iff] at failed
      simp [Report.success, failed]
    · simp [errors, prepares.reviewed] at failed
  · have accepted : Review.errors (request.definition.review (some request.config) false) = [] := by
      simpa [errors] using failed
    refine (compileAndGenerate_spec generator request reviewed ?_ accepted).of_eq tree sequence manifest
    simpa [Request.folder, Request.module] using zero

end Run

end Scaffold
