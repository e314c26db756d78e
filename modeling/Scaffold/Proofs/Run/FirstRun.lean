import Scaffold.Proofs.Module.Isolation
import Scaffold.Proofs.Run.Bundles
import Scaffold.Proofs.Run.Layers

/-!
# The first run for a module

A run for a module that has no files yet comes to a rendering unless a path cannot be looked up or
no migration key is left.  When every component compiles, each of them has its bundle and no file
takes the place of another one, exactly if no two components share a table and none has the name of
the seeder of the module.
-/

namespace Scaffold

open Scaffold.Disk (DiskError Path Tree)

/-! ## What is compiled -/

theorem Component.map_compile_of_isOk
    {registry : Registry} {strict : Bool} {components : List Component}
    (compiles : ∀ component ∈ components, (component.compile registry strict).isOk = true) :
    (components.filterMap fun component => (component.compile registry strict).toOption).map
        (fun descriptor => (descriptor.entity, descriptor.table)) =
      components.map fun component => (component.entity, component.table) := by
  induction components with
  | nil => rfl
  | cons component rest hypothesis =>
      obtain ⟨first, others⟩ := List.forall_mem_cons.mp compiles
      cases compiled : component.compile registry strict with
      | error error =>
          rw [compiled] at first
          cases first
      | ok descriptor =>
          obtain ⟨entity, table⟩ := Component.compile_spec compiled
          rw [List.filterMap_cons, compiled, List.map_cons, ← hypothesis others, ← entity, ← table]
          rfl

namespace ModuleDefinition

variable {definition : ModuleDefinition}

/-- A review of the records as well reports no fewer errors. -/
theorem errors_review_eq_nil
    {config : Option Config} {withRecords : Bool}
    (reviewed : Review.errors (definition.review config withRecords) = []) :
    Review.errors (definition.review config false) = [] := by
  rw [review, Review.errors_append, Review.errors_append, Review.errors_append,
    List.append_eq_nil_iff, List.append_eq_nil_iff, List.append_eq_nil_iff] at reviewed ⊢
  obtain ⟨⟨names, _⟩, references⟩ := reviewed
  exact ⟨⟨names, rfl⟩, references⟩

theorem components_ne_nil
    {config : Option Config} {withRecords : Bool}
    (reviewed : Review.errors (definition.review config withRecords) = []) :
    definition.components ≠ [] := by
  intro none
  rw [review, Review.errors_append, Review.errors_append, Review.errors_append,
    List.append_eq_nil_iff, List.append_eq_nil_iff, List.append_eq_nil_iff] at reviewed
  have names := reviewed.1.1.2
  simp [reviewNames, none, Review.errors] at names

/-- All components of a definition compile with what is discovered in a tree. -/
def CompilesIn (definition : ModuleDefinition) (config : Config) (tree : Tree) : Prop :=
  ∀ registry,
    Registry.discover config tree definition.studlyName definition.entities = .ok registry →
      ∀ component ∈ definition.components,
        (component.compile (definition.register registry) config.strictReferences).isOk = true

/-- Components that all compile become descriptors of their entities and tables, in order. -/
theorem compile_of_isOk
    (distinct : definition.entities.Nodup) {registry : Registry} {strict : Bool}
    (compiles : ∀ component ∈ definition.components,
      (component.compile (definition.register registry) strict).isOk = true) :
    (definition.compile registry strict none).stopped = none ∧
      (definition.compile registry strict none).descriptors.map
          (fun descriptor => (descriptor.entity, descriptor.table)) =
        definition.components.map fun component => (component.entity, component.table) := by
  have fits : ∀ component ∈ definition.components,
      ¬ component.Overflows (definition.register registry) := by
    intro component member overflows
    have compiled := compiles component member
    rw [(@Component.compile_eq_factory_iff _ strict component .numberTooLarge).mpr overflows]
      at compiled
    cases compiled
  have outcomes := (@ModuleCompilation.addAll_outcomes strict
    { registry := definition.register registry } rfl definition.components fits
    (by simpa [Keyed.keys, entities] using distinct)).1
  rw [compile_eq]
  refine ⟨(ModuleCompilation.stopped_addAll_iff rfl _).mpr fits, ?_⟩
  rw [outcomes, List.nil_append]
  exact Component.map_compile_of_isOk compiles

end ModuleDefinition

/-! ## A module without files -/

/-- Gathering a ledger fails only when a path cannot be looked up. -/
theorem Ledger.gatherAll_spec (tree : Tree) (folder : Path) (ledger : Ledger) :
    (∃ other error, ledger.gatherAll tree folder = (other, some (.disk error))) ∨
      ∃ other, ledger.gatherAll tree folder = (other, none) := by
  rw [gatherAll]
  cases gather tree (folder.child "Models") ".php" [] .entities ledger with
  | error error => exact .inl ⟨_, _, rfl⟩
  | ok entities =>
      dsimp only
      cases gather tree (folder.child "Database/Seeders") "Seeder.php"
          [ledger.module ++ "DatabaseSeeder"] .seeders entities with
      | error error => exact .inl ⟨_, _, rfl⟩
      | ok complete => exact .inr ⟨_, rfl⟩

namespace Disk.Tree.IsBare

variable {tree : Tree} {folder : Path}

/-- On a bare module a ledger is loaded unless a path cannot be looked up. -/
theorem load (bare : tree.IsBare folder) (ledger : Ledger) :
    (∃ other error, ledger.load tree folder = (other, some (.disk error))) ∨
      ∃ other, ledger.load tree folder = (other, none) := by
  rw [Ledger.load]
  cases isFile : tree.isFile (Ledger.file folder) with
  | error error => exact .inl ⟨_, _, rfl⟩
  | ok found =>
      cases found with
      | true => exact absurd isFile bare.isFile_ledger
      | false =>
          cases tree.isFolder folder with
          | error error => exact .inl ⟨_, _, rfl⟩
          | ok isFolder =>
              cases isFolder with
              | false => exact .inr ⟨_, rfl⟩
              | true => exact Ledger.gatherAll_spec tree folder ledger

theorem keysIn
    (bare : tree.IsBare folder) {existing : Keyed String}
    (onDisk : keysIn tree (migrationsFolder folder) = .ok existing) : existing = [] := by
  have absent : tree.isFolder (migrationsFolder folder) ≠ .ok true := by
    intro isFolder
    obtain ⟨place, located, kind⟩ := Tree.isFolder_eq_true_iff.mp isFolder
    rw [Tree.locate_eq_resolve located, resolve_migrationsFolder, bare _ (by simp)] at kind
    cases kind
  rw [Scaffold.keysIn] at onDisk
  cases isFolder : tree.isFolder (migrationsFolder folder) with
  | error error =>
      rw [isFolder] at onDisk
      cases onDisk
  | ok found =>
      rw [isFolder] at onDisk
      cases found with
      | true => exact absurd isFolder absent
      | false => exact (Except.ok.inj onDisk).symm

end Disk.Tree.IsBare

/-! ## What ends a run before it renders -/

/-- A sequence whose keys and clock are before the year 9999. -/
structure Migration.Sequence.IsFresh (sequence : Migration.Sequence) (module : String) : Prop where
  sound : sequence.IsSound
  clock : KeyAssignment.ClockIsEarly sequence.clock
  last : sequence.IsEarly module

/-- Without earlier migrations every key is a new one. -/
theorem assignKeys_of_keysIn_nil
    {tree : Tree} {folder : Path} (onDisk : keysIn tree (migrationsFolder folder) = .ok [])
    (sequence : Migration.Sequence) (descriptors : List Descriptor) :
    assignKeys tree folder sequence none descriptors =
      let assignment := KeyAssignment.addAll (tree.absolutePath folder).text [] { sequence }
        (wantedDescriptors none descriptors)
      if assignment.exhausted then (.error .noKeyLeft, assignment.sequence)
      else (.ok assignment.keys, assignment.sequence) := by
  rw [assignKeys, onDisk]
  rfl

/-- On a bare module keys run out only after those of the year 9999. -/
theorem Disk.Tree.IsBare.assignKeys
    {tree : Tree} {folder : Path} (bare : tree.IsBare folder) (sequence : Migration.Sequence)
    (descriptors : List Descriptor) :
    (∃ error moved, assignKeys tree folder sequence none descriptors =
        (.error (.disk error), moved)) ∨
      (∃ moved, assignKeys tree folder sequence none descriptors = (.error .noKeyLeft, moved) ∧
        (sequence.IsFresh (tree.absolutePath folder).text →
          Migration.keysOfLastYear < descriptors.length)) ∨
      ∃ keys moved, assignKeys tree folder sequence none descriptors = (.ok keys, moved) := by
  cases onDisk : Scaffold.keysIn tree (migrationsFolder folder) with
  | error error =>
      left
      refine ⟨error, sequence, ?_⟩
      rw [Scaffold.assignKeys, onDisk]
  | ok existing =>
      right
      obtain rfl := bare.keysIn onDisk
      rw [assignKeys_of_keysIn_nil onDisk]
      dsimp only
      split_ifs with exhausted
      · left
        refine ⟨_, rfl, ?_⟩
        intro fresh
        have many := KeyAssignment.addAll_exhausted (tree.absolutePath folder).text []
          { sequence } _ fresh.sound fresh.clock rfl exhausted
        have untaken : (Keyed.get? sequence.last (tree.absolutePath folder).text).elim 0
            Migration.Key.taken = 0 := by
          cases known : Keyed.get? sequence.last (tree.absolutePath folder).text with
          | none => rfl
          | some key => exact Migration.Key.taken_eq_zero (fresh.last key known)
        have wanted : (wantedDescriptors none descriptors).length ≤ descriptors.length := by
          have nodup : (wantedDescriptors none descriptors).Nodup :=
            .of_map _ (wantedDescriptors_distinct none descriptors)
          exact nodup.length_le_of_subset (wantedDescriptors_subset none descriptors)
        rw [untaken, Nat.zero_add] at many
        exact many.trans_le ((List.length_filter_le _ _).trans wanted)
      · right
        exact ⟨_, _, rfl⟩

/-! ## The stages of a run -/

namespace Run

/-- A later run has the tree, the sequence and the manifest of an earlier one. -/
structure GoesOn (before after : Run) : Prop where
  tree : after.tree = before.tree
  sequence : after.sequence = before.sequence
  manifest : after.report.manifest = before.report.manifest

variable {request : Request}

theorem generate_of_reviewed
    (generator : Generator) {run : Run} (zeroFree : Tree.hasZero request.folder = false)
    (reviewed : Review.errors (request.definition.review (some request.config) false) = [])
    (unreviewed : run.report.validationErrors = []) :
    ∃ located : Run, run.GoesOn located ∧
      run.generate generator request.config request.clean request.selection request.definition =
        located.compileAndGenerate generator request.config request.clean request.selection
          request.definition := by
  have noZero : Tree.hasZero
      (request.config.moduleFolder request.definition.studlyName) = false := zeroFree
  rw [generate]
  dsimp only
  rw [if_neg (by simp [noZero])]
  obtain ⟨tree, sequence, manifest, errors⟩ := review_spec request.config request.definition
    (run.mapReport fun report =>
      { report with
        module := request.definition.studlyName
        folder := (run.tree.absolutePath
          (request.config.moduleFolder request.definition.studlyName)).text })
  -- the reviewed run stays a variable, or its fields are computed
  generalize (run.mapReport _).review request.config request.definition = located at *
  refine ⟨located, ⟨tree, sequence, manifest⟩, if_neg ?_⟩
  rw [reviewed, List.map_nil, List.append_nil] at errors
  rw [errors]
  simp [mapReport, unreviewed]

/-- A run whose components compile goes on to the keys, unless its ledger cannot be loaded. -/
theorem compileAndGenerate_of_compiled
    (generator : Generator) {run : Run} {registry : Registry}
    (discovered : Registry.discover request.config run.tree request.module
      request.definition.entities = .ok registry)
    (running : (request.compilation registry).stopped = none)
    (nonempty : (request.compilation registry).descriptors ≠ []) :
    ∃ compiled : Run, run.GoesOn compiled ∧
      ∀ ledger, ((Ledger.ofModule request.module).load run.tree request.folder = (ledger, none) →
          run.compileAndGenerate generator request.config request.clean request.selection
              request.definition =
            compiled.renderAndExport generator request.config request.clean request.selection
              request.folder request.module ledger (request.compilation registry).descriptors) ∧
        ∀ error, (Ledger.ofModule request.module).load run.tree request.folder =
            (ledger, some (.disk error)) →
          run.compileAndGenerate generator request.config request.clean request.selection
              request.definition = compiled.stop (.disk error) := by
  have compilation : request.definition.compile registry request.config.strictReferences
      (request.selection.map Keyed.keys) = request.compilation registry := rfl
  have some : (request.compilation registry).descriptors.isEmpty ≠ true := by
    rwa [Ne, List.isEmpty_iff]
  rw [Request.module] at discovered
  rw [compileAndGenerate]
  dsimp only
  rw [discovered]
  dsimp only
  rw [compilation, running]
  dsimp only
  rw [if_neg some]
  refine ⟨(run.addLogs (request.compilation registry).logs).addCompilation
    (request.compilation registry), ?_, ?_⟩
  · obtain ⟨tree, sequence, _, manifest, _⟩ := addCompilation_spec
      (request.compilation registry) (run.addLogs (request.compilation registry).logs)
    exact ⟨tree, sequence, manifest⟩
  · intro ledger
    rw [Request.folder, Request.module]
    constructor
    · intro loaded
      rw [loaded]
    · intro error failed
      rw [failed]

/-- A run ends before it renders: a path cannot be looked up, or there is no key left. -/
def EndsEarly (place : String) (count : Nat) (before after : Run) : Prop :=
  after.tree = before.tree ∧
    ((∃ error, after.stopped = some (.disk error)) ∨
      after.stopped = some .noKeyLeft ∧
        (before.sequence.IsFresh place → Migration.keysOfLastYear < count))

theorem GoesOn.endsEarly
    {place : String} {count : Nat} {before middle after : Run} (goesOn : before.GoesOn middle)
    (ends : EndsEarly place count middle after) : EndsEarly place count before after := by
  obtain ⟨tree, stopped⟩ := ends
  rw [goesOn.sequence] at stopped
  exact ⟨tree.trans goesOn.tree, stopped⟩

theorem GoesOn.exports
    {generator : Generator} {rendering : ModuleRendering} {before middle run after : Run}
    (goesOn : before.GoesOn middle)
    (exports : Exports generator request rendering middle run after) :
    Exports generator request rendering before run after :=
  ⟨exports.tree.trans goesOn.tree, exports.running, exports.manifest.trans goesOn.manifest,
    exports.exported⟩

/-- The plan of a rendering whose keys were assigned renders whole entities. -/
theorem isWhole_plan
    (whole : request.selection = none) (builtin : request.config.UsesBuiltinStubs) {tree : Tree}
    (sound : tree.IsSound) {sequence : Migration.Sequence} {descriptors : List Descriptor}
    {keys : Keyed String}
    (assigned : (assignKeys tree request.folder sequence none descriptors).1 = .ok keys) :
    (request.plan tree keys).IsWhole where
  whole := whole
  loads := builtin.load_shelf request.clean tree
  keyed _ _ given := isKeyCharacter_of_assignKeys sound assigned given

/-- Descriptors of a bare module are rendered and exported once they have keys. -/
theorem renderAndExport_of_isBare
    (generator : Generator) (whole : request.selection = none)
    (builtin : request.config.UsesBuiltinStubs) {run : Run} (sound : run.tree.IsSound)
    (bare : run.tree.IsBare request.folder) {descriptors : List Descriptor}
    (some : descriptors ≠ []) (named : ∀ descriptor ∈ descriptors, descriptor.IsNamed)
    (ledger : Ledger) {after : Run}
    (comes : after = run.renderAndExport generator request.config request.clean request.selection
      request.folder request.module ledger descriptors) :
    EndsEarly (run.tree.absolutePath request.folder).text descriptors.length run after ∨
      ∃ keys rendering middle,
        (assignKeys run.tree request.folder run.sequence request.selection descriptors).1 =
          .ok keys ∧
        RenderPlan.Renders (request.plan run.tree keys) request.module descriptors ledger
          rendering ∧
        rendering.files ≠ [] ∧ Exports generator request rendering run middle after := by
  have keyless {error : RunError} {moved : Migration.Sequence}
      (failed : assignKeys run.tree request.folder run.sequence none descriptors =
        (.error error, moved)) :
      after = { run with sequence := moved }.stop error := by
    rw [comes, renderAndExport, whole, failed]
  rcases bare.assignKeys run.sequence descriptors with
    ⟨error, moved, failed⟩ | ⟨moved, failed, many⟩ | ⟨keys, moved, assigned⟩
  · left
    rw [keyless failed]
    exact ⟨rfl, .inl ⟨error, rfl⟩⟩
  · left
    rw [keyless failed]
    exact ⟨rfl, .inr ⟨rfl, many⟩⟩
  · right
    have given : (assignKeys run.tree request.folder run.sequence none descriptors).1 = .ok keys :=
      congrArg Prod.fst assigned
    have isWhole := isWhole_plan whole builtin sound given
    rw [← whole] at assigned
    rw [renderAndExport_of_assigned generator assigned] at comes
    have running := isWhole.stopped_run named request.module ledger run.report
    have renders := (RenderPlan.run_spec running).1
    have unlisted := RenderPlan.manifest_run (request.plan run.tree keys) request.module ledger
      run.report descriptors
    generalize (request.plan run.tree keys).run request.module ledger run.report descriptors =
      rendering at *
    have nonempty : rendering.files ≠ [] := by
      obtain ⟨descriptor, member, isGiven⟩ := Migration.exists_isSome_keys some given
      have rendered := isWhole.entityFiles_ne_nil member (named descriptor member) isGiven
      rw [(renders.files rendered).2]
      exact List.append_ne_nil_of_left_ne_nil rendered _
    dsimp only at comes
    rw [if_neg (by simp [running]), if_neg (by simpa using nonempty)] at comes
    refine ⟨keys, rendering, run.rendered moved rendering, ?_, renders, nonempty, ?_⟩
    · rw [assigned]
    · exact ⟨rfl, running, unlisted, comes⟩

/-- On a bare module components that all compile come to files that are exported. -/
theorem compileAndGenerate_of_isBare
    (generator : Generator) (whole : request.selection = none)
    (builtin : request.config.UsesBuiltinStubs) {run : Run} (sound : run.tree.IsSound)
    (bare : run.tree.IsBare request.folder) (zeroFree : Tree.hasZero request.folder = false)
    (reviewed : Review.errors (request.definition.review (some request.config) false) = [])
    (compiles : request.definition.CompilesIn request.config run.tree) {after : Run}
    (comes : after = run.compileAndGenerate generator request.config request.clean
      request.selection request.definition) :
    EndsEarly (run.tree.absolutePath request.folder).text request.definition.components.length
        run after ∨
      ∃ preparation middle, Prepares request run.tree run.sequence preparation ∧
        Exports generator request preparation.rendering run middle after := by
  have isNamed := ModuleDefinition.isNamed_of_review reviewed
  cases discovered : Registry.discover request.config run.tree request.definition.studlyName
      request.definition.entities with
  | error error =>
      have stopped : after = run.stop (.disk error) := by
        rw [comes, compileAndGenerate]
        dsimp only
        rw [discovered]
      left
      rw [stopped]
      exact ⟨rfl, .inl ⟨error, rfl⟩⟩
  | ok registry =>
      have compilation : request.definition.compile registry request.config.strictReferences none =
          request.compilation registry := by
        rw [Request.compilation, whole]
        rfl
      obtain ⟨running, pairs⟩ :=
        ModuleDefinition.compile_of_isOk isNamed.distinct (compiles registry discovered)
      have named := (isNamed.compile registry request.config.strictReferences none).2
      rw [compilation] at running pairs named
      have lengths := congrArg List.length pairs
      rw [List.length_map, List.length_map] at lengths
      have nonempty : (request.compilation registry).descriptors ≠ [] := by
        have some := ModuleDefinition.components_ne_nil reviewed
        rw [← List.length_pos_iff] at some ⊢
        rwa [lengths]
      obtain ⟨compiled, goesOn, continues⟩ :=
        compileAndGenerate_of_compiled generator discovered running nonempty
      rcases bare.load (.ofModule request.module) with ⟨ledger, error, failed⟩ | ⟨ledger, loaded⟩
      · left
        rw [comes, (continues ledger).2 error failed]
        exact ⟨goesOn.tree, .inl ⟨error, rfl⟩⟩
      · rw [(continues ledger).1 loaded] at comes
        rw [← goesOn.tree] at sound bare
        rcases renderAndExport_of_isBare generator whole builtin sound bare nonempty
          (fun descriptor member => (named descriptor member).1) ledger comes with
            ends | ⟨keys, rendering, middle, assigned, renders, files, exports⟩
        · left
          rw [goesOn.tree, lengths] at ends
          exact goesOn.endsEarly ends
        · right
          rw [goesOn.tree, goesOn.sequence] at assigned
          rw [goesOn.tree] at renders
          have prepares : Prepares request run.tree run.sequence
              ⟨registry, (request.compilation registry).descriptors, ledger, keys, rendering⟩ :=
            ⟨zeroFree, reviewed, discovered, running, rfl, nonempty, loaded, assigned, renders,
              files⟩
          exact ⟨_, middle, prepares, goesOn.exports exports⟩

/-- On a bare module a reviewed request comes to a preparation whose files are exported. -/
theorem generate_of_isBare
    (generator : Generator) (whole : request.selection = none)
    (builtin : request.config.UsesBuiltinStubs) {run : Run} (sound : run.tree.IsSound)
    (bare : run.tree.IsBare request.folder) (unreviewed : run.report.validationErrors = [])
    (reviewed : Review.errors (request.definition.review (some request.config) false) = [])
    (compiles : request.definition.CompilesIn request.config run.tree) {after : Run}
    (comes : after = run.generate generator request.config request.clean request.selection
      request.definition) :
    EndsEarly (run.tree.absolutePath request.folder).text request.definition.components.length
        run after ∨
      ∃ preparation middle, Prepares request run.tree run.sequence preparation ∧
        Exports generator request preparation.rendering run middle after := by
  cases zeroFree : Tree.hasZero request.folder with
  | true =>
      have stopped : after = run.stop (.disk .zeroInName) := by
        rw [comes, generate]
        exact if_pos zeroFree
      left
      rw [stopped]
      exact ⟨rfl, .inl ⟨_, rfl⟩⟩
  | false =>
      obtain ⟨located, goesOn, reached⟩ :=
        generate_of_reviewed generator zeroFree reviewed unreviewed
      rw [reached] at comes
      rw [← goesOn.tree] at sound bare compiles ⊢
      rw [← goesOn.sequence]
      rcases compileAndGenerate_of_isBare generator whole builtin sound bare zeroFree reviewed
        compiles comes with ends | ⟨preparation, middle, prepares, exports⟩
      · exact .inl (goesOn.endsEarly ends)
      · exact .inr ⟨preparation, middle, prepares, goesOn.exports exports⟩

end Run

/-! ## Bundles of components -/

/-- Every component has its bundle, and no file takes the place of another one. -/
def ModuleRendering.HasBundles (rendering : ModuleRendering) (config : Config)
    (components : List Component) : Prop :=
  (∀ component ∈ components, rendering.HasBundle config component.entity component.table) ∧
    (rendering.files.map (·.path)).Nodup

/-- No two components share a table, and none has the name of the seeder of the module. -/
def ModuleDefinition.StandsApart (definition : ModuleDefinition) : Prop :=
  (definition.components.map (·.table)).Nodup ∧
    definition.studlyName ++ "Database" ∉ definition.entities

/-- A preparation of components that all compile gives each its bundle if they stand apart. -/
theorem Prepares.hasBundles_iff
    {request : Request} {tree : Tree} {sequence : Migration.Sequence} {preparation : Preparation}
    (prepares : Prepares request tree sequence preparation) (whole : request.selection = none)
    (builtin : request.config.UsesBuiltinStubs) (sound : tree.IsSound)
    (compiles : request.definition.CompilesIn request.config tree) :
    preparation.rendering.HasBundles request.config request.definition.components ↔
      request.definition.StandsApart := by
  have pairs := (ModuleDefinition.compile_of_isOk prepares.isNamed.distinct
    (compiles _ prepares.discovered)).2
  have compiled := prepares.compiled
  rw [Request.compilation, whole] at compiled
  rw [Option.map_none] at compiled
  rw [compiled] at pairs
  have entities : preparation.descriptors.map (·.entity) = request.definition.entities := by
    have firsts := congrArg (List.map Prod.fst) pairs
    rwa [List.map_map, List.map_map] at firsts
  have tables : preparation.descriptors.map (·.table) =
      request.definition.components.map (·.table) := by
    have seconds := congrArg (List.map Prod.snd) pairs
    rwa [List.map_map, List.map_map] at seconds
  have each : (∀ component ∈ request.definition.components,
      preparation.rendering.HasBundle request.config component.entity component.table) ↔
        ∀ descriptor ∈ preparation.descriptors,
          preparation.rendering.HasBundle request.config descriptor.entity descriptor.table := by
    rw [← List.forall_mem_map
      (f := fun component : Component => (component.entity, component.table))
      (P := fun pair => preparation.rendering.HasBundle request.config pair.1 pair.2), ← pairs,
      List.forall_mem_map]
  have assigned := prepares.assigned
  rw [whole] at assigned
  obtain ⟨distinct, named⟩ := prepares.descriptors_named
  obtain ⟨_, _, _, _, characters⟩ := Text.exists_of_isClassName prepares.isNamed.module
  have bundles := (Run.isWhole_plan whole builtin sound assigned).bundles_iff prepares.renders
    characters prepares.nonempty (fun descriptor member => (named descriptor member).1) distinct
    (Migration.isSome_keys_iff distinct assigned)
  rw [Migration.DistinctTables, entities, tables] at bundles
  rw [ModuleRendering.HasBundles, each]
  exact bundles

/-- A definition is generated when its module is not there or may be added to. -/
theorem Generator.addDefinition_of_admitted
    (generator : Generator) {config : Config} {append : Bool} {definition : ModuleDefinition}
    {run : Run}
    (admitted : append = true ∨ config.hasModule run.tree definition.studlyName ≠ .ok true) :
    (∃ error, generator.addDefinition config append definition run = run.stop (.disk error)) ∨
      generator.addDefinition config append definition run =
        run.generate generator config false none definition := by
  rw [addDefinition]
  dsimp only
  cases there : config.hasModule run.tree definition.studlyName with
  | error error => exact .inl ⟨error, rfl⟩
  | ok isThere =>
      right
      rw [Run.withAnswer]
      apply if_neg
      rcases admitted with rfl | absent
      · simp
      · rw [there] at absent
        simp_all

/--
A run for a module that has no files yet gives every component its bundle, and every file a path of
its own, exactly when no two components share a table and none has the name of the module's seeder.
It comes to its files unless a path cannot be looked up or no migration key is left.
-/
theorem dynamicModule_renders_whole_bundles
    (generator : Generator) {config : Config} (builtin : config.UsesBuiltinStubs)
    {definition : ModuleDefinition} {withRecords : Bool}
    (reviewed : Review.errors (definition.review (some config) withRecords) = []) {tree : Tree}
    (sound : tree.IsSound) (bare : tree.IsBare (config.moduleFolder definition.studlyName))
    (compiles : definition.CompilesIn config tree)
    {append : Bool}
    (admitted : append = true ∨ config.hasModule tree definition.studlyName ≠ .ok true)
    (sequence : Migration.Sequence) {run : Run}
    (ran : run = generator.dynamicModule tree sequence config append definition) :
    Run.EndsEarly (tree.absolutePath (config.moduleFolder definition.studlyName)).text
        definition.components.length
        (generator.start tree sequence (Generator.definitionMode append)) run ∨
      ∃ preparation middle,
        Prepares ⟨config, false, none, definition⟩ tree sequence preparation ∧
        Run.Exports generator ⟨config, false, none, definition⟩ preparation.rendering
          (generator.start tree sequence (Generator.definitionMode append)) middle run ∧
        (preparation.rendering.HasBundles config definition.components ↔
          definition.StandsApart) := by
  have review := ModuleDefinition.errors_review_eq_nil reviewed
  rw [Generator.dynamicModule] at ran
  -- the start stays a variable below, or its fields are computed
  obtain ⟨start, made⟩ : ∃ start, start =
      generator.start tree sequence (Generator.definitionMode append) := ⟨_, rfl⟩
  have sameTree : start.tree = tree := by rw [made, Generator.start]
  have sameSequence : start.sequence = sequence := by rw [made, Generator.start]
  have unreviewed : start.report.validationErrors = [] := by rw [made, Generator.start]
  rw [← made] at ran ⊢
  rw [← sameTree] at sound bare compiles admitted ⊢
  rw [← sameSequence]
  rcases generator.addDefinition_of_admitted admitted with ⟨error, stopped⟩ | generated
  · left
    rw [ran, stopped]
    exact ⟨rfl, .inl ⟨error, rfl⟩⟩
  · rw [generated] at ran
    rcases @Run.generate_of_isBare ⟨config, false, none, definition⟩ generator rfl builtin start
      sound bare unreviewed review compiles run ran with
        ends | ⟨preparation, middle, prepares, exports⟩
    · exact .inl ends
    · right
      exact ⟨preparation, middle, prepares, exports,
        prepares.hasBundles_iff rfl builtin sound compiles⟩

/-! ## Definitions of a blog -/

/-- A run that generates a definition in an empty tree. -/
def defineBlog (definition : ModuleDefinition) : Run :=
  ({ config := briefConfig, time := "" } : Generator).dynamicModule {} (stillSequence 2024)
    briefConfig false definition

/-- A module of two entities with different tables. -/
def blogOfPostsAndTags : ModuleDefinition :=
  ⟨"Blog", [{ name := "Post" }, { name := "Tag" }]⟩

theorem compilesIn_blogOfPostsAndTags : blogOfPostsAndTags.CompilesIn briefConfig {} := by
  intro registry discovered
  have evaluated : (Registry.discover briefConfig {} blogOfPostsAndTags.studlyName
      blogOfPostsAndTags.entities).toOption.map (fun registry =>
        blogOfPostsAndTags.components.all fun component =>
          (component.compile (blogOfPostsAndTags.register registry)
            briefConfig.strictReferences).isOk) = some true := by
    decide
  rw [discovered] at evaluated
  exact List.all_eq_true.mp (Option.some.inj evaluated)

theorem isBare_blog (definition : ModuleDefinition) :
    ({} : Tree).IsBare (briefConfig.moduleFolder definition.studlyName) := by
  intro names some
  simp [Tree.kindAt?, Tree.contentAt?, some]

/-- Posts and tags each have their bundle, and no file takes the place of another one. -/
theorem dynamicModule_renders_whole_bundles_posts :
    ∃ preparation middle,
      Prepares ⟨briefConfig, false, none, blogOfPostsAndTags⟩ {} (stillSequence 2024)
        preparation ∧
      Run.Exports { config := briefConfig, time := "" }
        ⟨briefConfig, false, none, blogOfPostsAndTags⟩ preparation.rendering
        (Generator.start { config := briefConfig, time := "" } {} (stillSequence 2024) .dynamic)
        middle (defineBlog blogOfPostsAndTags) ∧
      preparation.rendering.HasBundles briefConfig blogOfPostsAndTags.components := by
  have running : (defineBlog blogOfPostsAndTags).stopped = none := by
    decide +kernel
  have reviewed : Review.errors (blogOfPostsAndTags.review (some briefConfig) true) = [] := by
    rw [← List.isEmpty_iff]
    decide
  have absent : briefConfig.hasModule {} blogOfPostsAndTags.studlyName ≠ .ok true := by
    have evaluated : (briefConfig.hasModule {} blogOfPostsAndTags.studlyName).toOption =
        some false := by
      decide
    intro there
    rw [there] at evaluated
    cases evaluated
  have apart : blogOfPostsAndTags.StandsApart := by
    unfold ModuleDefinition.StandsApart
    decide
  -- the run stays a variable below: nothing may evaluate it
  obtain ⟨run, ran⟩ : ∃ run, run = defineBlog blogOfPostsAndTags := ⟨_, rfl⟩
  rw [← ran] at running ⊢
  rw [defineBlog] at ran
  rcases dynamicModule_renders_whole_bundles { config := briefConfig, time := "" } (by decide)
    reviewed Tree.isSound_empty (isBare_blog blogOfPostsAndTags) compilesIn_blogOfPostsAndTags
    (.inr absent) (stillSequence 2024) ran with
    ⟨_, stopped⟩ | ⟨preparation, middle, prepares, exports, bundles⟩
  · simp [running] at stopped
  · exact ⟨preparation, middle, prepares, exports, bundles.mpr apart⟩

/-- Two entities of one table. -/
def blogOfOneTable : ModuleDefinition :=
  ⟨"Blog", [{ name := "Post" }, { name := "Posts" }]⟩

/-- An entity with the name of the seeder of the module. -/
def blogOfDatabase : ModuleDefinition :=
  ⟨"Blog", [{ name := "BlogDatabase" }]⟩

/-- A definition passes its review, all of its components compile and a run goes to its end. -/
def Run.Accepts (run : Run) (definition : ModuleDefinition) : Prop :=
  Review.passes (definition.review (some briefConfig) true) = true ∧ run.stopped = none ∧
    run.report.entityCount = definition.components.length

instance (run : Run) (definition : ModuleDefinition) : Decidable (run.Accepts definition) :=
  inferInstanceAs (Decidable (_ ∧ _ ∧ _))

/-- The paths of the files that a run has exported. -/
def Run.exportedPaths (run : Run) : List String :=
  (run.report.manifest.elim [] (·.records)).map (·.path)

/-- Of two entities with one table the second one is lost, and a seeder is overwritten. -/
theorem dynamicModule_loses_files :
    ((defineBlog blogOfOneTable).Accepts blogOfOneTable ∧
        (defineBlog blogOfOneTable).report.generationErrors =
          ["Posts: Posts: a migration key is required"] ∧
        "Models/Posts.php" ∉ (defineBlog blogOfOneTable).exportedPaths) ∧
      (defineBlog blogOfDatabase).Accepts blogOfDatabase ∧
        (defineBlog blogOfDatabase).report.success = true ∧
        ((defineBlog blogOfDatabase).exportedPaths.filter
          (· == "Database/Seeders/BlogDatabaseSeeder.php")).length = 2 := by
  decide +kernel

end Scaffold
