import Scaffold.Proofs.Migration.KeyDates
import Scaffold.Proofs.Run.Idempotence
import Scaffold.Proofs.Run.Tasks

/-!
# Runs that stop at the keys of migrations

The keys of the migrations of a module are observed before anything is rendered.  A run is stopped
there by a key that names no date, and by the want of a key after the last one of all; no other file
of the folder stops a run.
-/

namespace Scaffold

open Scaffold.Disk (Path Tree)
open Scaffold.Migration

/-! ## Errors of keys -/

/-- An error that comes from the keys of migrations. -/
def RunError.isOfKeys : RunError → Bool
  | .key _ | .noKeyLeft => true
  | _ => false

/-- Nothing has stopped, or something else than the keys of migrations. -/
def IsQuiet (stopped : Option RunError) : Prop :=
  ∀ error ∈ stopped, error.isOfKeys = false

theorem isQuiet_none : IsQuiet none :=
  nofun

theorem isQuiet_some {error : RunError} (quiet : error.isOfKeys = false) :
    IsQuiet (some error) := by
  rintro _ ⟨⟩
  exact quiet

namespace RenderPlan

variable {plan : RenderPlan}

theorem isQuiet_addEntity {state : ModuleRendering} (quiet : IsQuiet state.stopped)
    (descriptor : Descriptor) : IsQuiet (plan.addEntity state descriptor).stopped := by
  rw [addEntity]
  dsimp only
  split
  · exact quiet
  · exact isQuiet_some rfl
  · exact quiet

theorem isQuiet_addEntities {state : ModuleRendering} (quiet : IsQuiet state.stopped)
    (descriptors : List Descriptor) : IsQuiet (plan.addEntities descriptors state).stopped := by
  induction descriptors generalizing state with
  | nil => exact quiet
  | cons descriptor rest hypothesis =>
      rw [addEntities, List.foldl_cons]
      refine hypothesis ?_
      split_ifs
      · exact quiet
      · exact isQuiet_addEntity quiet descriptor

theorem isQuiet_addAggregates {state : ModuleRendering} (quiet : IsQuiet state.stopped)
    (module : String) : IsQuiet (plan.addAggregates module state).stopped := by
  rw [addAggregates]
  split_ifs
  · exact quiet
  · dsimp only
    split
    · exact quiet
    · exact isQuiet_some rfl
    · exact quiet

/-- Rendering is not stopped for keys, which were given before. -/
theorem isQuiet_run (module : String) (ledger : Ledger) (report : Report)
    (descriptors : List Descriptor) :
    IsQuiet (plan.run module ledger report descriptors).stopped := by
  have entities : IsQuiet (plan.addEntities descriptors { ledger, report }).stopped :=
    isQuiet_addEntities isQuiet_none descriptors
  have closes {state : ModuleRendering} (quiet : IsQuiet state.stopped) :
      IsQuiet (if state.stopped.isSome then state else close state).stopped := by
    split_ifs
    · exact quiet
    · exact quiet
  refine closes ?_
  rw [← addEntities]
  split_ifs
  · exact entities
  · exact isQuiet_addAggregates entities module

end RenderPlan

/-! ## Keys that cannot be given -/

/-- A clock that shows moments of the calendar. -/
def Migration.Clock.ShowsReal (clock : Clock) : Prop :=
  ∀ moment ∈ clock.last :: clock.upcoming, moment.IsReal

theorem Migration.Clock.ShowsReal.read {clock : Clock} (real : clock.ShowsReal) :
    clock.read.1.IsReal ∧ clock.read.2.ShowsReal := by
  obtain ⟨upcoming, last⟩ := clock
  cases upcoming with
  | nil => exact ⟨real last (by simp), real⟩
  | cons moment rest =>
      refine ⟨real moment (by simp), fun other member => real other ?_⟩
      simp only [Clock.read, List.mem_cons] at member ⊢
      tauto

theorem Migration.Sequence.isReal_of_following?
    {last : Option Key} {now : Moment} {key : Key} (real : ∀ known ∈ last, known.IsReal)
    (nowReal : now.IsReal) (found : Sequence.following? last now = some key) : key.IsReal := by
  cases last with
  | none =>
      cases found
      exact ⟨nowReal, Nat.zero_le _⟩
  | some known =>
      rw [Sequence.following?] at found
      split_ifs at found with behind room
      · cases found
        exact ⟨nowReal, Nat.zero_le _⟩
      · cases found
        exact ⟨(real known rfl).moment, room⟩
      · obtain ⟨later, next, rfl⟩ := Option.map_eq_some_iff.mp found
        exact ⟨(Moment.next?_spec (real known rfl).moment next).1, Nat.zero_le _⟩

/-- Keys run out behind the last key of all. -/
theorem KeyAssignment.last_of_exhausted
    (module : String) (existing : Keyed String) {assignment : KeyAssignment}
    {asked : List Descriptor} (realKeys : assignment.sequence.HasRealKeys)
    (realClock : assignment.sequence.clock.ShowsReal) (running : assignment.exhausted = false)
    (exhausted : (addAll module existing assignment asked).exhausted = true) :
    Keyed.get? (addAll module existing assignment asked).sequence.last module =
      some Sequence.lastKey := by
  induction asked generalizing assignment with
  | nil =>
      rw [addAll, running] at exhausted
      cases exhausted
  | cons descriptor rest hypothesis =>
      cases found : Keyed.get? existing descriptor.table with
      | some key =>
          simp only [addAll, found] at exhausted ⊢
          exact @hypothesis
            { assignment with keys := Keyed.put assignment.keys descriptor.entity key }
            realKeys realClock running exhausted
      | none =>
          -- The clock is read for new keys only.
          obtain ⟨nowReal, laterReal⟩ := realClock.read
          simp only [addAll, found, Sequence.next_eq] at exhausted ⊢
          cases following : Sequence.following? (Keyed.get? assignment.sequence.last module)
              assignment.sequence.clock.read.1 with
          | none =>
              dsimp only
              exact (Sequence.following?_eq_none_iff (realKeys module) nowReal).mp following
          | some key =>
              simp only [following] at exhausted ⊢
              refine hypothesis (fun other known member => ?_) laterReal running exhausted
              rw [Sequence.get?_put] at member
              split_ifs at member
              · obtain rfl := Option.some.inj member
                exact Sequence.isReal_of_following? (realKeys module) nowReal following
              · exact realKeys other known member

section Assigning

variable {tree : Tree} {folder : Path} {existing : Keyed String} {sequence : Sequence}
  {selection : Option Selection} {descriptors : List Descriptor}

/-- A key on disk that names no date keeps keys from being given. -/
theorem exists_assignKeys_of_unnamed
    (found : keysIn tree (migrationsFolder folder) = .ok existing)
    (unnamed : ∃ pair ∈ existing, ¬ NamesDate pair.2) (sequence : Sequence)
    (selection : Option Selection) (descriptors : List Descriptor) :
    ∃ after, assignKeys tree folder sequence selection descriptors =
      (.error (.key .noSuchDate), after) := by
  obtain ⟨pair, member, noDate⟩ := unnamed
  have stops := Sequence.observeAll_of_not_namesDate (tree.absolutePath folder).text
    (isKeySpelling_of_keysIn found) ⟨pair.2, List.mem_map_of_mem member, noDate⟩ sequence
  rw [assignKeys, found]
  dsimp only
  cases run : sequence.observeAll (tree.absolutePath folder).text (existing.map (·.2)) with
  | mk answer after =>
      rw [run] at stops
      obtain rfl : answer = some .noSuchDate := stops
      exact ⟨after, rfl⟩

/-- What keeps keys from being given: a key on disk that names no date, or the last key of all. -/
theorem spec_of_assignKeys_error (found : keysIn tree (migrationsFolder folder) = .ok existing)
    (realKeys : sequence.HasRealKeys) (realClock : sequence.clock.ShowsReal) {error : RunError}
    {after : Sequence}
    (failed : assignKeys tree folder sequence selection descriptors = (.error error, after)) :
    (error = .key .noSuchDate ∧ ∃ pair ∈ existing, ¬ NamesDate pair.2) ∨
      error = .noKeyLeft ∧ (∀ pair ∈ existing, NamesDate pair.2) ∧
        Keyed.get? after.last (tree.absolutePath folder).text = some Sequence.lastKey := by
  by_cases named : ∀ pair ∈ existing, NamesDate pair.2
  · obtain ⟨observed, run, follows⟩ := Sequence.observeAll_of_namesDate
      (tree.absolutePath folder).text (isKeySpelling_of_keysIn found)
      (List.forall_mem_map.mpr named) realKeys
    rw [assignKeys, found] at failed
    dsimp only at failed
    rw [run] at failed
    dsimp only at failed
    split_ifs at failed with exhausted
    · obtain ⟨same, rfl⟩ := Prod.mk.inj failed
      refine .inr ⟨(Except.error.inj same).symm, named, ?_⟩
      exact KeyAssignment.last_of_exhausted _ existing follows.real (follows.clock ▸ realClock)
        rfl exhausted
    · cases (Prod.mk.inj failed).1
  · push Not at named
    obtain ⟨_, failedThere⟩ := exists_assignKeys_of_unnamed found named sequence selection
      descriptors
    rw [failedThere] at failed
    exact .inl ⟨(Except.error.inj (Prod.mk.inj failed).1).symm, named⟩

end Assigning

/-! ## How a run ends -/

namespace Run

/-- A run is stopped for the keys of a module, as giving them is, or not for keys at all. -/
inductive EndsByKeys (tree : Tree) (folder : Path) (sequence : Sequence) (after : Run) : Prop where
  | quiet (quiet : IsQuiet after.stopped)
  | keys (error : RunError) (stopped : after.stopped = some error) (selection : Option Selection)
      (descriptors : List Descriptor)
      (assigned : assignKeys tree folder sequence selection descriptors =
        (.error error, after.sequence))

variable {generator : Generator} {config : Config} {folder : Path}

theorem isQuiet_exportFiles {run : Run} (quiet : IsQuiet run.stopped) (ledger : Ledger)
    (files : List OutputFile) :
    IsQuiet (run.exportFiles generator config folder ledger files).stopped := by
  rw [exportFiles]
  dsimp only
  split
  · exact isQuiet_some rfl
  · rw [addExport]
    dsimp only
    split_ifs
    · rw [(saveLedger_spec _ _ _ _).1]
      exact quiet
    · exact quiet

theorem endsByKeys_renderAndExport (generator : Generator) (config : Config) (folder : Path)
    (run : Run) (clean : Bool) (selection : Option Selection) (module : String) (ledger : Ledger)
    (descriptors : List Descriptor) :
    EndsByKeys run.tree folder run.sequence
      (run.renderAndExport generator config clean selection folder module ledger descriptors) := by
  rw [renderAndExport]
  cases assigned : assignKeys run.tree folder run.sequence selection descriptors with
  | mk answer sequence =>
  cases answer with
  | error error => exact .keys error rfl selection descriptors assigned
  | ok keys =>
      have quiet := (⟨config, config.shelf clean run.tree, keys, selection⟩ : RenderPlan).isQuiet_run
        module ledger run.report descriptors
      refine .quiet ?_
      dsimp only
      -- The rendering stays a variable, or its fields are computed.
      generalize RenderPlan.run _ module ledger run.report descriptors = rendering at quiet ⊢
      split_ifs
      · exact quiet
      · exact quiet
      · exact isQuiet_exportFiles quiet _ _

theorem endsByKeys_compileAndGenerate (generator : Generator) (config : Config) {run : Run}
    (running : run.stopped = none) (clean : Bool) (selection : Option Selection)
    (definition : ModuleDefinition) :
    EndsByKeys run.tree (config.moduleFolder definition.studlyName) run.sequence
      (run.compileAndGenerate generator config clean selection definition) := by
  rw [compileAndGenerate]
  dsimp only
  cases Registry.discover config run.tree definition.studlyName definition.entities with
  | error error => exact .quiet (isQuiet_some rfl)
  | ok registry =>
      dsimp only
      generalize definition.compile registry config.strictReferences (selection.map Keyed.keys) =
        compilation
      cases compilation.stopped with
      | some error => exact .quiet (isQuiet_some rfl)
      | none =>
          obtain ⟨tree, sequence, stopped, -, -⟩ :=
            addCompilation_spec compilation (run.addLogs compilation.logs)
          generalize (run.addLogs compilation.logs).addCompilation compilation = compiled at *
          have still : compiled.stopped = none := stopped.trans running
          dsimp only
          split_ifs
          · exact .quiet (still ▸ isQuiet_none)
          · cases (Ledger.ofModule definition.studlyName).load run.tree
              (config.moduleFolder definition.studlyName) with
            | mk ledger answer =>
            cases answer with
            | none =>
                have ends := endsByKeys_renderAndExport generator config
                  (config.moduleFolder definition.studlyName) compiled clean selection
                  definition.studlyName ledger compilation.descriptors
                rwa [tree, sequence] at ends
            | some error =>
                cases error with
                | disk _ | numberTooLong _ => exact .quiet (isQuiet_some rfl)
                | _ => exact .quiet (still ▸ isQuiet_none)

/-- Generating files is stopped for the keys of its module only. -/
theorem endsByKeys_generate (generator : Generator) (config : Config) {run : Run}
    (running : run.stopped = none) (clean : Bool) (selection : Option Selection)
    (definition : ModuleDefinition) :
    EndsByKeys run.tree (config.moduleFolder definition.studlyName) run.sequence
      (run.generate generator config clean selection definition) := by
  rw [generate]
  dsimp only
  split_ifs
  · exact .quiet (isQuiet_some rfl)
  all_goals
    generalize located : run.mapReport _ = middle
    have same : middle.tree = run.tree ∧ middle.sequence = run.sequence ∧
        middle.stopped = none := by
      subst located
      exact ⟨rfl, rfl, running⟩
    obtain ⟨sameTree, sameSequence, still⟩ := same
    obtain ⟨tree, sequence, -, -⟩ := review_spec config definition middle
    have stillReviewed : (middle.review config definition).stopped = none := still
    generalize middle.review config definition = reviewed at *
  · exact .quiet (stillReviewed ▸ isQuiet_none)
  · have ends := endsByKeys_compileAndGenerate generator config stillReviewed clean selection
      definition
    rwa [tree, sequence, sameTree, sameSequence] at ends

/-- A definition is generated, or nothing is. -/
theorem endsByKeys_addDefinition (generator : Generator) (config : Config) {run : Run}
    (running : run.stopped = none) (append : Bool) (definition : ModuleDefinition) :
    EndsByKeys run.tree (config.moduleFolder definition.studlyName) run.sequence
      (generator.addDefinition config append definition run) := by
  rw [Generator.addDefinition]
  dsimp only
  cases config.hasModule run.tree definition.studlyName with
  | error error => exact .quiet (isQuiet_some rfl)
  | ok isThere =>
      rw [withAnswer]
      split_ifs
      · exact .quiet (running ▸ isQuiet_none)
      · exact endsByKeys_generate generator config running false none definition

theorem endsByKeys_cleanModule
    (generator : Generator) (tree : Tree) (sequence : Sequence) (name : String) :
    EndsByKeys tree (generator.config.moduleFolder (Text.studlyCase name)) sequence
      (generator.cleanModule tree sequence name) := by
  rw [Generator.cleanModule]
  dsimp only
  cases made : ModuleDefinition.ofParts name [Component.bareDocument name] with
  | error error => exact .quiet isQuiet_none
  | ok definition =>
      dsimp only
      cases generator.config.hasModule tree definition.studlyName with
      | error error => exact .quiet (isQuiet_some rfl)
      | ok isThere =>
          rw [withAnswer]
          split_ifs
          · exact .quiet isQuiet_none
          · have ends := @endsByKeys_generate generator generator.config
              (generator.start tree sequence .clean) rfl true none definition
            rwa [ModuleDefinition.studlyName, ModuleDefinition.name_of_ofParts made] at ends

theorem endsByKeys_fileModule
    (generator : Generator) {tree : Tree} (sequence : Sequence) {path : Path} {name : String}
    {settings : Document.Entries} {append : Bool} {module : String}
    (isFor : (ModuleTask.defineByFile path name settings append).IsFor generator.config module
      tree) :
    EndsByKeys tree (generator.config.moduleFolder module) sequence
      (generator.fileModule tree sequence path name append settings) := by
  rw [Generator.fileModule]
  cases loaded : ModuleDocument.load tree path name settings with
  | error error =>
      dsimp only
      split
      · exact .quiet (isQuiet_some rfl)
      · exact .quiet isQuiet_none
  | ok document =>
      obtain ⟨sameConfig, same⟩ := isFor document loaded
      dsimp only
      rw [sameConfig, ← same]
      generalize started : (generator.start tree sequence
        (Generator.definitionMode append)).mapReport _ = run
      have begins : run.tree = tree ∧ run.sequence = sequence ∧ run.stopped = none := by
        subst started
        exact ⟨rfl, rfl, rfl⟩
      have ends := endsByKeys_addDefinition generator generator.config begins.2.2 append
        document.definition
      rwa [begins.1, begins.2.1] at ends

theorem endsByKeys_selectedFiles
    (generator : Generator) (tree : Tree) (sequence : Sequence) (name : String)
    (requests : Keyed String) (definition : Option ModuleDefinition) :
    EndsByKeys tree (generator.config.moduleFolder (Text.studlyCase name)) sequence
      (generator.selectedFiles tree sequence name requests definition) := by
  rw [Generator.selectedFiles]
  dsimp only
  split_ifs
  · exact .quiet isQuiet_none
  · cases generator.config.hasModule tree (Text.studlyCase name) with
    | error error => exact .quiet (isQuiet_some rfl)
    | ok isThere =>
        rw [withAnswer]
        split_ifs
        · exact .quiet isQuiet_none
        · split
          · exact .quiet isQuiet_none
          · rename_i whole parts
            have studly : whole.studlyName = Text.studlyCase name := by
              rw [ModuleDefinition.studlyName, ModuleDefinition.name_of_ofParts parts,
                Text.studlyCase_studlyCase]
            have ends := @endsByKeys_generate generator generator.config
              { generator.start tree sequence .individual with
                report := { (generator.start tree sequence .individual).report with
                  module := Text.studlyCase name } }
              rfl false (some (Selection.ofRequests requests)) whole
            rwa [studly] at ends

/-- A task for a module is stopped for the keys of this module only. -/
theorem endsByKeys_perform
    {task : ModuleTask} {module : String} {tree : Tree} (sequence : Sequence)
    (isFor : task.IsFor generator.config module tree) :
    EndsByKeys tree (generator.config.moduleFolder module) sequence
      (generator.perform tree sequence task) := by
  cases task with
  | start name =>
      obtain rfl : Text.studlyCase name = module := isFor
      exact endsByKeys_cleanModule generator tree sequence name
  | define definition append =>
      obtain rfl : definition.studlyName = module := isFor
      exact @endsByKeys_addDefinition generator generator.config
        (generator.start tree sequence (Generator.definitionMode append)) rfl append definition
  | defineByFile path name settings append => exact endsByKeys_fileModule generator sequence isFor
  | select name requests definition =>
      obtain rfl : Text.studlyCase name = module := isFor
      exact endsByKeys_selectedFiles generator tree sequence name requests definition

/-! ## Migrations on disk -/

/--
What a run is stopped for if it is the keys of its module: a key on disk, or the last key of all.
-/
theorem EndsByKeys.spec_of_stopped
    {tree : Tree} {folder : Path} {sequence : Sequence} {after : Run}
    (ends : EndsByKeys tree folder sequence after) {existing : Keyed String}
    (found : keysIn tree (migrationsFolder folder) = .ok existing)
    (realKeys : sequence.HasRealKeys) (realClock : sequence.clock.ShowsReal) {error : RunError}
    (stopped : after.stopped = some error) (ofKeys : error.isOfKeys = true) :
    (error = .key .noSuchDate ∧ ∃ pair ∈ existing, ¬ NamesDate pair.2) ∨
      error = .noKeyLeft ∧ (∀ pair ∈ existing, NamesDate pair.2) ∧
        Keyed.get? after.sequence.last (tree.absolutePath folder).text =
          some Sequence.lastKey := by
  cases ends with
  | quiet quiet =>
      rw [quiet error stopped] at ofKeys
      cases ofKeys
  | keys other stoppedThere selection descriptors assigned =>
      obtain rfl := Option.some.inj (stopped.symm.trans stoppedThere)
      exact spec_of_assignKeys_error found realKeys realClock assigned

/-- With a key on disk that names no date no task for the module exports anything. -/
theorem fails_perform_of_unnamed
    {task : ModuleTask} {module : String} {tree : Tree} (sequence : Sequence)
    (isFor : task.IsFor generator.config module tree) {existing : Keyed String}
    (found : keysIn tree (migrationsFolder (generator.config.moduleFolder module)) =
      .ok existing)
    (unnamed : ∃ pair ∈ existing, ¬ NamesDate pair.2) :
    (generator.perform tree sequence task).tree = tree ∧
      ((generator.perform tree sequence task).stopped ≠ none ∨
        (generator.perform tree sequence task).report.success = false) := by
  have answers := answers_perform sequence isFor
  generalize generator.perform tree sequence task = after at answers
  cases answers with
  | ends before begins fails => exact ⟨fails.tree.trans begins.tree, fails.failed⟩
  | asks before begins request asks comes =>
      cases comes with
      | fails fails nothing => exact ⟨fails.tree.trans begins.tree, fails.failed⟩
      | exports preparation middle prepares exports complete =>
          have assigned := prepares.assigned
          have folder : request.folder = generator.config.moduleFolder module := by
            rw [Request.folder, asks.config, asks.module]
          obtain ⟨_, failed⟩ := exists_assignKeys_of_unnamed found unnamed before.sequence
            request.selection preparation.descriptors
          rw [folder, begins.tree, failed] at assigned
          cases assigned

/--
If every key of the migrations of a module names a date, all of them are observed and no task for
the module is stopped for its keys, unless they go on to the last key of all.  If some key does not
name a date, observing the keys stops at it.  Then every rendering is stopped, so that no task for
the module exports anything.
-/
theorem perform_stops_at_undated_keys
    {generator : Generator} {task : ModuleTask} {module : String} {tree : Tree}
    {sequence : Sequence} (realKeys : sequence.HasRealKeys)
    (realClock : sequence.clock.ShowsReal) (isFor : task.IsFor generator.config module tree)
    {existing : Keyed String}
    (found : keysIn tree (migrationsFolder (generator.config.moduleFolder module)) =
      .ok existing) :
    ((∀ pair ∈ existing, NamesDate pair.2) →
      (∀ name, ∃ observed, sequence.observeAll name (existing.map (·.2)) = (none, observed) ∧
        sequence.Follows name (existing.map (·.2)) observed) ∧
      ∀ error, (generator.perform tree sequence task).stopped = some error →
        error.isOfKeys = true →
          error = .noKeyLeft ∧
            Keyed.get? (generator.perform tree sequence task).sequence.last
                (tree.absolutePath (generator.config.moduleFolder module)).text =
              some Sequence.lastKey) ∧
    ((∃ pair ∈ existing, ¬ NamesDate pair.2) →
      (∀ name, (sequence.observeAll name (existing.map (·.2))).1 = some .noSuchDate) ∧
      (∀ run : Run, run.tree = tree → ∀ config clean selection ledger descriptors,
        (run.renderAndExport generator config clean selection
            (generator.config.moduleFolder module) module ledger descriptors).stopped =
          some (.key .noSuchDate)) ∧
      (generator.perform tree sequence task).tree = tree ∧
      ((generator.perform tree sequence task).stopped ≠ none ∨
        (generator.perform tree sequence task).report.success = false) ∧
      ∀ error, (generator.perform tree sequence task).stopped = some error →
        error.isOfKeys = true → error = .key .noSuchDate) := by
  have spelled := isKeySpelling_of_keysIn found
  have ends := endsByKeys_perform sequence isFor
  refine ⟨fun named => ⟨fun name => ?_, fun error stopped ofKeys => ?_⟩,
    fun unnamed => ⟨fun name => ?_, fun run sameTree config clean selection ledger descriptors => ?_,
      ?_⟩⟩
  · exact Sequence.observeAll_of_namesDate name spelled (List.forall_mem_map.mpr named) realKeys
  · rcases ends.spec_of_stopped found realKeys realClock stopped ofKeys with
      ⟨-, pair, member, noDate⟩ | ⟨same, -, last⟩
    · exact absurd (named pair member) noDate
    · exact ⟨same, last⟩
  · obtain ⟨pair, member, noDate⟩ := unnamed
    exact Sequence.observeAll_of_not_namesDate name spelled
      ⟨pair.2, List.mem_map_of_mem member, noDate⟩ sequence
  · subst sameTree
    obtain ⟨after, failed⟩ := exists_assignKeys_of_unnamed found unnamed run.sequence selection
      descriptors
    rw [renderAndExport, failed]
    rfl
  · obtain ⟨same, fails⟩ := fails_perform_of_unnamed sequence isFor found unnamed
    refine ⟨same, fails, fun error stopped ofKeys => ?_⟩
    rcases ends.spec_of_stopped found realKeys realClock stopped ofKeys with
      ⟨noDate, -⟩ | ⟨-, named, -⟩
    · exact noDate
    · obtain ⟨pair, member, noDate⟩ := unnamed
      exact absurd (named pair member) noDate

/-- A module in which a single migration has a key. -/
def migratedTree (key : String) : Tree where
  folders := [["Modules"], ["Modules", "Blog"], ["Modules", "Blog", "Database"],
    ["Modules", "Blog", "Database", "Migrations"]]
  files := [(["Modules", "Blog", "Database", "Migrations", fileName key "tags"], .text "")]

theorem keysIn_migratedTree :
    ∀ key ∈ ["2023_12_1٢_235959", "2024_13_45_000000_00", "9999_12_31_235959"],
      keysIn (migratedTree key) (migrationsFolder (({} : Config).moduleFolder "Blog")) =
        .ok [("tags", key)] := by
  decide +kernel

/--
A second digit of another script stops nothing, and a month that does not exist stops every run.
-/
theorem perform_stops_at_undated_keys_blog :
    (∃ observed, (stillSequence 2024).observeAll "blog" ["2023_12_1٢_235959"] = (none, observed) ∧
      (stillSequence 2024).Follows "blog" ["2023_12_1٢_235959"] observed) ∧
    ((stillSequence 2024).observeAll "blog" ["2024_13_45_000000_00"]).1 = some .noSuchDate ∧
    (Generator.perform { config := {}, time := "" } (migratedTree "2024_13_45_000000_00")
      (stillSequence 2024) (.define blogOfPosts true)).tree =
        migratedTree "2024_13_45_000000_00" := by
  have sound := isSound_stillSequence
  have realClock : (stillSequence 2024).clock.ShowsReal :=
    fun moment member => (sound.clock moment member).1
  have same : blogOfPosts.studlyName = "Blog" := by decide +kernel
  have stops {key : String}
      (found : keysIn (migratedTree key) (migrationsFolder (({} : Config).moduleFolder "Blog")) =
        .ok [("tags", key)]) :=
    @perform_stops_at_undated_keys { config := {}, time := "" } (.define blogOfPosts true) "Blog" _ _
      sound.real realClock same _ found
  have dated := keysIn_migratedTree "2023_12_1٢_235959" (by simp)
  have undated := keysIn_migratedTree "2024_13_45_000000_00" (by simp)
  have named : NamesDate "2023_12_1٢_235959" := by
    have spelling := isKeySpelling_of_keysIn dated "2023_12_1٢_235959" (by simp)
    rcases Key.read_of_isKeySpelling spelling with ⟨named, -⟩ | ⟨-, refused⟩
    · exact named
    · have read : (Key.read "2023_12_1٢_235959").isOk = true := by decide +kernel
      rw [refused] at read
      cases read
  have unnamed : ¬ NamesDate "2024_13_45_000000_00" := by
    have spelling := isKeySpelling_of_keysIn undated "2024_13_45_000000_00" (by simp)
    rcases Key.read_of_isKeySpelling spelling with ⟨-, key, read⟩ | ⟨unnamed, -⟩
    · have refused : (Key.read "2024_13_45_000000_00").isOk = false := by decide +kernel
      rw [read] at refused
      cases refused
    · exact unnamed
  obtain ⟨observes, sameTree⟩ := (stops undated).2 ⟨_, List.mem_singleton_self _, unnamed⟩
  exact ⟨((stops dated).1 (by simpa using named)).1 "blog", observes "blog", sameTree.2.1⟩

/-- What the keys of migrations have stopped a run with: a key that is refused, or the last one. -/
def keyStop? (run : Run) : Option (Option KeyError) :=
  match run.stopped with
  | some (.key error) => some (some error)
  | some .noKeyLeft => some none
  | _ => none

theorem stopped_of_keyStop? {run : Run} :
    (∀ error, keyStop? run = some (some error) → run.stopped = some (.key error)) ∧
      (keyStop? run = some none → run.stopped = some .noKeyLeft) := by
  rw [keyStop?]
  constructor
  · intro error stop
    split at stop <;> simp_all
  · intro stop
    split at stop <;> simp_all

/--
A migration of a month that the calendar does not have stops the observation of its folder and a run
for the module.  A migration of the last second of all stops a run as well.
-/
theorem perform_stopped_by_migration :
    keysIn (migratedTree "2024_13_45_000000_00")
        (migrationsFolder (({} : Config).moduleFolder "Blog")) =
      .ok [("tags", "2024_13_45_000000_00")] ∧
    ((stillSequence 2024).observeAll "blog" ["2024_13_45_000000_00"]).1 = some .noSuchDate ∧
    (Generator.perform { config := {}, time := "" } (migratedTree "2024_13_45_000000_00")
      (stillSequence 2024) (.define blogOfPosts true)).stopped = some (.key .noSuchDate) ∧
    (Generator.perform { config := {}, time := "" } (migratedTree "9999_12_31_235959")
      (stillSequence 2024) (.define blogOfPosts true)).stopped = some .noKeyLeft := by
  refine ⟨keysIn_migratedTree _ (by simp), by decide +kernel, ?_, ?_⟩
  · exact stopped_of_keyStop?.1 _ (by decide +kernel)
  · exact stopped_of_keyStop?.2 (by decide +kernel)

end Run

end Scaffold
