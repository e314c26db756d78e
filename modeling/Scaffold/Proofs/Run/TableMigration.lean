import Scaffold.Proofs.Export.Records
import Scaffold.Proofs.Output.Migration
import Scaffold.Proofs.Run.Layers
import Scaffold.Proofs.Text.Correspondence

/-!
# Migrations that are asked for by their table

A migration may be asked for by the table that it is to create.  The run takes the model of the table
for the entity and makes the migration of the table of that entity, which is the table it was asked
for exactly when entity and table name each other.
-/

namespace Scaffold

open Scaffold.Disk (Tree)
open Text (Corresponds)

/-! ## The selection of a migration -/

/-- The name under which the migration of a table is asked for. -/
def migrationName (table : String) : String :=
  "create_" ++ table ++ "_table"

section

variable {table : String}

theorem migrationTable?_migrationName
    (nonempty : table ≠ "") (characters : ∀ c ∈ table.toList, Text.IsNameCharacter c) :
    migrationTable? (migrationName table) = some table := by
  have spelled : (migrationName table).toList =
      "create_".toList ++ (table.toList ++ "_table".toList) := by
    rw [migrationName, String.toList_append, String.toList_append, List.append_assoc]
  have noLineEnd : Text.withoutLineEnd (migrationName table).toList =
      (migrationName table).toList := by
    refine Migration.withoutLineEnd_of_getLast? ?_
    rw [spelled, List.getLast?_append, List.getLast?_append]
    simp
  have length : ("create_".toList ++ (table.toList ++ "_table".toList)).length -
      "create_".toList.length - "_table".toList.length = table.toList.length := by
    simp only [List.length_append]
    omega
  have word : table.toList.all Text.isUnicodeWordCharacter = true :=
    List.all_eq_true.mpr fun c member => (characters c member).isUnicodeWordCharacter
  have some : table.toList.isEmpty = false := by simpa using nonempty
  rw [migrationTable?, noLineEnd, spelled]
  dsimp only
  rw [List.drop_left, length, List.take_left, some, word, String.ofList_toList, if_pos]
  · rfl
  · simp

/-- A single request chooses the migration of one entity. -/
theorem Selection.ofRequests_migration {value : String} (nonempty : value ≠ "") :
    ofRequests [(FileKind.migration.name, value)] =
      [(entityOf .migration "" value, [(FileKind.migration.name, Text.studlyCase value)])] := by
  have given : (some value).filter (!·.isEmpty) = some value := by simpa using nonempty
  simp [ofRequests, selectableKinds, Keyed.get?, FileKind.name, given, add, Keyed.put]

/-- The entity of the migration of a table is the model of the table. -/
theorem Selection.ofRequests_migrationName
    (nonempty : table ≠ "") (characters : ∀ c ∈ table.toList, Text.IsNameCharacter c) :
    ofRequests [(FileKind.migration.name, migrationName table)] =
      [(Text.modelName table,
        [(FileKind.migration.name, Text.studlyCase (migrationName table))])] := by
  have some : migrationName table ≠ "" := by
    intro none
    have read := migrationTable?_migrationName nonempty characters
    rw [none] at read
    cases read
  rw [ofRequests_migration some, entityOf, migrationTable?_migrationName nonempty characters]
  rfl

end

/-! ## What is rendered -/

/-- What is compiled for chosen entities comes from components of these. -/
theorem ModuleDefinition.exists_of_mem_compile
    {definition : ModuleDefinition} {registry : Registry} {strict : Bool} {names : List String}
    {descriptor : Descriptor}
    (member : descriptor ∈ (definition.compile registry strict (some names)).descriptors) :
    descriptor.entity ∈ names ∧ descriptor.table = Text.tableName descriptor.entity := by
  rw [compile] at member
  rcases (ModuleCompilation.addAll_spec strict _ _).2 descriptor member with impossible |
    ⟨component, selected, entity, table⟩
  · cases impossible
  · have chosen := (List.mem_filter.mp selected).2
    rw [entity, table]
    exact ⟨List.contains_iff_mem.mp chosen, component.table_eq⟩

namespace Prepares

variable {request : Request} {tree : Tree} {sequence : Migration.Sequence}
  {preparation : Preparation} {entity : String}

/-- If a single entity is chosen, then it is the only one that is compiled. -/
theorem exists_descriptors_eq
    (prepares : Prepares request tree sequence preparation) {names : Keyed String}
    (only : request.selection = some [(entity, names)]) :
    ∃ descriptor, preparation.descriptors = [descriptor] ∧ descriptor.entity = entity ∧
      descriptor.table = Text.tableName entity := by
  have compiled : ∀ descriptor ∈ preparation.descriptors,
      descriptor.entity = entity ∧ descriptor.table = Text.tableName entity := by
    intro descriptor member
    rw [← prepares.compiled, Request.compilation, only] at member
    obtain ⟨chosen, table⟩ := ModuleDefinition.exists_of_mem_compile member
    obtain rfl : descriptor.entity = entity := by simpa [Keyed.keys] using chosen
    exact ⟨rfl, table⟩
  have distinct := prepares.descriptors_named.1
  cases descriptors : preparation.descriptors with
  | nil => exact absurd descriptors prepares.nonempty
  | cons first rest =>
      rw [descriptors] at compiled distinct
      cases rest with
      | nil => exact ⟨first, rfl, compiled first List.mem_cons_self⟩
      | cons second rest =>
          have same : first.entity = second.entity :=
            (compiled first (by simp)).1.trans (compiled second (by simp)).1.symm
          exact absurd distinct (by simp [same])

theorem aggregate_of_mem
    (prepares : Prepares request tree sequence preparation) :
    ∀ file ∈ ((request.plan tree preparation.keys).aggregatesOf request.module
      preparation.rendering.ledger).toOption.getD [], file.aggregate = true := by
  obtain ⟨_, _, _, _, named⟩ := Text.exists_of_isClassName prepares.isNamed.module
  intro file member
  cases rendered : (request.plan tree preparation.keys).aggregatesOf request.module
      preparation.rendering.ledger with
  | error error =>
      rw [rendered] at member
      cases member
  | ok files =>
      rw [rendered] at member
      exact ((Aggregate.spec_of_generate named rendered).1 file member).1

/-- If its migration alone is asked for, then the other files are aggregates. -/
theorem exists_files_eq
    (prepares : Prepares request tree sequence preparation) (sound : tree.IsSound)
    {value : String}
    (only : request.selection = some [(entity, [(FileKind.migration.name, value)])]) :
    ∃ file aggregates, preparation.rendering.files = file :: aggregates ∧
      file.IsMigrationOf request.config (Text.tableName entity) ∧
        ∀ other ∈ aggregates, other.aggregate = true := by
  obtain ⟨descriptor, single, rfl, table⟩ := prepares.exists_descriptors_eq only
  have chosen : (request.plan tree preparation.keys).chosen? descriptor.entity =
      some [(FileKind.migration.name, value)] := by
    rw [RenderPlan.chosen?, Request.plan, only]
    simp [Keyed.get?]
  have kinds : (request.plan tree preparation.keys).kinds descriptor.entity = [.migration] := by
    rw [RenderPlan.kinds, chosen]
    rfl
  obtain ⟨other, member, rendered⟩ := prepares.exists_rendered
  rw [single, List.mem_singleton] at member
  rw [member] at rendered
  cases found : (request.plan tree preparation.keys).filesOf descriptor with
  | error error =>
      rw [found] at rendered
      cases rendered
  | ok files =>
      have generated := found
      rw [RenderPlan.filesOf, kinds] at generated
      obtain ⟨file, rfl, isMigration⟩ := Descriptor.generate_migration
        (fun key given => isKeyCharacter_of_assignKeys sound prepares.assigned given)
        generated
      rw [table] at isMigration
      have whole := (prepares.renders.files prepares.entityFiles_ne_nil).2
      rw [single, RenderPlan.entityFiles, List.flatMap_singleton, found] at whole
      exact ⟨file, _, whole, isMigration, prepares.aggregate_of_mem⟩

end Prepares

/-! ## What a run lists -/

namespace Run

/-- The manifest of a run lists the migration of a table, and otherwise aggregates. -/
def ListsMigration (run : Run) (config : Config) (table : String) : Prop :=
  ∃ manifest file aggregates, run.report.manifest = some manifest ∧
    List.Forall₂ FileRecord.Describes manifest.records (file :: aggregates) ∧
      file.IsMigrationOf config table ∧ ∀ other ∈ aggregates, other.aggregate = true

/-- A run lists the migration of one table only. -/
theorem ListsMigration.table_eq
    {run : Run} {config : Config} {table other : String}
    (lists : run.ListsMigration config table) (again : run.ListsMigration config other) :
    table = other := by
  obtain ⟨manifest, file, _, listed, describes, isMigration, _⟩ := lists
  obtain ⟨_, otherFile, _, alsoListed, alsoDescribes, isOther, _⟩ := again
  obtain rfl := Option.some.inj (listed.symm.trans alsoListed)
  generalize manifest.records = records at describes alsoDescribes
  cases describes with
  | cons first _ =>
      cases alsoDescribes with
      | cons second _ =>
          obtain ⟨status, rfl⟩ := first
          obtain ⟨otherStatus, same⟩ := second
          exact isMigration.table_eq isOther (congrArg FileRecord.path same)

variable {tree : Tree} {table : String}

/-- A migration that is asked for by its table is that of the model of the table. -/
theorem listsMigration_selectedFiles
    (generator : Generator) (sound : tree.IsSound) (sequence : Migration.Sequence)
    (module : String) (definition : Option ModuleDefinition) (nonempty : table ≠ "")
    (characters : ∀ c ∈ table.toList, Text.IsNameCharacter c)
    (succeeds : (generator.selectedFiles tree sequence module
      [(FileKind.migration.name, migrationName table)] definition).Succeeds) :
    isClassName (Text.modelName table) = true ∧
      (generator.selectedFiles tree sequence module
        [(FileKind.migration.name, migrationName table)] definition).ListsMigration
          generator.config (Text.tableName (Text.modelName table)) := by
  have answers := answers_selectedFiles generator tree sequence module
    [(FileKind.migration.name, migrationName table)] definition
  generalize generator.selectedFiles tree sequence module
    [(FileKind.migration.name, migrationName table)] definition = run at succeeds answers
  cases answers with
  | ends before begins fails => exact absurd succeeds fails.not_succeeds
  | asks before begins request asks comes =>
      cases comes with
      | fails fails => exact absurd succeeds fails.not_succeeds
      | exports preparation middle prepares exports =>
          obtain rfl := begins.tree
          have only : request.selection = some [(Text.modelName table,
              [(FileKind.migration.name, Text.studlyCase (migrationName table))])] := by
            rw [asks.selection, ← Selection.ofRequests_migrationName nonempty characters]
            rfl
          obtain ⟨descriptor, single, entity, _⟩ := prepares.exists_descriptors_eq only
          have named := (prepares.descriptors_named.2 descriptor (by simp [single])).1.entity
          obtain ⟨file, aggregates, files, isMigration, others⟩ :=
            prepares.exists_files_eq sound only
          have exported := exports.exported
          have running := succeeds.running
          have clean := succeeds.exportErrors
          rw [files] at exported
          rw [exported] at running clean
          obtain ⟨manifest, listed, describes⟩ := exists_manifest_exportFiles running clean
          rw [← exported] at listed
          rw [asks.config] at isMigration
          rw [entity] at named
          exact ⟨named, manifest, file, aggregates, listed, describes, isMigration, others⟩

/--
A migration that is asked for by its table is listed as that of the table exactly when the model of
the table and the table name each other.  It is that of the table of the model in any case.
-/
theorem listsMigration_iff
    (generator : Generator) (sound : tree.IsSound) (sequence : Migration.Sequence)
    (module : String) (definition : Option ModuleDefinition) (nonempty : table ≠ "")
    (characters : ∀ c ∈ table.toList, Text.IsNameCharacter c)
    (succeeds : (generator.selectedFiles tree sequence module
      [(FileKind.migration.name, migrationName table)] definition).Succeeds) :
    let run := generator.selectedFiles tree sequence module
      [(FileKind.migration.name, migrationName table)] definition
    run.ListsMigration generator.config (Text.tableName (Text.modelName table)) ∧
      (run.ListsMigration generator.config table ↔ Corresponds (Text.modelName table) table) := by
  intro run
  obtain ⟨className, lists⟩ := listsMigration_selectedFiles generator sound sequence module
    definition nonempty characters succeeds
  refine ⟨lists, ?_⟩
  rw [Text.corresponds_iff className]
  constructor
  · intro listsTable
    exact ⟨lists.table_eq listsTable, rfl⟩
  · rintro ⟨same, _⟩
    rw [same] at lists
    exact lists

end Run

/-! ## Migrations in an empty module -/

/-- A run that asks for the migration of a table in a module with nothing in its folder. -/
def migrateInBlog (table : String) : Run :=
  selectInBlog emptyBlog [(FileKind.migration.name, migrationName table)]

/-- The migration of posts creates the table of posts. -/
theorem Run.listsMigration_iff_posts :
    (emptyBlog.IsSound ∧ "posts" ≠ "" ∧ (∀ c ∈ "posts".toList, Text.IsNameCharacter c) ∧
        (migrateInBlog "posts").Succeeds) ∧
      Corresponds (Text.modelName "posts") "posts" ∧
        (migrateInBlog "posts").ListsMigration briefConfig "posts" := by
  have checked : (migrateInBlog "posts").stopped = none ∧
      (migrateInBlog "posts").report.success = true := by
    decide +kernel
  have succeeds : (migrateInBlog "posts").Succeeds := ⟨checked.1, checked.2⟩
  have alphanum : "posts".toList.all Char.isAlphanum = true := by decide
  have characters : ∀ c ∈ "posts".toList, Text.IsNameCharacter c := fun c member =>
    .inl (List.all_eq_true.mp alphanum c member)
  have corresponds : Corresponds (Text.modelName "posts") "posts" := by
    have entity : Text.modelName "posts" =
        String.ofList (Text.classCharacters ([] ++ ["post".toList])) := by
      decide +kernel
    have table : "posts" = String.ofList (Text.tableCharacters ([] ++ ["posts".toList])) := by
      decide +kernel
    have inflects : Text.Inflects "post".toList "posts".toList := by
      refine .regular (by decide +kernel) (by decide +kernel) ?_
      exact @Text.InflectsByEnding.plain "post".toList (by decide) (by decide) (by decide)
        (by decide)
    rw [entity, table]
    exact .word (by decide) inflects (.singleton _) (.inl (by decide)) (by decide)
  refine ⟨⟨isSound_emptyBlog, by decide, characters, succeeds⟩, corresponds, ?_⟩
  exact (listsMigration_iff { config := briefConfig, time := "" } isSound_emptyBlog
    (stillSequence 2024) "Blog" none (by decide) characters succeeds).2.mpr corresponds

/-- The migration of menus creates another table. -/
theorem Run.listsMigration_menuses :
    (emptyBlog.IsSound ∧ ∀ c ∈ "menus".toList, Text.IsNameCharacter c) ∧
      (migrateInBlog "menus").Succeeds ∧
        (migrateInBlog "menus").ListsMigration briefConfig "menuses" ∧
          ¬ (migrateInBlog "menus").ListsMigration briefConfig "menus" := by
  have checked : (migrateInBlog "menus").stopped = none ∧
      (migrateInBlog "menus").report.success = true := by
    decide +kernel
  have succeeds : (migrateInBlog "menus").Succeeds := ⟨checked.1, checked.2⟩
  have alphanum : "menus".toList.all Char.isAlphanum = true := by decide
  have characters : ∀ c ∈ "menus".toList, Text.IsNameCharacter c := fun c member =>
    .inl (List.all_eq_true.mp alphanum c member)
  have table : Text.tableName (Text.modelName "menus") = "menuses" := by decide +kernel
  have lists := (listsMigration_selectedFiles { config := briefConfig, time := "" }
    isSound_emptyBlog (stillSequence 2024) "Blog" none (by decide) characters succeeds).2
  rw [table] at lists
  refine ⟨⟨isSound_emptyBlog, characters⟩, succeeds, lists, fun listsMenus => ?_⟩
  exact absurd (lists.table_eq listsMenus) (by decide)

end Scaffold
