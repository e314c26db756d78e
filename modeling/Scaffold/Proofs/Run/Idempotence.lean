import Scaffold.Proofs.Run.Repetition

/-!
# Adding a definition twice

The second of two equal runs gives the same keys to the entities that the first one has rendered.  It
renders the same files, finds each of them in its place, and leaves it there as it is.
-/

namespace Scaffold

open Scaffold.Disk (IsPlainName Location Path Tree)
open Scaffold.Disk.Tree (Extends Grows)
open Scaffold.Migration

namespace Repeated

variable {request : Request} {tree later : Tree} {first second : Migration.Sequence}
  {before after : Preparation} {exporter : Exporter}

/-! ## Keys -/

theorem wanted_of_isSome
    (repeated : Repeated request tree later first second before after exporter)
    {descriptor : Descriptor} (member : descriptor ∈ before.descriptors)
    (given : (Keyed.get? before.keys descriptor.entity).isSome = true) :
    descriptor ∈ wantedDescriptors request.selection before.descriptors := by
  rw [isSome_keys_of_assignKeys repeated.prepares.assigned, List.any_eq_true] at given
  obtain ⟨other, wanted, same⟩ := given
  have among := wantedDescriptors_subset request.selection before.descriptors wanted
  rw [beq_iff_eq] at same
  rwa [← List.inj_on_of_nodup_map repeated.prepares.descriptors_named.1 among member same]

theorem isSome_keys
    (repeated : Repeated request tree later first second before after exporter) (entity : String) :
    (Keyed.get? after.keys entity).isSome = (Keyed.get? before.keys entity).isSome := by
  have assigned := repeated.again.assigned
  rw [repeated.descriptors_eq] at assigned
  rw [isSome_keys_of_assignKeys assigned, isSome_keys_of_assignKeys repeated.prepares.assigned]

/-- The migration of an entity that was rendered lies where its key says. -/
theorem exists_migration
    (repeated : Repeated request tree later first second before after exporter)
    {descriptor : Descriptor} (member : descriptor ∈ before.descriptors)
    (rendered : ((request.plan tree before.keys).filesOf descriptor).isOk = true) {key : String}
    (given : Keyed.get? before.keys descriptor.entity = some key) :
    ∃ file ∈ before.rendering.files,
      LiesIn file.path "Database/Migrations" (fileName key descriptor.table) := by
  cases found : (request.plan tree before.keys).filesOf descriptor with
  | error error =>
      rw [found] at rendered
      cases rendered
  | ok files =>
      have standard : FileKind.migration ∈
          (request.plan tree before.keys).kinds descriptor.entity := by
        rw [RenderPlan.kinds, RenderPlan.chosen?, repeated.isWhole]
        simp [FileKind.standard, FileKind.all]
      obtain ⟨file, among, path⟩ := (RenderPlan.exists_plan_of_filesOf found
        (descriptor.migrationPlan key).path).mpr
          ⟨.migration, standard, _, by simp [Descriptor.plans, Request.plan, given], rfl⟩
      refine ⟨file, repeated.prepares.mem_files member found among, ?_⟩
      · rw [path]
        exact liesIn_migration
          (slash_not_mem_of_assignKeys repeated.sound repeated.prepares.assigned given)
          (repeated.prepares.descriptors_named.2 descriptor member).1.tableCharacters

theorem resolve_migrationsFolder
    (repeated : Repeated request tree later first second before after exporter) :
    later.resolve (migrationsFolder request.folder) =
      exporter.folder.names ++ ["Database", "Migrations"] := by
  rw [Scaffold.resolve_migrationsFolder, repeated.landed.extended.resolve, repeated.place]

theorem isFolder_migrations
    (repeated : Repeated request tree later first second before after exporter) :
    later.isFolder (migrationsFolder request.folder) = .ok true := by
  obtain ⟨existing, _, onDisk, _⟩ := exists_of_assignKeys repeated.again.assigned
  have names : Path.namesOf "Database/Migrations".toList = ["Database", "Migrations"] := by
    decide
  have kind := repeated.landed.spec.leaves.kindAt?_eq_folder repeated.plain
    (by decide : "Database/Migrations" ∈ moduleFolders)
  rw [Exporter.locationOf, names, repeated.place, ← repeated.landed.extended.resolve] at kind
  exact isFolder_migrationsFolder repeated.landed.laterSound repeated.isFolder_folder kind onDisk

/-- The second run finds the migration of a key that the first one has rendered. -/
theorem mem_names
    (repeated : Repeated request tree later first second before after exporter)
    {file : OutputFile} (member : file ∈ before.rendering.files) {name : String}
    (lies : LiesIn file.path "Database/Migrations" name) :
    name ∈ later.names (migrationsFolder request.folder) := by
  have names : Path.namesOf "Database/Migrations".toList = ["Database", "Migrations"] := by
    decide
  obtain ⟨found, located, _⟩ := Tree.isFolder_eq_true_iff.mp repeated.isFolder_migrations
  refine Tree.mem_names_iff.mpr ⟨found, located, ?_⟩
  have there := (repeated.landed.spec.leaves.meets file member).kindAt?_ne_none repeated.plain
    lies.isPlainPath
  rwa [Exporter.locationOf, lies.namesOf, names, ← List.append_assoc,
    ← repeated.resolve_migrationsFolder, ← Tree.locate_eq_resolve located] at there

/-- A new migration has the key that the first run gave to its table. -/
theorem key_of_new
    (repeated : Repeated request tree later first second before after exporter) {name : String}
    (listed : name ∈ later.names (migrationsFolder request.folder))
    (new : name ∉ tree.names (migrationsFolder request.folder)) :
    ∃ descriptor ∈ before.descriptors, ∃ key,
      Keyed.get? before.keys descriptor.entity = some key ∧
        name = fileName key descriptor.table := by
  obtain ⟨there, absent⟩ := (repeated.landed.extended.mem_names_or_new repeated.sound
    (isSteady_migrationsFolder repeated.isSteady_folder) listed).resolve_left new
  rw [repeated.resolve_migrationsFolder] at there absent
  have notMade : ¬ exporter.Makes before.rendering.files
      (exporter.folder.names ++ ["Database", "Migrations"] ++ [name]) := by
    intro makes
    have short := Exporter.length_le_of_makes repeated.landed.exists_liesIn makes
    simp at short
  have content : (later.contentAt? (exporter.folder.names ++ ["Database", "Migrations"] ++
      [name])).isSome = true := by
    obtain ⟨kind, found⟩ := Option.ne_none_iff_exists'.mp there
    cases kind with
    | file => exact (Tree.kindAt?_eq_file_iff.mp found).2
    | folder =>
        rcases repeated.growth.folders _ found with early | makes
        · rw [absent] at early
          cases early
        · exact absurd makes notMade
  have single {other : String} (plain : IsPlainName other) :
      exporter.folder.names ++ ["Database", "Migrations"] ++ [name] ≠
        exporter.locationOf other := by
    intro same
    have lengths := congrArg List.length same
    simp [Exporter.locationOf, Path.namesOf_plain plain] at lengths
  rcases repeated.writes_of_new content (Tree.kindAt?_eq_none_iff.mp absent).2 with
    (manifest | ⟨file, member, here⟩) | ledger
  · exact absurd manifest (single isPlainName_manifestName)
  · obtain ⟨folder, last, lies⟩ := repeated.landed.exists_liesIn file member
    rw [Exporter.locationOf, List.append_assoc, List.append_cancel_left_eq] at here
    obtain ⟨above, rfl⟩ := lies.of_namesOf here.symm
    have checked : ∀ folder ∈ fileFolders, Path.namesOf folder.toList =
        ["Database", "Migrations"] → folder = "Database/Migrations" := by
      decide
    obtain rfl := checked folder lies.folder above
    obtain ⟨descriptor, among, key, _, given, same⟩ :=
      repeated.prepares.migration_of_liesIn repeated.sound repeated.landed.alphanumeric member lies
    exact ⟨descriptor, among, key, given, same⟩
  · exact absurd ledger (single isPlainName_ledgerName)

theorem tableCharacters
    (repeated : Repeated request tree later first second before after exporter)
    {descriptor : Descriptor} (member : descriptor ∈ before.descriptors) :
    descriptor.table.toList.all Text.isUnicodeWordCharacter = true := by
  refine List.all_eq_true.mpr fun c inside => ?_
  exact ((repeated.prepares.descriptors_named.2 descriptor member).1.tableCharacters c
    inside).isUnicodeWordCharacter

/-- The second run gives the same key to an entity that the first one has rendered. -/
theorem get?_keys_eq
    (repeated : Repeated request tree later first second before after exporter)
    {descriptor : Descriptor} (member : descriptor ∈ before.descriptors)
    (rendered : ((request.plan tree before.keys).filesOf descriptor).isOk = true) :
    Keyed.get? after.keys descriptor.entity = Keyed.get? before.keys descriptor.entity := by
  cases given : Keyed.get? before.keys descriptor.entity with
  | none =>
      have same := repeated.isSome_keys descriptor.entity
      rw [given, Option.isSome_none, Option.isSome_eq_false_iff, Option.isNone_iff_eq_none] at same
      exact same
  | some key =>
      obtain ⟨earlier, observed, earlierOnDisk, _⟩ :=
        exists_of_assignKeys repeated.prepares.assigned
      obtain ⟨existing, _, onDisk, _⟩ := exists_of_assignKeys repeated.again.assigned
      have wanted := repeated.wanted_of_isSome member (by rw [given]; rfl)
      have again := repeated.again.assigned
      rw [repeated.descriptors_eq] at again
      have distinct := repeated.prepares.descriptors_named.1
      refine get?_keys_of_existing again distinct onDisk wanted ?_
      rw [keysIn_eq repeated.landed.laterSound onDisk]
      obtain ⟨file, among, lies⟩ := repeated.exists_migration member rendered given
      have reads {other : Descriptor} (otherWanted :
          other ∈ wantedDescriptors request.selection before.descriptors) {text : String}
          (known : Keyed.get? before.keys other.entity = some text) :
          ofFileName? (fileName text other.table) = some (other.table, text) := by
        have otherMember := wantedDescriptors_subset _ _ otherWanted
        exact ofFileName?_of_assignKeys repeated.prepares.assigned distinct repeated.sequenceSound
          repeated.sound otherWanted
          (repeated.prepares.descriptors_named.2 other otherMember).1.table
          (repeated.tableCharacters otherMember) known
      refine Sequence.get?_existingKeys_of_added (Tree.names_pairwise _ _)
        (Tree.names_pairwise _ _) (repeated.landed.extended.names_subset _) (fun known isKnown => ?_)
        (repeated.mem_names among lies) (reads wanted given) fun name listed new other read => ?_
      · rw [← keysIn_eq repeated.sound earlierOnDisk] at isKnown
        have old := get?_keys_of_existing repeated.prepares.assigned distinct earlierOnDisk wanted
          isKnown
        rw [given] at old
        exact (Option.some.inj old).symm
      · obtain ⟨maker, makerMember, text, makerGiven, rfl⟩ := repeated.key_of_new listed new
        have makerWanted := repeated.wanted_of_isSome makerMember (by rw [makerGiven]; rfl)
        rw [reads makerWanted makerGiven, Option.some.injEq, Prod.mk.injEq] at read
        obtain ⟨sameTable, rfl⟩ := read
        have same := List.inj_on_of_nodup_map
          (wantedDescriptors_distinct request.selection before.descriptors) makerWanted wanted
          sameTable
        rw [same, given] at makerGiven
        exact (Option.some.inj makerGiven).symm

/-! ## Files -/

theorem rekeys (repeated : Repeated request tree later first second before after exporter) :
    RenderPlan.Rekeys (request.plan later after.keys) (request.plan tree before.keys) :=
  ⟨rfl, rfl, repeated.follows⟩

theorem filesOf_ne_tooLong
    (repeated : Repeated request tree later first second before after exporter)
    {descriptor : Descriptor} (member : descriptor ∈ before.descriptors) :
    (request.plan later after.keys).filesOf descriptor ≠ .error .tooLong := by
  rw [← repeated.descriptors_eq] at member
  exact repeated.again.renders.short descriptor member

/-- The second run renders the entities that the first one has rendered. -/
theorem isOk_filesOf
    (repeated : Repeated request tree later first second before after exporter)
    {descriptor : Descriptor} (member : descriptor ∈ before.descriptors) :
    ((request.plan later after.keys).filesOf descriptor).isOk =
      ((request.plan tree before.keys).filesOf descriptor).isOk :=
  (repeated.rekeys.isOk_filesOf (repeated.isSome_keys descriptor.entity)).resolve_left
    (repeated.filesOf_ne_tooLong member)

theorem entityFiles_eq
    (repeated : Repeated request tree later first second before after exporter) :
    (request.plan later after.keys).entityFiles after.descriptors =
      (request.plan tree before.keys).entityFiles before.descriptors := by
  rw [repeated.descriptors_eq, RenderPlan.entityFiles, RenderPlan.entityFiles]
  refine List.flatMap_congr fun descriptor member => ?_
  have alike := repeated.isOk_filesOf member
  cases rendered : (request.plan tree before.keys).filesOf descriptor with
  | ok files =>
      have same := (repeated.rekeys.filesOf_eq
        (repeated.get?_keys_eq member (by rw [rendered]; rfl))).resolve_left
        (repeated.filesOf_ne_tooLong member)
      rw [same, rendered]
  | error error =>
      rw [rendered] at alike
      cases again : (request.plan later after.keys).filesOf descriptor with
      | error other => rfl
      | ok files =>
          rw [again] at alike
          cases alike

/-- The second run enters no entity into the ledger that it loads. -/
theorem ledger_again
    (repeated : Repeated request tree later first second before after exporter) :
    after.rendering.ledger = { before.rendering.ledger with unsaved := false } := by
  rw [repeated.again.renders.ledger, ← repeated.loaded_eq, repeated.descriptors_eq]
  refine RenderPlan.entered_of_knows (repeated.isWhole _ _) fun descriptor member rendered => ?_
  rw [repeated.isOk_filesOf member] at rendered
  have known := repeated.landed.knows repeated.whole member rendered
  rw [repeated.loaded_eq]
  exact ⟨known.listed, known.seeded⟩

/-- The second run renders the same files. -/
theorem files_eq
    (repeated : Repeated request tree later first second before after exporter) :
    after.rendering.files = before.rendering.files := by
  obtain ⟨_, first⟩ := repeated.prepares.renders.files repeated.prepares.entityFiles_ne_nil
  obtain ⟨noDisk, second⟩ := repeated.again.renders.files repeated.again.entityFiles_ne_nil
  have aggregates := (repeated.rekeys.aggregatesOf_eq request.module
    after.rendering.ledger).resolve_left (noDisk .nameTooLong)
  have sameLedger : (request.plan tree before.keys).aggregatesOf request.module
      after.rendering.ledger =
        (request.plan tree before.keys).aggregatesOf request.module before.rendering.ledger := by
    rw [repeated.ledger_again]
    rfl
  rw [first, second, repeated.entityFiles_eq, aggregates, sameLedger]

/-! ## The second export -/

/-- Exporting the files again changes nothing but the manifest. -/
theorem contentAt?_again
    (repeated : Repeated request tree later first second before after exporter) {again : Exporter}
    (repeats : again.Repeats exporter) :
    (again.run later after.rendering.files).IsClean ∧
      after.rendering.ledger.unsaved = false ∧
      (∀ location, location ≠ exporter.locationOf manifestName →
        (again.run later after.rendering.files).tree.contentAt? location =
          later.contentAt? location) ∧
      (((again.run later after.rendering.files).tree.contentAt?
          (exporter.locationOf manifestName)).isSome = true →
        (later.contentAt? (exporter.locationOf manifestName)).isSome = true) := by
  rw [repeated.files_eq, repeated.ledger_again]
  have real : again.dryRun = false := repeats.real.trans repeated.real
  have leaves := repeats.leaves repeated.landed.spec.leaves
  have accepted : again.refusal? = none := by
    rw [Exporter.refusal?, repeats.folder]
    exact repeated.landed.spec.accepted
  obtain ⟨clean, kept⟩ := Exporter.run_of_leaves (repeats.isPlain repeated.plain) real
    accepted repeated.landed.laterSound repeated.landed.isPlainPath leaves
  rw [repeats.locationOf] at kept
  refine ⟨clean, rfl, kept, fun listed => ?_⟩
  exact Exporter.isSome_manifest_of_repeats repeats repeated.plain repeated.real repeated.sound
    repeated.landed.isPlainPath (repeated.landed.locationOf_ne isPlainName_manifestName) repeated.lands.clean
    repeated.landed.spec.afterwards repeated.landed.laterSound listed repeated.landed.spec.leaves

end Repeated

/-! ## Two runs -/

/-- Nothing of a tree is changed or new in another one except a manifest. -/
def Disk.Tree.AgreesExcept (manifest : Location) (earlier later : Tree) : Prop :=
  (∀ location, location ≠ manifest →
    later.contentAt? location = earlier.contentAt? location) ∧
  ((later.contentAt? manifest).isSome = true → (earlier.contentAt? manifest).isSome = true)

namespace Run

/-- A run that comes to the same request again leaves everything but the manifest as it is. -/
theorem agreesExcept_of_comes
    {generator : Generator} (real : generator.dryRun = false) (time : String) {request : Request}
    (whole : request.selection = none) {first second start again : Run}
    (sound : start.tree.IsSound) (sequenceSound : start.sequence.IsSound)
    (steady : request.config.IsSteady start.tree request.module)
    (comes : Comes generator request start first) (running : first.stopped = none)
    (clean : first.report.exportErrors = [])
    (comesAgain : Comes { generator with time } request again second)
    (same : again.tree = first.tree) :
    Tree.AgreesExcept (start.tree.resolve (request.folder.child manifestName)) first.tree
      second.tree := by
  cases comesAgain with
  | fails failed nothing =>
      rw [failed.tree, same]
      exact ⟨fun _ _ => rfl, id⟩
  | exports after middleAgain prepares exports complete =>
      cases comes with
      | fails failed nothing =>
          rw [same, failed.tree] at prepares
          exact absurd prepares (nothing running _ _)
      | exports before middle preparesFirst exportsFirst completeFirst =>
          obtain ⟨lands, _⟩ := lands_of_exportFiles exportsFirst.exported real running clean
          rw [exportsFirst.tree] at lands
          have treeAgain : middleAgain.tree = first.tree := exports.tree.trans same
          rw [same] at prepares
          have repeated : Repeated request start.tree first.tree start.sequence again.sequence
              before after (generator.exporter request.config start.tree request.folder
                before.rendering.ledger) :=
            ⟨preparesFirst, prepares, sound, sequenceSound, steady, whole,
              generator.isPlain_exporter _ sound preparesFirst.isProper_folder _,
              generator.names_exporter _ _ _ _, real, lands⟩
          have repeats := generator.repeats_exporter request.config repeated.landed.extended request.folder
            before.rendering.ledger after.rendering.ledger time
          obtain ⟨cleanAgain, saved, contents, listed⟩ := repeated.contentAt?_again repeats
          rw [← treeAgain] at cleanAgain contents listed
          rw [← tree_exportFiles cleanAgain saved, ← exports.exported] at contents listed
          rw [treeAgain] at contents listed
          have manifest : start.tree.resolve (request.folder.child manifestName) =
              (generator.exporter request.config start.tree request.folder
                before.rendering.ledger).locationOf manifestName := by
            rw [Tree.resolve_child _ _ isPlainName_manifestName, Exporter.locationOf,
              Path.namesOf_plain isPlainName_manifestName, generator.names_exporter]
          rw [manifest]
          exact ⟨contents, listed⟩

/-- Adding a definition comes to what its request asks for. -/
theorem comes_dynamicModule
    (generator : Generator) (tree : Tree) (sequence : Sequence) (config : Config)
    (definition : ModuleDefinition) :
    Comes generator ⟨config, false, none, definition⟩ (generator.start tree sequence .append)
      (generator.dynamicModule tree sequence config true definition) := by
  rw [Generator.dynamicModule, Generator.addDefinition, Generator.definitionMode, if_pos rfl]
  dsimp only
  cases config.hasModule (generator.start tree sequence .append).tree definition.studlyName with
  | error error =>
      exact .fails ⟨rfl, .inl (by simp [withAnswer, stop]), rfl⟩ fun running => by
        simp [withAnswer, stop] at running
  | ok isThere =>
      rw [withAnswer, Bool.not_true, Bool.and_false, if_neg Bool.false_ne_true]
      exact generate_spec generator ⟨config, false, none, definition⟩
        (generator.start tree sequence .append) rfl

end Run

/--
Adding a definition to a module a second time, with any sequence of keys and any clock, changes no
file but the manifest, and adds none.
-/
theorem dynamicModule_append_idempotent
    (generator : Generator) (real : generator.dryRun = false) (time : String) (config : Config)
    (definition : ModuleDefinition) {tree : Tree} (sound : tree.IsSound)
    (steady : config.IsSteady tree definition.studlyName) {first : Sequence}
    (firstSound : first.IsSound) (second : Sequence) {before after : Run}
    (added : before = generator.dynamicModule tree first config true definition)
    (again : after =
      ({ generator with time } : Generator).dynamicModule before.tree second config true definition)
    (running : before.stopped = none) (clean : before.report.exportErrors = []) :
    Tree.AgreesExcept
      (tree.resolve ((config.moduleFolder definition.studlyName).child manifestName))
      before.tree after.tree := by
  have comes := Run.comes_dynamicModule generator tree first config definition
  have comesAgain :=
    Run.comes_dynamicModule { generator with time } before.tree second config definition
  rw [← added] at comes
  rw [← again] at comesAgain
  have agrees := @Run.agreesExcept_of_comes generator real time ⟨config, false, none, definition⟩
    rfl before after (generator.start tree first .append)
    (Generator.start { generator with time } before.tree second .append)
  exact agrees sound firstSound steady comes running clean comesAgain rfl

/-! ## A module that is added twice -/

/-- A run that adds a definition, and the run that adds it again. -/
def Generator.addTwice (generator : Generator) (tree : Tree) (sequence : Sequence)
    (definition : ModuleDefinition) : Run × Run :=
  let first := generator.dynamicModule tree sequence generator.config true definition
  (first, generator.dynamicModule first.tree first.sequence generator.config true definition)

/-- A sequence whose clock stands still. -/
def stillSequence (year : Nat) : Sequence :=
  ⟨⟨[], ⟨year, 1, 15, 10, 30, 0⟩⟩, []⟩

/-- A module of one entity. -/
def blogOfPosts : ModuleDefinition :=
  ⟨"Blog", [{ name := "Post" }]⟩

theorem Config.isSteady_blog : ({} : Config).IsSteady {} "Blog" := by
  refine ⟨?_, nofun, fun folder given => ?_, fun folder given => ?_⟩
  · exact Tree.IsSteady.of_not_mem (by decide)
  · obtain rfl : "app/Models" = folder := Option.some.inj given
    exact Tree.IsSteady.of_not_mem (by decide)
  · obtain rfl : "app/Models" = folder := Option.some.inj given
    decide

theorem Migration.isSound_stillSequence : (stillSequence 2024).IsSound := by
  refine ⟨?_, by simp [stillSequence, Keyed.get?]⟩
  unfold Clock.IsProper
  decide

theorem addTwice_blog_exports :
    let runs := Generator.addTwice { config := {}, time := "" } {} (stillSequence 2024) blogOfPosts
    (runs.1.stopped = none ∧ runs.1.report.exportErrors = []) ∧
      runs.1.report.manifest.isSome = true := by
  decide +kernel

/-- A module with one entity, added to an empty tree. -/
theorem dynamicModule_append_idempotent_blog :
    let runs := Generator.addTwice { config := {}, time := "" } {} (stillSequence 2024) blogOfPosts
    (runs.1.stopped = none ∧ runs.1.report.exportErrors = []) ∧
      Tree.AgreesExcept ["Modules", "Blog", ".modulegen-manifest.json"] runs.1.tree runs.2.tree := by
  -- the runs stay a variable below: nothing may evaluate them
  obtain ⟨runs, made⟩ : ∃ runs, runs = Generator.addTwice { config := {}, time := "" } {}
      (stillSequence 2024) blogOfPosts := ⟨_, rfl⟩
  have exports := addTwice_blog_exports.1
  dsimp only at exports ⊢
  rw [← made] at exports ⊢
  obtain ⟨running, clean⟩ := exports
  have added : runs.1 = Generator.dynamicModule { config := {}, time := "" } {}
      (stillSequence 2024) {} true blogOfPosts := by
    rw [made, Generator.addTwice]
  have again : runs.2 = Generator.dynamicModule { config := {}, time := "" } runs.1.tree
      runs.1.sequence {} true blogOfPosts := by
    rw [made, Generator.addTwice]
  have agrees := dynamicModule_append_idempotent { config := {}, time := "" } rfl "" {} blogOfPosts
    Tree.isSound_empty Config.isSteady_blog Migration.isSound_stillSequence runs.1.sequence added
    again running clean
  have manifest : ({} : Tree).resolve (((({} : Config).moduleFolder blogOfPosts.studlyName)).child
      manifestName) = ["Modules", "Blog", ".modulegen-manifest.json"] := by
    decide
  rw [manifest] at agrees
  exact ⟨⟨running, clean⟩, agrees⟩

/-- The first of two runs exports its files, and the second one changes a file nevertheless. -/
def ChangesAgain (runs : Run × Run) (place : Location) : Prop :=
  runs.1.stopped = none ∧ runs.1.report.exportErrors = [] ∧
    runs.2.tree.contentAt? place ≠ runs.1.tree.contentAt? place

instance (runs : Run × Run) (place : Location) : Decidable (ChangesAgain runs place) :=
  inferInstanceAs (Decidable (_ ∧ _ ∧ _))

/-- Settings with fewer files. -/
def briefConfig : Config :=
  { writeManifest := false, generateTests := false, generateWebRoutes := false }

/-- A module of two entities; the second one points to the controller of the first one. -/
def blogOfPages : ModuleDefinition :=
  let relation : Document.Value :=
    .mapping [(.text "name", .text "controller"), (.text "type", .text "belongsTo"),
      (.text "model", .text "PostController")]
  ⟨"Blog", [{ name := "Post" }, { name := "Page", relations := [relation] }]⟩

/-- A tree with a stub. -/
def treeWithStub : Tree where
  folders := [["stubs"]]
  files := [(["stubs", "config.stub"], .text "<?php")]

/-- Under a clock before the year 1000 the second run adds a migration. -/
theorem changesAgain_earlyClock :
    ChangesAgain
      (Generator.addTwice { config := briefConfig, time := "" } {} (stillSequence 999) blogOfPosts)
      ["Modules", "Blog", "Database", "Migrations",
        "999_01_15_103000_01_create_posts_table.php"] := by
  decide +kernel

/-- When controllers count as models of the application the second run adds an entity. -/
theorem changesAgain_controllers :
    ChangesAgain
      (Generator.addTwice
        { config :=
            { briefConfig with
              appModelsPath := some "Modules/Blog/Http/Controllers"
              strictReferences := true }
          time := "" } {} (stillSequence 2024) blogOfPages)
      ["Modules", "Blog", "Models", "Page.php"] := by
  decide +kernel

/-- The second run finds a stub to which a path through the module leads. -/
theorem changesAgain_stub :
    ChangesAgain
      (Generator.addTwice
        { config := { briefConfig with stubsPath := some "Modules/Blog/../../stubs" }, time := "" }
        treeWithStub (stillSequence 2024) blogOfPosts)
      ["Modules", "Blog", "config", "config.php"] := by
  decide +kernel

/--
A second run may add a migration or an entity, or render the text of another stub: under a clock
before the year 1000, with controllers as models of the application, or with a path through the
module.
-/
theorem dynamicModule_append_changes_files :
    ChangesAgain
        (Generator.addTwice { config := briefConfig, time := "" } {} (stillSequence 999) blogOfPosts)
        ["Modules", "Blog", "Database", "Migrations",
          "999_01_15_103000_01_create_posts_table.php"] ∧
      ChangesAgain
        (Generator.addTwice
          { config :=
              { briefConfig with
                appModelsPath := some "Modules/Blog/Http/Controllers"
                strictReferences := true }
            time := "" } {} (stillSequence 2024) blogOfPages)
        ["Modules", "Blog", "Models", "Page.php"] ∧
      ChangesAgain
        (Generator.addTwice
          { config := { briefConfig with stubsPath := some "Modules/Blog/../../stubs" }, time := "" }
          treeWithStub (stillSequence 2024) blogOfPosts)
        ["Modules", "Blog", "config", "config.php"] :=
  ⟨changesAgain_earlyClock, changesAgain_controllers, changesAgain_stub⟩

end Scaffold
