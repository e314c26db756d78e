import Scaffold.Proofs.Export.DryRun
import Scaffold.Proofs.Output.Spelling
import Scaffold.Proofs.Run.Layers
import Scaffold.Proofs.Run.Tasks

/-!
# Generation stays inside the module

Whatever is rendered for a module has a path that leads down from its folder.  A run therefore
writes below that folder only, whatever it is asked to do and however it ends, and the folders that
it makes lie below that folder or lead to it.
-/

namespace Scaffold

open Scaffold.Disk (Location Path Tree)
open Scaffold.Disk.Tree (Grows)

/-! ## What is rendered -/

namespace RenderPlan

variable {plan : RenderPlan}

theorem exists_of_mem_addEntity
    {state : ModuleRendering} {descriptor : Descriptor} {file : OutputFile}
    (member : file ∈ (plan.addEntity state descriptor).files) :
    file ∈ state.files ∨ ∃ files, plan.filesOf descriptor = .ok files ∧ file ∈ files := by
  cases found : plan.filesOf descriptor with
  | ok files =>
      have generated := found
      rw [filesOf] at generated
      simp only [addEntity, generated] at member
      exact (List.mem_append.mp member).imp_right fun here => ⟨files, rfl, here⟩
  | error error =>
      rw [filesOf] at found
      simp only [addEntity, found] at member
      left
      split at member
      · rename_i same
        cases same
      · exact member
      · exact member

theorem exists_of_mem_addEntities
    {descriptors : List Descriptor} {state : ModuleRendering} {file : OutputFile}
    (member : file ∈ (plan.addEntities descriptors state).files) :
    file ∈ state.files ∨
      ∃ descriptor ∈ descriptors, ∃ files, plan.filesOf descriptor = .ok files ∧ file ∈ files := by
  induction descriptors generalizing state with
  | nil => exact .inl member
  | cons descriptor rest hypothesis =>
      rw [addEntities, List.foldl_cons, ← addEntities] at member
      rcases hypothesis member with early | ⟨other, later, files, rendered, within⟩
      · split_ifs at early
        · exact .inl early
        · rcases exists_of_mem_addEntity early with before | ⟨files, rendered, within⟩
          · exact .inl before
          · exact .inr ⟨descriptor, by simp, files, rendered, within⟩
      · exact .inr ⟨other, by simp [later], files, rendered, within⟩

theorem exists_of_mem_addAggregates
    {module : String} {state : ModuleRendering} {file : OutputFile}
    (member : file ∈ (plan.addAggregates module state).files) :
    file ∈ state.files ∨
      ∃ ledger files, plan.aggregatesOf module ledger = .ok files ∧ file ∈ files := by
  rw [addAggregates] at member
  split_ifs at member
  · exact .inl member
  · dsimp only at member
    split at member
    · rename_i files rendered
      exact (List.mem_append.mp member).imp_right fun here => ⟨state.ledger, files, rendered, here⟩
    · exact .inl member
    · exact .inl member

/-- Every file of a rendering is that of an entity or an aggregate, also if it is stopped. -/
theorem exists_of_mem_run
    {module : String} {ledger : Ledger} {report : Report} {descriptors : List Descriptor}
    {file : OutputFile} (member : file ∈ (plan.run module ledger report descriptors).files) :
    (∃ descriptor ∈ descriptors, ∃ files, plan.filesOf descriptor = .ok files ∧ file ∈ files) ∨
      ∃ ledger files, plan.aggregatesOf module ledger = .ok files ∧ file ∈ files := by
  have shape : plan.run module ledger report descriptors =
      let rendered := plan.addEntities descriptors { ledger, report }
      let complete :=
        if rendered.stopped.isSome then rendered else plan.addAggregates module rendered
      if complete.stopped.isSome then complete else close complete :=
    rfl
  have entities (member : file ∈ (plan.addEntities descriptors { ledger, report }).files) :
      ∃ descriptor ∈ descriptors, ∃ files, plan.filesOf descriptor = .ok files ∧ file ∈ files :=
    (exists_of_mem_addEntities member).resolve_left List.not_mem_nil
  rw [shape] at member
  dsimp only at member
  generalize plan.addEntities descriptors { ledger, report } = rendered at member entities
  have complete (member : file ∈ (if rendered.stopped.isSome then rendered
      else plan.addAggregates module rendered).files) :
      (∃ descriptor ∈ descriptors, ∃ files, plan.filesOf descriptor = .ok files ∧ file ∈ files) ∨
        ∃ ledger files, plan.aggregatesOf module ledger = .ok files ∧ file ∈ files := by
    split_ifs at member
    · exact .inl (entities member)
    · exact (exists_of_mem_addAggregates member).imp_left entities
  generalize (if rendered.stopped.isSome then rendered
    else plan.addAggregates module rendered) = whole at member complete
  split_ifs at member
  · exact complete member
  · exact complete member

/-- The files of an entity lie inside the module. -/
theorem isInnerPath_of_filesOf
    {descriptor : Descriptor} (named : descriptor.IsNamed)
    (given : Descriptor.AreNamed ((plan.chosen? descriptor.entity).getD []))
    (keyed : ∀ key, Keyed.get? plan.keys descriptor.entity = some key →
      ∀ c ∈ key.toList, Migration.IsKeyCharacter c)
    {files : List OutputFile} (rendered : plan.filesOf descriptor = .ok files) {file : OutputFile}
    (within : file ∈ files) :
    IsInnerPath file.path := by
  obtain ⟨kind, _, one, planned, same⟩ :=
    (exists_plan_of_filesOf rendered file.path).mp ⟨file, within, rfl⟩
  have fileKey : ∀ key, Keyed.get? plan.keys descriptor.entity = some key → IsFileKey key := by
    intro key found slash
    exact absurd (keyed key found '/' slash) (by decide)
  obtain ⟨_, _, lies⟩ :=
    (Descriptor.isPlaced_of_mem_plans named given fileKey planned).exists_liesIn
  rw [← same]
  exact lies.isInnerPath (Descriptor.isSpelled_of_mem_plans named given keyed planned)

/-- The aggregates lie inside the module. -/
theorem isInnerPath_of_aggregatesOf
    {module : String} (named : isClassName module = true) {ledger : Ledger}
    {files : List OutputFile} (rendered : plan.aggregatesOf module ledger = .ok files)
    {file : OutputFile} (within : file ∈ files) :
    IsInnerPath file.path := by
  obtain ⟨_, _, _, _, characters⟩ := Text.exists_of_isClassName named
  rw [aggregatesOf, Aggregate.generate] at rendered
  obtain ⟨one, planned, same⟩ := (exists_plan_of_output rendered file.path).mp ⟨file, within, rfl⟩
  obtain ⟨other, among, equal⟩ := List.mem_map.mp planned
  obtain ⟨_, _, lies, _⟩ := Aggregate.liesElsewhere_of_mem_plans characters among
  rw [← same, ← Except.ok.inj equal]
  exact lies.isInnerPath (Aggregate.isSpelled_of_mem_plans characters among)

end RenderPlan

/--
Whatever is rendered for a definition without errors lies inside the module: with any ledger, from
the entities that compile with any registry, and with the keys that any sequence gives them.
-/
def Request.RendersInside (request : Request) (tree : Tree) : Prop :=
  Review.errors (request.definition.review (some request.config) false) = [] →
    ∀ (registry : Registry) (sequence : Migration.Sequence) (keys : Keyed String),
      (assignKeys tree request.folder sequence request.selection
          (request.compilation registry).descriptors).1 = .ok keys →
        ∀ (ledger : Ledger) (report : Report),
          ∀ file ∈ ((request.plan tree keys).run request.module ledger report
              (request.compilation registry).descriptors).files,
            IsInnerPath file.path

theorem Request.rendersInside
    {request : Request} {tree : Tree} (sound : tree.IsSound)
    (alphanumeric : request.IsAlphanumeric) :
    request.RendersInside tree := by
  intro reviewed registry sequence keys assigned ledger report file member
  have named := ModuleDefinition.isNamed_of_review reviewed
  rcases RenderPlan.exists_of_mem_run member with ⟨descriptor, among, files, rendered, within⟩ |
    ⟨_, files, rendered, within⟩
  · have descriptorNamed := ((named.compile registry _ _).2 descriptor among).1
    have given : Descriptor.AreNamed
        (((request.plan tree keys).chosen? descriptor.entity).getD []) :=
      alphanumeric descriptor.entity
    apply RenderPlan.isInnerPath_of_filesOf descriptorNamed given _ rendered within
    intro key found
    exact isKeyCharacter_of_assignKeys sound assigned found
  · exact RenderPlan.isInnerPath_of_aggregatesOf named.module rendered within

/-! ## What is written -/

namespace Disk.Tree

/-- A location lies below a folder. -/
def IsBelow (tree : Tree) (folder : Path) (location : Location) : Prop :=
  ∃ names, names ≠ [] ∧ location = tree.resolve folder ++ names

/-- A location is that of a folder or lies on the way to it, along its names or from the root. -/
def LeadsTo (tree : Tree) (folder : Path) (location : Location) : Prop :=
  tree.Passes folder location ∨ location <+: tree.resolve folder

/-- A later tree differs from an earlier one below a folder only, and by folders that lead to it. -/
def GrowsBelow (folder : Path) (earlier later : Tree) : Prop :=
  Grows (earlier.IsBelow folder)
    (fun location => earlier.IsBelow folder location ∨ earlier.LeadsTo folder location) earlier later

variable {earlier later : Tree} {folder : Path}

theorem isBelow_or_leadsTo {location names : Location}
    (before : location <+: earlier.resolve folder ++ names) :
    earlier.IsBelow folder location ∨ earlier.LeadsTo folder location := by
  rcases List.prefix_or_prefix_of_prefix before (List.prefix_append _ _) with above | ⟨rest, rfl⟩
  · exact .inr (.inr above)
  · by_cases here : rest = []
    · rw [here, List.append_nil]
      exact .inr (.inr List.prefix_rfl)
    · exact .inl ⟨rest, here, rfl⟩

theorem GrowsBelow.trans {middle : Tree} (first : GrowsBelow folder earlier middle)
    (second : GrowsBelow folder middle later) :
    GrowsBelow folder earlier later := by
  have below {location : Location} (below : middle.IsBelow folder location) :
      earlier.IsBelow folder location := by
    rwa [IsBelow, first.resolve] at below
  have leads {location : Location} (leads : middle.LeadsTo folder location) :
      earlier.LeadsTo folder location := by
    simpa only [LeadsTo, Passes, first.resolve] using leads
  exact Grows.trans first
    (second.mono (fun _ => below) fun _ made => made.imp below leads)

end Disk.Tree

/-- An export of files with plain paths stays below its folder, however it ends. -/
theorem Exporter.growsBelow_run
    {exporter : Exporter} (plain : exporter.IsPlain) {tree : Tree} (sound : tree.IsSound)
    {folder : Path} (place : exporter.folder.names = tree.resolve folder)
    {files : List OutputFile}
    (inner : ∀ file ∈ files, IsPlainPath file.path ∧ Path.namesOf file.path.toList ≠ []) :
    tree.GrowsBelow folder (exporter.run tree files).tree := by
  have writes {location : Location} (written : exporter.Writes files location) :
      tree.IsBelow folder location := by
    rcases written with rfl | ⟨file, member, rfl⟩
    · exact ⟨[manifestName], by simp, by rw [locationOf, namesOf_manifestName, place]⟩
    · exact ⟨_, (inner file member).2, by rw [locationOf, place]⟩
  have within (path : String) {location : Location}
      (before : location <+: exporter.locationOf path) :
      tree.IsBelow folder location ∨ tree.LeadsTo folder location := by
    rw [locationOf, place] at before
    exact Tree.isBelow_or_leadsTo before
  have makes {location : Location} (made : exporter.Makes files location) :
      tree.IsBelow folder location ∨ tree.LeadsTo folder location := by
    rcases made with ⟨name, _, before⟩ | before | ⟨file, _, before⟩
    · exact within name before
    · exact within manifestName (before.trans (List.dropLast_prefix _))
    · exact within file.path (before.trans (List.dropLast_prefix _))
  cases dry : exporter.dryRun with
  | true =>
      rw [tree_run_of_dry dry]
      exact .refl tree
  | false =>
      have exported := grows_exported plain sound fun file member => (inner file member).1
      have listed := grows_run plain dry (exported.sound sound)
      exact (exported.mono (fun _ => writes) fun _ => makes).trans
        (listed.mono (fun _ here => writes (.inl here)) fun _ before => makes (.inr (.inl before)))

namespace Run

variable {generator : Generator} {config : Config} {folder : Path} {ledger : Ledger}
  {files : List OutputFile}

/-- Saving a ledger writes its file, or leaves everything as it was. -/
theorem growsBelow_saveLedger
    {run : Run} (sound : run.tree.IsSound) (proper : folder.IsProper) (mode : Disk.WriteMode) :
    run.tree.GrowsBelow folder (run.saveLedger mode folder ledger).tree := by
  have writing := (Tree.writeFile_spec sound mode (Lands.isProper_file proper)
    (.text ledger.text)).1
  have saved : (run.saveLedger mode folder ledger).tree =
      (run.tree.writeText mode (Ledger.file folder) ledger.text).1 := by
    rw [saveLedger, Ledger.save]
    cases run.tree.writeText mode (Ledger.file folder) ledger.text with
    | mk written answer => cases answer <;> rfl
  rw [saved]
  apply writing.mono
  · rintro _ rfl
    exact ⟨[ledgerName], by simp, Tree.resolve_child _ _ isPlainName_ledgerName⟩
  · intro location passed
    rw [Lands.parent_file] at passed
    exact .inr (.inl passed)

/-- Exporting files that lie inside a module stays below its folder. -/
theorem growsBelow_exportFiles
    {run : Run} (sound : run.tree.IsSound) (proper : folder.IsProper)
    (inner : ∀ file ∈ files, IsPlainPath file.path ∧ Path.namesOf file.path.toList ≠ []) :
    run.tree.GrowsBelow folder (run.exportFiles generator config folder ledger files).tree := by
  have plain := generator.isPlain_exporter config sound proper ledger
  have exported := Exporter.growsBelow_run plain sound
    (generator.names_exporter config run.tree folder ledger) inner
  rw [exportFiles]
  dsimp only
  rw [← Generator.exporter]
  generalize generator.exporter config run.tree folder ledger = exporter at *
  split
  · exact exported
  · rw [addExport]
    dsimp only
    split_ifs
    · have written : (({ run with tree := (exporter.run run.tree files).tree } : Run).addLogs
          (exporter.run run.tree files).logs).tree.IsSound :=
        Grows.sound exported sound
      exact Tree.GrowsBelow.trans exported (growsBelow_saveLedger written proper _)
    · exact exported

/-- A run that exports the files of a preparation stays below the folder of the module. -/
theorem Exports.growsBelow
    {request : Request} {preparation : Preparation} {before middle after : Run}
    (exports : Exports generator request preparation.rendering before middle after)
    (prepares : Prepares request before.tree before.sequence preparation)
    (sound : before.tree.IsSound) (alphanumeric : request.IsAlphanumeric) :
    before.tree.GrowsBelow request.folder after.tree := by
  have inner : ∀ file ∈ preparation.rendering.files,
      IsPlainPath file.path ∧ Path.namesOf file.path.toList ≠ [] := by
    intro file member
    obtain ⟨folder, name, lies⟩ := prepares.exists_liesIn sound alphanumeric member
    constructor
    · exact lies.isPlainPath
    · rw [lies.namesOf]
      exact List.append_ne_nil_of_right_ne_nil _ (List.cons_ne_nil _ _)
  rw [exports.exported, ← exports.tree]
  rw [← exports.tree] at sound
  exact growsBelow_exportFiles sound prepares.isProper_folder inner

end Run

/-! ## Tasks -/

/-- The settings and the module that a task is for, unless its file cannot be loaded. -/
def ModuleTask.target? (config : Config) (tree : Tree) : ModuleTask → Option (Config × String)
  | .start name | .select name _ _ => some (config, Text.studlyCase name)
  | .define definition _ => some (config, definition.studlyName)
  | .defineByFile path name settings _ =>
      match ModuleDocument.load tree path name settings with
      | .ok document => some (document.config, document.definition.studlyName)
      | .error _ => none

/-- A task without a file to load answers for its target, and otherwise nothing happens. -/
theorem Run.answers_target
    (generator : Generator) (tree : Tree) (sequence : Migration.Sequence) (task : ModuleTask) :
    (generator.perform tree sequence task).tree = tree ∨
      ∃ config module, task.target? generator.config tree = some (config, module) ∧
        Answers generator task config module tree (generator.perform tree sequence task) := by
  cases task with
  | defineByFile path name settings append =>
      cases loaded : ModuleDocument.load tree path name settings with
      | error error =>
          left
          rw [Generator.perform, Generator.fileModule, loaded]
          dsimp only
          split <;> rfl
      | ok document =>
          right
          refine ⟨document.config, document.definition.studlyName, ?_, ?_⟩
          · rw [ModuleTask.target?, loaded]
          · apply answers_fileModule
            intro other again
            rw [loaded] at again
            cases again
            exact ⟨rfl, rfl⟩
  | start name | select name _ _ =>
      exact .inr ⟨_, _, rfl, answers_perform sequence rfl⟩
  | define definition append =>
      exact .inr ⟨_, _, rfl, answers_perform sequence rfl⟩

/--
Whatever a run renders has a path that leads down from the folder of the module, and whatever it
writes lies below that folder: for every task, whether or not the run succeeds.
-/
theorem Generator.perform_stays_inside_module
    (generator : Generator) {tree : Tree} (sound : tree.IsSound) (sequence : Migration.Sequence)
    (task : ModuleTask) :
    (∀ request : Request, request.selection = task.selection? → request.RendersInside tree) ∧
      ((generator.perform tree sequence task).tree = tree ∨
        ∃ config module, task.target? generator.config tree = some (config, module) ∧
          isClassName module = true ∧
            tree.GrowsBelow (config.moduleFolder module)
              (generator.perform tree sequence task).tree) := by
  constructor
  · intro request selected
    exact Request.rendersInside sound (Request.isAlphanumeric_of_selection selected)
  · rcases Run.answers_target generator tree sequence task with same |
      ⟨config, module, target, answers⟩
    · exact .inl same
    · cases answers with
      | ends before begins fails => exact .inl (fails.tree.trans begins.tree)
      | asks before begins request asks comes =>
          cases comes with
          | fails failed _ => exact .inl (failed.tree.trans begins.tree)
          | exports preparation middle prepares exports _ =>
              have grown := exports.growsBelow prepares (begins.tree ▸ sound)
                (Request.isAlphanumeric_of_selection asks.selection)
              rw [begins.tree, Request.folder, asks.config, asks.module] at grown
              have named := prepares.isNamed.module
              rw [← Request.module, asks.module] at named
              exact .inr ⟨config, module, target, named, grown⟩

/-- A class name that asks for a place outside of the module. -/
def straySelection : Keyed String :=
  [("controller", "../../PostController")]

/-- The request that this class name leads to. -/
def strayRequest : Request :=
  ⟨briefConfig, false, some (Selection.ofRequests straySelection), blogOfPosts⟩

/-- What is compiled for it. -/
def strayDescriptors : List Descriptor :=
  (strayRequest.compilation { module := "Blog" }).descriptors

/-- What is rendered for it. -/
def strayRendering : ModuleRendering :=
  (strayRequest.plan emptyBlog []).run "Blog" (.ofModule "Blog")
    { mode := .individual, dryRun := false } strayDescriptors

theorem assignKeys_strayRequest :
    (assignKeys emptyBlog strayRequest.folder (stillSequence 2024) strayRequest.selection
      strayDescriptors).1 = .ok [] := by
  have checked : (assignKeys emptyBlog strayRequest.folder (stillSequence 2024)
      strayRequest.selection strayDescriptors).1.toOption = some [] := by
    decide
  generalize (assignKeys emptyBlog strayRequest.folder (stillSequence 2024)
    strayRequest.selection strayDescriptors).1 = assigned at checked ⊢
  cases assigned with
  | error error => cases checked
  | ok keys => rw [Option.some.inj checked]

/-- A controller with a stray name lies among the controllers of the module. -/
theorem perform_stays_inside_module_posts :
    let run := selectInBlog emptyBlog straySelection
    (emptyBlog.IsSound ∧ run.Succeeds ∧ run.tree ≠ emptyBlog) ∧
      emptyBlog.GrowsBelow (briefConfig.moduleFolder "Blog") run.tree ∧
      (strayRendering.files.head?.map (·.path) = some "Http/Controllers/PostController.php" ∧
        ∀ file ∈ strayRendering.files, IsInnerPath file.path) := by
  obtain ⟨rendersInside, growsBelow⟩ := Generator.perform_stays_inside_module
    { config := briefConfig, time := "" } isSound_emptyBlog (stillSequence 2024)
    (.select "Blog" straySelection none)
  have inside := rendersInside strayRequest rfl (by decide) { module := "Blog" }
    (stillSequence 2024) [] assignKeys_strayRequest (.ofModule "Blog")
    { mode := .individual, dryRun := false }
  have checked : ((selectInBlog emptyBlog straySelection).stopped = none ∧
      (selectInBlog emptyBlog straySelection).report.success = true) ∧
      (selectInBlog emptyBlog straySelection).tree.kindAt?
          ["Modules", "Blog", "Http", "Controllers", "PostController.php"] ≠
        emptyBlog.kindAt? ["Modules", "Blog", "Http", "Controllers", "PostController.php"] := by
    decide +kernel
  obtain ⟨⟨running, success⟩, changed⟩ := checked
  have different : (selectInBlog emptyBlog straySelection).tree ≠ emptyBlog :=
    fun same => changed (by rw [same])
  refine ⟨⟨isSound_emptyBlog, ⟨running, success⟩, different⟩, ?_, by decide, inside⟩
  obtain ⟨config, module, target, _, grown⟩ := growsBelow.resolve_left different
  obtain ⟨rfl, rfl⟩ := Prod.mk.inj (Option.some.inj target)
  exact grown

end Scaffold
