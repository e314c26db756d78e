import Scaffold.Proofs.Run.History

/-!
# The layers that aggregates name

The service provider and the routes of a module name the services, the repositories and the
controllers of the entities in its ledger.  In a module that was started by runs of this program they
are all there, as long as files that are asked for one by one do not make an entity part of the
aggregates whose layers have other names or are missing.
-/

namespace Scaffold

open Scaffold.Disk (Location Path Tree)
open Scaffold.Disk.Tree (Extends Grows)
open Scaffold.Migration

/-! ## Layers -/

/-- The files of an entity that aggregates name: its layers with their contracts, and its controller. -/
def layerPaths (entity : String) : List String :=
  ["Services/" ++ (entity ++ "Service") ++ ".php",
    "Services/Contracts/" ++ (entity ++ "Service" ++ "Interface") ++ ".php",
    "Repositories/" ++ (entity ++ "Repository") ++ ".php",
    "Repositories/Contracts/" ++ (entity ++ "Repository" ++ "Interface") ++ ".php",
    "Http/Controllers/" ++ (entity ++ "Controller") ++ ".php"]

/-- The layers of an entity, with the endings of the class names that aggregates use. -/
def layerSuffixes : List (FileKind × String) :=
  [(.controller, "Controller"), (.service, "Service"), (.repository, "Repository")]

/-- Class names are given for all layers. -/
def AskForLayers (names : Keyed String) : Prop :=
  ∀ kind ∈ layeredKinds, Keyed.has names kind.name = true

/-- The layers have the names that aggregates use. -/
def NameLayers (entity : String) (names : Keyed String) : Prop :=
  ∀ layer ∈ layerSuffixes, Keyed.get? names layer.1.name = some (entity ++ layer.2)

/--
A selection that asks for all layers of an entity gives them the names that aggregates use, and it
asks for a model alone only if the module has a ledger.
-/
structure Selection.KeepsLayers (selection : Selection) (hasLedger : Prop) : Prop where
  named : ∀ entity names, Keyed.get? selection entity = some names → AskForLayers names →
    NameLayers entity names
  models : ∀ entity names, Keyed.get? selection entity = some names →
    Keyed.has names FileKind.model.name = true → AskForLayers names ∨ hasLedger

/-- A task for a module keeps the layers of its aggregates, if it asks for single files. -/
def ModuleTask.KeepsLayers (config : Config) (module : String) (tree : Tree) (task : ModuleTask) :
    Prop :=
  ∀ selection, task.selection? = some selection →
    selection.KeepsLayers (tree.isFile (Ledger.file (config.moduleFolder module)) = .ok true)

/-- A request keeps the layers of the aggregates of its module. -/
def Request.KeepsLayers (request : Request) (tree : Tree) : Prop :=
  ∀ selection, request.selection = some selection →
    selection.KeepsLayers (tree.isFile (Ledger.file request.folder) = .ok true)

namespace RenderPlan

variable {plan : RenderPlan}

/-- Rendering an entity makes it part of the aggregates. -/
def Joins (plan : RenderPlan) (entity : String) : Prop :=
  ∀ names, plan.chosen? entity = some names → AskForLayers names

theorem mem_kinds_of_chosen
    {entity : String} {names : Keyed String} (chosen : plan.chosen? entity = some names)
    (kind : FileKind) : kind ∈ plan.kinds entity ↔ Keyed.has names kind.name = true := by
  have every : kind ∈ FileKind.all := by cases kind <;> decide
  rw [kinds, chosen]
  simp [every]

theorem mem_entities_enter {entity other : String} {ledger : Ledger} :
    other ∈ (plan.enter entity ledger).entities ↔
      other ∈ ledger.entities ∨ plan.Joins entity ∧ entity = other := by
  have registered : other ∈ (ledger.register .entities entity).entities ↔
      other ∈ ledger.entities ∨ entity = other := by
    rw [Ledger.entities_register_entities]
    split_ifs with known
    · constructor
      · exact .inl
      · rintro (old | rfl)
        · exact old
        · exact known
    · rw [List.mem_append, List.mem_singleton, eq_comm (a := other)]
  rw [enter]
  cases chosen : plan.chosen? entity with
  | none =>
      have joins : plan.Joins entity := fun names found => by simp [chosen] at found
      dsimp only
      rw [Ledger.entities_register_seeders, registered]
      simp [joins]
  | some names =>
      have joins : plan.Joins entity ↔
          layeredKinds.all ((plan.kinds entity).contains ·) = true := by
        simp only [Joins, chosen, Option.some.injEq, forall_eq', AskForLayers, List.all_eq_true,
          List.contains_iff_mem, mem_kinds_of_chosen chosen]
      dsimp only
      rw [joins]
      split_ifs with all
      · rw [registered]
        simp only [all, true_and]
      · simp only [all, Bool.false_eq_true, false_and, or_false]

theorem mem_entities_entered
    {descriptors : List Descriptor} {ledger : Ledger} {entity : String} :
    entity ∈ (plan.entered descriptors ledger).entities ↔
      entity ∈ ledger.entities ∨ ∃ descriptor ∈ descriptors,
        (plan.filesOf descriptor).isOk = true ∧ plan.Joins descriptor.entity ∧
          descriptor.entity = entity := by
  induction descriptors generalizing ledger with
  | nil => simp [entered]
  | cons descriptor rest hypothesis =>
      rw [entered_cons, hypothesis, List.exists_mem_cons_iff]
      split_ifs with rendered
      · rw [mem_entities_enter]
        simp only [rendered, true_and]
        tauto
      · simp [rendered]

/-- An entity that joins the aggregates is rendered with its layers. -/
theorem exists_of_mem_layerPaths
    {descriptor : Descriptor} {files : List OutputFile}
    (found : plan.filesOf descriptor = .ok files) (joins : plan.Joins descriptor.entity)
    (named : ∀ names, plan.chosen? descriptor.entity = some names → AskForLayers names →
      NameLayers descriptor.entity names)
    {path : String} (member : path ∈ layerPaths descriptor.entity) :
    ∃ file ∈ files, file.path = path := by
  have layered (kind : FileKind) (among : kind ∈ layeredKinds) :
      kind ∈ plan.kinds descriptor.entity := by
    cases chosen : plan.chosen? descriptor.entity with
    | none =>
        rw [kinds, chosen]
        simp only [layeredKinds, List.mem_cons, List.not_mem_nil, or_false] at among
        rcases among with rfl | rfl | rfl <;> simp [FileKind.standard, FileKind.all]
    | some names => exact (mem_kinds_of_chosen chosen kind).mpr (joins names chosen kind among)
  have given (layer : FileKind × String) (among : layer ∈ layerSuffixes) :
      Keyed.get? ((plan.chosen? descriptor.entity).getD []) layer.1.name = none ∨
        Keyed.get? ((plan.chosen? descriptor.entity).getD []) layer.1.name =
          some (descriptor.entity ++ layer.2) := by
    cases chosen : plan.chosen? descriptor.entity with
    | none => exact .inl rfl
    | some names => exact .inr (named names chosen (joins names chosen) layer among)
  have named (layer : FileKind × String) (among : layer ∈ layerSuffixes) :
      Text.nameOr (Keyed.get? ((plan.chosen? descriptor.entity).getD []) layer.1.name)
        (descriptor.entity ++ layer.2) = descriptor.entity ++ layer.2 := by
    rcases given layer among with absent | standard
    · rw [absent]
      rfl
    · rw [standard, Text.nameOr]
      split_ifs <;> rfl
  refine (exists_plan_of_filesOf found path).mpr ?_
  simp only [layerPaths, List.mem_cons, List.not_mem_nil, or_false] at member
  have service := named (.service, "Service") (by decide)
  have repository := named (.repository, "Repository") (by decide)
  rcases member with rfl | rfl | rfl | rfl | rfl
  · refine ⟨.service, layered _ (by decide), _, List.mem_cons_of_mem _ List.mem_cons_self, ?_⟩
    exact congrArg ("Services/" ++ · ++ ".php") service
  · refine ⟨.service, layered _ (by decide), _, List.mem_cons_self, ?_⟩
    exact congrArg (fun name => "Services/Contracts/" ++ (name ++ "Interface") ++ ".php") service
  · refine ⟨.repository, layered _ (by decide), _, List.mem_cons_of_mem _ List.mem_cons_self, ?_⟩
    exact congrArg ("Repositories/" ++ · ++ ".php") repository
  · refine ⟨.repository, layered _ (by decide), _, List.mem_cons_self, ?_⟩
    exact congrArg (fun name => "Repositories/Contracts/" ++ (name ++ "Interface") ++ ".php") repository
  · refine ⟨.controller, layered _ (by decide), _, List.mem_cons_self, ?_⟩
    refine congrArg ("Http/Controllers/" ++ · ++ ".php") ?_
    rcases given (.controller, "Controller") (by decide) with absent | standard
    · rw [absent]
      rfl
    · rw [standard]
      rfl

end RenderPlan

/-! ## Modules with layers -/

/-- A script lies at its place in the folder of a module, or a folder of that name. -/
structure Disk.Tree.HasScript (tree : Tree) (folder : Path) (path : String) : Prop where
  exists_liesIn : ∃ above name, LiesIn path above name
  there : tree.kindAt? (tree.resolve (folder.child path)) ≠ none

theorem Disk.Tree.HasScript.extend
    {earlier later : Tree} {folder : Path} {path : String} (has : earlier.HasScript folder path)
    (growth : Extends earlier later) : later.HasScript folder path where
  exists_liesIn := has.exists_liesIn
  there := by
    obtain ⟨kind, found⟩ := Option.ne_none_iff_exists'.mp has.there
    rw [growth.resolve, growth.kinds _ _ found]
    simp

/-- All layers of the entities of a ledger are in the folder of its module. -/
def Ledger.HasLayers (ledger : Ledger) (folder : Path) (tree : Tree) : Prop :=
  ∀ entity ∈ ledger.entities, ∀ path ∈ layerPaths entity, tree.HasScript folder path

/-- A module that keeps a ledger has its layers, and one without a ledger has no models. -/
structure Disk.Tree.IsLayered (tree : Tree) (folder : Path) (module : String) : Prop where
  sound : tree.IsSound
  exists_kept : ∃ ledger, Ledger.kept? tree folder module = some ledger ∧
    ledger.HasLayers folder tree
  modelless : tree.isFile (Ledger.file folder) ≠ .ok true → ∀ name,
    ".php".toList.isSuffixOf name.toList = true →
      tree.kindAt? (tree.resolve folder ++ ["Models", name]) = none

/-- No folder lies where files are generated. -/
def Disk.Tree.IsScriptFree (tree : Tree) (folder : Path) : Prop :=
  ∀ path above name, LiesIn path above name →
    tree.kindAt? (tree.resolve (folder.child path)) ≠ some .folder

namespace Landed

variable {request : Request} {tree later : Tree} {sequence : Migration.Sequence}
  {preparation : Preparation} {exporter : Exporter}

/-- An entity joins the aggregates together with its layers. -/
theorem hasScript_of_joins
    (landed : Landed request tree later sequence preparation exporter)
    (keeps : request.KeepsLayers tree)
    {descriptor : Descriptor} (among : descriptor ∈ preparation.descriptors)
    (rendered : ((request.plan tree preparation.keys).filesOf descriptor).isOk = true)
    (joins : (request.plan tree preparation.keys).Joins descriptor.entity) {path : String}
    (member : path ∈ layerPaths descriptor.entity) :
    later.HasScript request.folder path := by
  cases found : (request.plan tree preparation.keys).filesOf descriptor with
  | error error =>
      rw [found] at rendered
      cases rendered
  | ok files =>
      obtain ⟨file, within, rfl⟩ := RenderPlan.exists_of_mem_layerPaths found joins
        (fun names chosen => by
          obtain ⟨selection, selected, given⟩ := Option.bind_eq_some_iff.mp chosen
          exact (keeps selection selected).named _ names given) member
      have exported := landed.prepares.mem_files among found within
      have plain := landed.isPlainPath file exported
      refine ⟨landed.exists_liesIn file exported, ?_⟩
      rw [landed.resolve_later plain]
      exact (landed.spec.leaves.meets file exported).kindAt?_ne_none landed.plain plain

/-- What is loaded has its layers, as it is the ledger that was kept or empty. -/
theorem hasLayers_loaded
    (landed : Landed request tree later sequence preparation exporter)
    (layered : tree.IsLayered request.folder request.module) :
    preparation.loaded.HasLayers request.folder tree := by
  by_cases isFile : tree.isFile (Ledger.file request.folder) = .ok true
  · obtain ⟨ledger, kept, layers⟩ := layered.exists_kept
    rw [Ledger.kept?_of_load isFile landed.prepares.loaded] at kept
    rwa [Option.some.inj kept]
  · have modelless :
        tree.namesEnding (request.folder.child "Models") ".php" = [] := by
      refine List.eq_nil_iff_forall_not_mem.mpr fun name listed => ?_
      rw [Tree.namesEnding, List.mem_filter, Tree.mem_names_iff] at listed
      obtain ⟨⟨place, located, there⟩, script⟩ := listed
      rw [Tree.locate_eq_resolve located,
        Tree.resolve_child _ _ Registry.isPlainName_models, List.append_assoc] at there
      exact there (layered.modelless isFile name script)
    intro entity member
    rw [Ledger.entities_eq_of_load landed.prepares.loaded isFile modelless] at member
    cases member

theorem hasLayers_later
    (landed : Landed request tree later sequence preparation exporter)
    (layered : tree.IsLayered request.folder request.module)
    (keeps : request.KeepsLayers tree) :
    preparation.rendering.ledger.HasLayers request.folder later := by
  intro entity member path among
  rw [landed.ledger_eq, RenderPlan.mem_entities_entered] at member
  rcases member with old | ⟨descriptor, compiled, rendered, joins, rfl⟩
  · exact (landed.hasLayers_loaded layered entity old path among).extend landed.extended
  · exact landed.hasScript_of_joins keeps compiled rendered joins among

/-- A run that keeps no ledger exports no model. -/
theorem modelless_later
    (landed : Landed request tree later sequence preparation exporter)
    (layered : tree.IsLayered request.folder request.module)
    (keeps : request.KeepsLayers tree)
    (absent : later.isFile (Ledger.file request.folder) ≠ .ok true) {name : String}
    (script : ".php".toList.isSuffixOf name.toList = true) :
    later.kindAt? (later.resolve request.folder ++ ["Models", name]) = none := by
  obtain ⟨saved, before⟩ := not_or.mp fun isKept => absent (landed.load_later isKept).1
  rw [Bool.not_eq_true] at saved
  have place : later.resolve request.folder ++ ["Models", name] =
      exporter.folder.names ++ ["Models"] ++ [name] := by
    rw [landed.extended.resolve, ← landed.place, List.append_assoc]
    rfl
  have empty := layered.modelless before name script
  rw [← landed.extended.resolve, place] at empty
  rw [place, landed.spec.growth.kindAt?_eq landed.laterSound, empty]
  · intro writes
    obtain ⟨file, member, folder, lies, above⟩ := Exporter.exists_of_writes_php
      landed.exists_liesIn script (writes.imp_right And.right)
    obtain rfl : folder = "Models" := LiesIn.folder_eq_of_namesOf _ lies.folder _ (by decide)
      ((List.append_cancel_left above).symm.trans (by decide))
    obtain ⟨descriptor, among, rendered, asked⟩ :=
      landed.prepares.asksModel_of_liesIn member lies
    have joins : (request.plan tree preparation.keys).Joins descriptor.entity := by
      intro names chosen
      obtain ⟨selection, selected, given⟩ := Option.bind_eq_some_iff.mp chosen
      exact ((keeps selection selected).models _ names given
        ((RenderPlan.mem_kinds_of_chosen chosen _).mp asked)).resolve_right before
    have entered : descriptor.entity ∈ preparation.rendering.ledger.entities := by
      rw [landed.ledger_eq]
      exact RenderPlan.mem_entities_entered.mpr
        (.inr ⟨descriptor, among, rendered, joins, rfl⟩)
    rw [landed.eq_ofModule_of_saved saved before] at entered
    cases entered
  · rintro (makes | ⟨unsaved, _⟩)
    · exact Exporter.not_makes_script landed.exists_liesIn _ script makes
    · rw [saved] at unsaved
      cases unsaved

/-- An export leaves a module with its layers. -/
theorem isLayered_later
    (landed : Landed request tree later sequence preparation exporter)
    (layered : tree.IsLayered request.folder request.module)
    (keeps : request.KeepsLayers tree)
    (there : request.selection = none ∨ tree.isFolder request.folder = .ok true) :
    later.IsLayered request.folder request.module where
  sound := landed.laterSound
  exists_kept := ⟨_, landed.kept?_later there, landed.hasLayers_later layered keeps⟩
  modelless absent _ := landed.modelless_later layered keeps absent

/-- On a steady path an export makes no folder with the name of a script. -/
theorem isScriptFree_later
    (landed : Landed request tree later sequence preparation exporter)
    (steady : tree.IsSteady (.ofText request.config.modulesPath))
    (scriptFree : tree.IsScriptFree request.folder) :
    later.IsScriptFree request.folder := by
  intro path above name lies folder
  rw [landed.resolve_later lies.isPlainPath, Exporter.locationOf, lies.namesOf,
    ← List.append_assoc] at folder
  refine ((landed.growth_of_isSteady steady).folders _ folder).elim (fun old => scriptFree path above name lies ?_)
    (Exporter.not_makes_script landed.exists_liesIn _ lies.ending)
  rwa [Tree.resolve_child_of_isPlainPath _ _ lies.isPlainPath, lies.namesOf, ← landed.place,
    ← List.append_assoc]

end Landed

namespace Run

/-- A run came to its end, and nothing went wrong. -/
structure Succeeds (run : Run) : Prop where
  running : run.stopped = none
  success : run.report.success = true

theorem Succeeds.exportErrors {run : Run} (succeeds : run.Succeeds) :
    run.report.exportErrors = [] := by
  have success := succeeds.success
  rw [Report.success, Bool.and_eq_true, List.isEmpty_iff] at success
  exact success.2

/-- A run that fails does not succeed. -/
theorem Fails.not_succeeds {before after : Run} (fails : Fails before after) :
    ¬ after.Succeeds := by
  rintro ⟨running, success⟩
  rcases fails.failed with stopped | failed
  · exact stopped running
  · rw [success] at failed
    cases failed

/-- A run that performs a task for a module with success has landed the files of its request. -/
theorem Performs.exists_landed
    {config : Config} {module : String} {tree : Tree} {task : ModuleTask} {run : Run}
    (performs : run.Performs config task tree) (isFor : task.IsFor config module tree)
    (sound : tree.IsSound) (succeeds : run.Succeeds) :
    ∃ (request : Request) (sequence : Migration.Sequence) (preparation : Preparation)
      (exporter : Exporter), task.Asks config module tree request ∧
        Landed request tree run.tree sequence preparation exporter := by
  obtain ⟨time, sequence, performed⟩ := performs
  have answers : Answers { config, time } task config module tree run := by
    rw [performed]
    exact answers_perform sequence isFor
  cases answers with
  | ends before begins fails => exact absurd succeeds fails.not_succeeds
  | asks before begins request asks comes =>
      cases comes with
      | fails fails => exact absurd succeeds fails.not_succeeds
      | exports preparation middle prepares exports =>
          obtain rfl := begins.tree
          exact ⟨request, before.sequence, preparation, _, asks,
            exports.landed prepares sound (Request.isAlphanumeric_of_selection asks.selection) rfl
              succeeds.running succeeds.exportErrors⟩

/-- Its aggregates are those of the ledger that it leaves. -/
theorem Performs.exists_rendered
    {config : Config} (builtin : config.UsesBuiltinStubs) {module : String} {tree : Tree}
    {task : ModuleTask} {run : Run} (performs : run.Performs config task tree)
    (isFor : task.IsFor config module tree) (sound : tree.IsSound) (succeeds : run.Succeeds) :
    ∃ ledger, Ledger.kept? run.tree (config.moduleFolder module) module = some ledger ∧
      ledger.IsRenderedIn config module run.tree := by
  obtain ⟨_, _, _, _, asks, landed⟩ := performs.exists_landed isFor sound succeeds
  obtain rfl := asks.config
  obtain rfl := asks.module
  exact ⟨_, landed.kept?_later asks.there, landed.isRenderedIn builtin⟩

/-- A run for a module succeeds with a task that keeps the layers of its aggregates. -/
structure KeepsLayers (config : Config) (module : String) (tree : Tree) (run : Run) : Prop where
  exists_task : ∃ task : ModuleTask, task.IsFor config module tree ∧
    task.KeepsLayers config module tree ∧ run.Performs config task tree
  succeeds : run.Succeeds

/-- What a run leaves of a module: its layers, and aggregates that are rendered from its ledger. -/
structure LeavesLayers (config : Config) (module : String) (tree : Tree) (run : Run) : Prop where
  layered : run.tree.IsLayered (config.moduleFolder module) module
  extended : Extends tree run.tree
  exists_rendered : ∃ ledger,
    Ledger.kept? run.tree (config.moduleFolder module) module = some ledger ∧
      ledger.IsRenderedIn config module run.tree
  scriptFree : tree.IsSteady (.ofText config.modulesPath) →
    tree.IsScriptFree (config.moduleFolder module) →
      run.tree.IsScriptFree (config.moduleFolder module)

theorem KeepsLayers.leavesLayers
    {config : Config} (builtin : config.UsesBuiltinStubs) {module : String} {tree : Tree}
    (layered : tree.IsLayered (config.moduleFolder module) module) {run : Run}
    (keepsLayers : run.KeepsLayers config module tree) :
    run.LeavesLayers config module tree := by
  obtain ⟨⟨task, isFor, keeps, performs⟩, succeeds⟩ := keepsLayers
  obtain ⟨request, sequence, preparation, exporter, asks, landed⟩ :=
    performs.exists_landed isFor layered.sound succeeds
  obtain rfl := asks.config
  obtain rfl := asks.module
  refine ⟨landed.isLayered_later layered (fun selection selected => ?_) asks.there,
    landed.extended, performs.exists_rendered builtin isFor layered.sound succeeds,
    landed.isScriptFree_later⟩
  exact keeps selection (asks.selection.symm.trans selected)

/-- Runs that keep the layers of a module lead from one tree to another. -/
def LeadsLayered (config : Config) (module : String) : Tree → Tree → Prop :=
  Relation.ReflTransGen fun tree later =>
    ∃ run : Run, run.KeepsLayers config module tree ∧ run.tree = later

/-- The layers stay along such runs, and no folder comes to lie in their places. -/
theorem LeadsLayered.isLayered
    {config : Config} (builtin : config.UsesBuiltinStubs) {module : String} {start tree : Tree}
    (layered : start.IsLayered (config.moduleFolder module) module)
    (leads : LeadsLayered config module start tree) :
    tree.IsLayered (config.moduleFolder module) module ∧ Extends start tree ∧
      (start.IsSteady (.ofText config.modulesPath) →
        start.IsScriptFree (config.moduleFolder module) →
          tree.IsScriptFree (config.moduleFolder module)) := by
  induction leads with
  | refl => exact ⟨layered, .refl _, fun _ => id⟩
  | tail _ step hypothesis =>
      obtain ⟨run, keepsLayers, rfl⟩ := step
      obtain ⟨layeredBefore, extended, scriptFree⟩ := hypothesis
      have leaves := keepsLayers.leavesLayers builtin layeredBefore
      exact ⟨leaves.layered, extended.trans leaves.extended, fun steady free =>
        leaves.scriptFree (extended.isSteady steady) (scriptFree steady free)⟩

end Run

/-- The folder of a module is not there, or there is nothing in it. -/
def Disk.Tree.IsBare (tree : Tree) (folder : Path) : Prop :=
  ∀ names ≠ [], tree.kindAt? (tree.resolve folder ++ names) = none

theorem Disk.Tree.IsBare.isFile_ledger
    {tree : Tree} {folder : Path} (bare : tree.IsBare folder) :
    tree.isFile (Ledger.file folder) ≠ .ok true := by
  intro isFile
  obtain ⟨place, located, kind⟩ := Tree.isFile_eq_true_iff.mp isFile
  have below : tree.resolve (Ledger.file folder) = tree.resolve folder ++ [ledgerName] :=
    Tree.resolve_child tree folder isPlainName_ledgerName
  rw [Tree.locate_eq_resolve located, below, bare _ (by simp)] at kind
  cases kind

theorem Disk.Tree.IsBare.isLayered
    {tree : Tree} {folder : Path} (bare : tree.IsBare folder) (sound : tree.IsSound)
    (module : String) : tree.IsLayered folder module := by
  refine ⟨sound, ⟨_, Ledger.kept?_of_absent bare.isFile_ledger, fun entity member => ?_⟩,
    fun _ name _ => bare _ (by simp)⟩
  cases member

theorem Disk.Tree.IsBare.isScriptFree
    {tree : Tree} {folder : Path} (bare : tree.IsBare folder) : tree.IsScriptFree folder := by
  intro path above name lies
  rw [Tree.resolve_child_of_isPlainPath _ _ lies.isPlainPath, lies.namesOf, bare _ (by simp)]
  simp

/--
After any runs that keep the layers of a module which started from nothing, the aggregates are those
of the kept ledger, and every entity in it has all of its layers.  They are files unless the path of
the modules goes back from folders that were not there.
-/
theorem aggregates_name_layers_that_exist
    {config : Config} (builtin : config.UsesBuiltinStubs) {module : String} {start : Tree}
    (sound : start.IsSound) (bare : start.IsBare (config.moduleFolder module)) {tree : Tree}
    (leads : Run.LeadsLayered config module start tree) {run : Run}
    (keepsLayers : run.KeepsLayers config module tree) :
    ∃ ledger, Ledger.kept? run.tree (config.moduleFolder module) module = some ledger ∧
      ledger.IsRenderedIn config module run.tree ∧
      ∀ entity ∈ ledger.entities, ∀ path ∈ layerPaths entity,
        run.tree.kindAt? (run.tree.resolve ((config.moduleFolder module).child path)) ≠ none ∧
        (start.IsSteady (.ofText config.modulesPath) →
          run.tree.kindAt? (run.tree.resolve ((config.moduleFolder module).child path)) =
            some .file) := by
  obtain ⟨layered, extended, scriptFree⟩ := leads.isLayered builtin (bare.isLayered sound module)
  have leaves := keepsLayers.leavesLayers builtin layered
  obtain ⟨ledger, kept, layers⟩ := leaves.layered.exists_kept
  obtain ⟨other, again, rendered⟩ := leaves.exists_rendered
  obtain rfl := Option.some.inj (kept.symm.trans again)
  refine ⟨ledger, kept, rendered, fun entity member path among => ?_⟩
  obtain ⟨⟨above, name, lies⟩, there⟩ := layers entity member path among
  refine ⟨there, fun steady => ?_⟩
  have noFolder := leaves.scriptFree (extended.isSteady steady)
    (scriptFree steady bare.isScriptFree) path above name lies
  obtain ⟨kind, found⟩ := Option.ne_none_iff_exists'.mp there
  cases kind with
  | file => exact found
  | folder => exact absurd found noFolder

/-! ## Single files in an empty module -/

/-- A module with nothing in its folder. -/
def emptyBlog : Tree :=
  (({} : Tree).addFolder ["Modules"]).addFolder ["Modules", "Blog"]

theorem isSound_emptyBlog : emptyBlog.IsSound := by
  have modules : (({} : Tree).addFolder ["Modules"]).IsSound :=
    (Tree.grows_addFolder rfl (rfl : _ = [] ++ ["Modules"]) rfl (by decide)).sound
      Tree.isSound_empty
  exact (Tree.grows_addFolder (by decide) (rfl : _ = ["Modules"] ++ ["Blog"])
    (by decide) (by decide)).sound modules

theorem isBare_emptyBlog : emptyBlog.IsBare (briefConfig.moduleFolder "Blog") := by
  intro names some
  have place : emptyBlog.resolve (briefConfig.moduleFolder "Blog") = ["Modules", "Blog"] := by
    decide
  rw [place, emptyBlog, Tree.kindAt?_addFolder, Tree.kindAt?_addFolder]
  simp [some, Tree.kindAt?, Tree.contentAt?]

/-- A run that asks for single files of the module. -/
def selectInBlog (tree : Tree) (requests : Keyed String) : Run :=
  ({ config := briefConfig, time := "" } : Generator).perform tree (stillSequence 2024)
    (.select "Blog" requests none)

theorem performs_selectInBlog (tree : Tree) (requests : Keyed String) :
    (selectInBlog tree requests).Performs briefConfig (.select "Blog" requests none) tree :=
  ⟨"", stillSequence 2024, rfl⟩

theorem isFor_blog (tree : Tree) (requests : Keyed String) :
    (ModuleTask.select "Blog" requests none).IsFor briefConfig "Blog" tree :=
  (by decide : Text.studlyCase "Blog" = "Blog")

/-- Requests for all layers under the names that aggregates use. -/
def namedLayers : Keyed String :=
  [("controller", "PostController"), ("service", "PostService"), ("repository", "PostRepository")]

theorem keepsLayers_namedLayers (tree : Tree) :
    (ModuleTask.select "Blog" namedLayers none).KeepsLayers briefConfig "Blog" tree := by
  intro selection selected
  obtain rfl : [("Post", namedLayers)] = selection := by
    rw [← Option.some.inj selected]
    decide +kernel
  have only (entity : String) (names : Keyed String)
      (given : Keyed.get? [("Post", namedLayers)] entity = some names) :
      entity = "Post" ∧ names = namedLayers := by
    by_cases same : "Post" = entity
    · exact ⟨same.symm, by simpa [Keyed.get?, same] using given.symm⟩
    · simp [Keyed.get?, same] at given
  refine ⟨fun entity names given _ => ?_, fun entity names given model => ?_⟩
  · obtain ⟨rfl, rfl⟩ := only entity names given
    unfold NameLayers
    decide
  · obtain ⟨rfl, rfl⟩ := only entity names given
    exact absurd model (by decide)

/-- The layers of posts are there when they are given the names that aggregates use. -/
theorem aggregates_name_layers_that_exist_posts :
    let run := selectInBlog emptyBlog namedLayers
    run.KeepsLayers briefConfig "Blog" emptyBlog ∧
      ∃ ledger, Ledger.kept? run.tree (briefConfig.moduleFolder "Blog") "Blog" = some ledger ∧
        ledger.IsRenderedIn briefConfig "Blog" run.tree ∧ ledger.entities = ["Post"] ∧
        ∀ path ∈ layerPaths "Post",
          run.tree.kindAt? (run.tree.resolve ((briefConfig.moduleFolder "Blog").child path)) =
            some .file := by
  -- the run stays a variable below: nothing may evaluate it
  have checked : (selectInBlog emptyBlog namedLayers).stopped = none ∧
      (selectInBlog emptyBlog namedLayers).report.success = true ∧
      (Ledger.kept? (selectInBlog emptyBlog namedLayers).tree (briefConfig.moduleFolder "Blog")
        "Blog").map (·.entities) = some ["Post"] := by
    decide +kernel
  have performs := performs_selectInBlog emptyBlog namedLayers
  dsimp only
  generalize selectInBlog emptyBlog namedLayers = run at *
  obtain ⟨running, success, entities⟩ := checked
  have keepsLayers : run.KeepsLayers briefConfig "Blog" emptyBlog :=
    ⟨⟨_, isFor_blog emptyBlog _, keepsLayers_namedLayers _, performs⟩, ⟨running, success⟩⟩
  obtain ⟨ledger, kept, rendered, layers⟩ := aggregates_name_layers_that_exist (by decide)
    isSound_emptyBlog isBare_emptyBlog .refl keepsLayers
  rw [kept] at entities
  have listed : ledger.entities = ["Post"] := Option.some.inj entities
  refine ⟨keepsLayers, ledger, kept, rendered, listed, fun path among => ?_⟩
  exact (layers "Post" (by rw [listed]; exact List.mem_singleton_self _) path among).2
    (Tree.IsSteady.of_not_mem (by decide))

/-- Aggregates are rendered from a ledger with an entity none of whose layers is there. -/
def NameAbsentLayers (config : Config) (module : String) (tree : Tree) (entity : String) : Prop :=
  ∃ ledger, Ledger.kept? tree (config.moduleFolder module) module = some ledger ∧
    ledger.IsRenderedIn config module tree ∧ entity ∈ ledger.entities ∧
    ∀ path ∈ layerPaths entity,
      tree.kindAt? (tree.resolve ((config.moduleFolder module).child path)) = none

/-- What has to be evaluated of a run to see that its aggregates name layers that are not there. -/
def IsLayerless (run : Run) (entity : String) : Prop :=
  (run.stopped = none ∧ run.report.success = true) ∧
    (Ledger.kept? run.tree (briefConfig.moduleFolder "Blog") "Blog").map (·.entities) =
      some [entity] ∧
    ∀ path ∈ layerPaths entity,
      run.tree.kindAt? (run.tree.resolve ((briefConfig.moduleFolder "Blog").child path)) = none

instance (run : Run) (entity : String) : Decidable (IsLayerless run entity) :=
  inferInstanceAs (Decidable (_ ∧ _ ∧ _))

theorem IsLayerless.nameAbsentLayers
    {tree : Tree} (sound : tree.IsSound) {requests : Keyed String} {entity : String}
    (layerless : IsLayerless (selectInBlog tree requests) entity) :
    (selectInBlog tree requests).Succeeds ∧
      NameAbsentLayers briefConfig "Blog" (selectInBlog tree requests).tree entity := by
  have performs := performs_selectInBlog tree requests
  generalize selectInBlog tree requests = run at *
  obtain ⟨⟨running, success⟩, entities, absent⟩ := layerless
  have succeeds : run.Succeeds := ⟨running, success⟩
  obtain ⟨ledger, kept, rendered⟩ :=
    performs.exists_rendered (by decide) (isFor_blog tree requests) sound succeeds
  rw [kept] at entities
  have listed : ledger.entities = [entity] := Option.some.inj entities
  refine ⟨succeeds, ledger, kept, rendered, ?_, absent⟩
  rw [listed]
  exact List.mem_singleton_self entity

/-- Layers that are given other names make their entity part of the aggregates nevertheless. -/
theorem aggregates_name_layers_with_other_names :
    let run := selectInBlog emptyBlog
      [("controller", "Post"), ("service", "Post"), ("repository", "Post")]
    (emptyBlog.IsSound ∧ emptyBlog.IsBare (briefConfig.moduleFolder "Blog")) ∧
      run.Succeeds ∧ NameAbsentLayers briefConfig "Blog" run.tree "Post" := by
  refine ⟨⟨isSound_emptyBlog, isBare_emptyBlog⟩, ?_⟩
  have layerless : IsLayerless (selectInBlog emptyBlog
      [("controller", "Post"), ("service", "Post"), ("repository", "Post")]) "Post" := by
    decide +kernel
  exact layerless.nameAbsentLayers isSound_emptyBlog

/-- A model alone becomes part of the aggregates when the ledger is gathered from the models. -/
theorem aggregates_name_layers_of_gathered_models :
    let first := selectInBlog emptyBlog [("model", "Post")]
    let second := selectInBlog first.tree [("request", "PageRequest")]
    first.Succeeds ∧ second.Succeeds ∧ NameAbsentLayers briefConfig "Blog" second.tree "Post" := by
  have checked : ((selectInBlog emptyBlog [("model", "Post")]).stopped = none ∧
      (selectInBlog emptyBlog [("model", "Post")]).report.success = true) ∧
      IsLayerless (selectInBlog (selectInBlog emptyBlog [("model", "Post")]).tree
        [("request", "PageRequest")]) "Post" := by
    decide +kernel
  have performs := performs_selectInBlog emptyBlog [("model", "Post")]
  dsimp only
  generalize selectInBlog emptyBlog [("model", "Post")] = first at *
  obtain ⟨⟨running, success⟩, layerless⟩ := checked
  obtain ⟨_, _, _, _, _, landed⟩ :=
    performs.exists_landed (isFor_blog _ _) isSound_emptyBlog ⟨running, success⟩
  exact ⟨⟨running, success⟩, layerless.nameAbsentLayers landed.laterSound⟩

end Scaffold
