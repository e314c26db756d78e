import Scaffold.Proofs.Module.Naming
import Scaffold.Proofs.Run.Exporting
import Scaffold.Proofs.Run.KeyRecovery
import Scaffold.Proofs.Run.Pipeline

/-!
# Where the files of a run land

The files of a run lie in fixed folders of the module: models under the names of their entities,
migrations under keys and tables, and everything else in other folders.
-/

namespace Scaffold

open Scaffold.Disk (IsPlainName Location Path Tree)
open Scaffold.Disk.Tree (Extends Grows)

/-! ## Places -/

theorem Descriptor.IsPlaced.exists_liesIn
    {key : Option String} {names : Keyed String} {descriptor : Descriptor} {path : String}
    (placed : descriptor.IsPlaced key names path) :
    ∃ folder name, LiesIn path folder name := by
  cases placed with
  | model lies => exact ⟨_, _, lies⟩
  | migration _ _ lies => exact ⟨_, _, lies⟩
  | elsewhere lies =>
      obtain ⟨folder, name, lies, _⟩ := lies
      exact ⟨folder, name, lies⟩

/-! ## The files of a preparation -/

/-- The class names that a request chooses for an entity. -/
def Request.names (request : Request) (entity : String) : Keyed String :=
  (request.selection.bind fun selection => Keyed.get? selection entity).getD []

/-- A request chooses class names of letters and digits. -/
def Request.IsAlphanumeric (request : Request) : Prop :=
  ∀ entity, Descriptor.AreNamed (request.names entity)

namespace Prepares

variable {request : Request} {tree : Tree} {sequence : Migration.Sequence}
  {preparation : Preparation}

theorem isNamed (prepares : Prepares request tree sequence preparation) :
    request.definition.IsNamed :=
  ModuleDefinition.isNamed_of_review prepares.reviewed

theorem descriptors_named (prepares : Prepares request tree sequence preparation) :
    (preparation.descriptors.map (·.entity)).Nodup ∧
      ∀ descriptor ∈ preparation.descriptors,
        descriptor.IsNamed ∧ descriptor.entity ∈ request.definition.entities := by
  rw [← prepares.compiled]
  exact prepares.isNamed.compile _ _ _

theorem studlyCase_module (prepares : Prepares request tree sequence preparation) :
    Text.studlyCase request.module = request.module :=
  Text.studlyCase_of_isClassName prepares.isNamed.module

theorem isPlainName_module (prepares : Prepares request tree sequence preparation) :
    IsPlainName request.module :=
  isPlainName_of_isClassName prepares.isNamed.module

theorem folder_eq (prepares : Prepares request tree sequence preparation) :
    request.folder = (Path.ofText request.config.modulesPath).child request.module := by
  rw [Request.folder, Config.moduleFolder, prepares.studlyCase_module]

theorem isProper_folder (prepares : Prepares request tree sequence preparation) :
    request.folder.IsProper := by
  rw [prepares.folder_eq, Path.child_plain prepares.isPlainName_module]
  intro name member
  rcases List.mem_append.mp member with above | last
  · exact Path.isProper_ofText _ name above
  · rw [List.mem_singleton.mp last]
    exact .inr prepares.isPlainName_module

theorem isSteady_folder
    (prepares : Prepares request tree sequence preparation)
    (steady : tree.IsSteady (.ofText request.config.modulesPath)) :
    tree.IsSteady request.folder := by
  rw [prepares.folder_eq]
  exact steady.child prepares.isPlainName_module

/-- Some entity is rendered. -/
theorem entityFiles_ne_nil (prepares : Prepares request tree sequence preparation) :
    (request.plan tree preparation.keys).entityFiles preparation.descriptors ≠ [] :=
  fun none => prepares.files (prepares.renders.nothing none)

theorem exists_rendered (prepares : Prepares request tree sequence preparation) :
    ∃ descriptor ∈ preparation.descriptors,
      ((request.plan tree preparation.keys).filesOf descriptor).isOk = true := by
  obtain ⟨file, member⟩ := List.exists_mem_of_ne_nil _ prepares.entityFiles_ne_nil
  obtain ⟨descriptor, among, found⟩ := List.mem_flatMap.mp member
  refine ⟨descriptor, among, ?_⟩
  cases rendered : (request.plan tree preparation.keys).filesOf descriptor with
  | error error =>
      rw [rendered] at found
      cases found
  | ok files => rfl

/-- The files of an entity that is rendered are among those of the preparation. -/
theorem mem_files
    (prepares : Prepares request tree sequence preparation) {descriptor : Descriptor}
    (among : descriptor ∈ preparation.descriptors) {files : List OutputFile}
    (rendered : (request.plan tree preparation.keys).filesOf descriptor = .ok files)
    {file : OutputFile} (member : file ∈ files) :
    file ∈ preparation.rendering.files := by
  rw [(prepares.renders.files prepares.entityFiles_ne_nil).2]
  refine List.mem_append_left _ (List.mem_flatMap.mpr ⟨descriptor, among, ?_⟩)
  rw [rendered]
  exact member

/-- A file is that of an entity that is rendered, or an aggregate. -/
theorem exists_of_mem_files
    (prepares : Prepares request tree sequence preparation) {file : OutputFile}
    (member : file ∈ preparation.rendering.files) :
    (∃ descriptor ∈ preparation.descriptors, ∃ files,
      (request.plan tree preparation.keys).filesOf descriptor = .ok files ∧ file ∈ files) ∨
    ∃ files, (request.plan tree preparation.keys).aggregatesOf request.module
      preparation.rendering.ledger = .ok files ∧ file ∈ files := by
  rw [(prepares.renders.files prepares.entityFiles_ne_nil).2, List.mem_append] at member
  rcases member with entity | aggregate
  · obtain ⟨descriptor, among, found⟩ := List.mem_flatMap.mp entity
    cases rendered : (request.plan tree preparation.keys).filesOf descriptor with
    | error error =>
        rw [rendered] at found
        cases found
    | ok files =>
        rw [rendered] at found
        exact .inl ⟨descriptor, among, files, rendered, found⟩
  · cases rendered : (request.plan tree preparation.keys).aggregatesOf request.module
        preparation.rendering.ledger with
    | error error =>
        rw [rendered] at aggregate
        cases aggregate
    | ok files =>
        rw [rendered] at aggregate
        exact .inr ⟨files, rfl, aggregate⟩

/-- Every file has its place. -/
theorem isPlaced
    (prepares : Prepares request tree sequence preparation) (sound : tree.IsSound)
    (alphanumeric : request.IsAlphanumeric) {file : OutputFile}
    (member : file ∈ preparation.rendering.files) :
    (∃ descriptor ∈ preparation.descriptors,
      ((request.plan tree preparation.keys).filesOf descriptor).isOk = true ∧
        descriptor.IsPlaced (Keyed.get? preparation.keys descriptor.entity)
          (request.names descriptor.entity) file.path) ∨
      LiesElsewhere file.path := by
  rcases prepares.exists_of_mem_files member with ⟨descriptor, among, files, rendered, within⟩ |
    ⟨files, rendered, within⟩
  · refine .inl ⟨descriptor, among, by rw [rendered]; rfl, ?_⟩
    obtain ⟨kind, _, one, planned, same⟩ :=
      (RenderPlan.exists_plan_of_filesOf rendered file.path).mp ⟨file, within, rfl⟩
    rw [← same]
    exact Descriptor.isPlaced_of_mem_plans (prepares.descriptors_named.2 descriptor among).1
      (alphanumeric descriptor.entity)
      (fun text given => slash_not_mem_of_assignKeys sound prepares.assigned given) planned
  · rw [RenderPlan.aggregatesOf, Aggregate.generate] at rendered
    obtain ⟨one, planned, same⟩ :=
      (exists_plan_of_output rendered file.path).mp ⟨file, within, rfl⟩
    obtain ⟨other, among, equal⟩ := List.mem_map.mp planned
    rw [← same, ← Except.ok.inj equal]
    obtain ⟨_, _, _, _, characters⟩ := Text.exists_of_isClassName prepares.isNamed.module
    exact .inr (Aggregate.liesElsewhere_of_mem_plans characters among)

theorem exists_liesIn
    (prepares : Prepares request tree sequence preparation) (sound : tree.IsSound)
    (alphanumeric : request.IsAlphanumeric) {file : OutputFile}
    (member : file ∈ preparation.rendering.files) :
    ∃ folder name, LiesIn file.path folder name := by
  rcases prepares.isPlaced sound alphanumeric member with ⟨_, _, _, placed⟩ |
    ⟨folder, name, lies, _⟩
  · exact placed.exists_liesIn
  · exact ⟨folder, name, lies⟩

/-- A file in the folder of models is that of an entity. -/
theorem model_of_liesIn
    (prepares : Prepares request tree sequence preparation) (sound : tree.IsSound)
    (alphanumeric : request.IsAlphanumeric) {file : OutputFile}
    (member : file ∈ preparation.rendering.files) {name : String}
    (lies : LiesIn file.path "Models" name) :
    ∃ descriptor ∈ preparation.descriptors,
      ((request.plan tree preparation.keys).filesOf descriptor).isOk = true ∧
        name = (Keyed.get? (request.names descriptor.entity) FileKind.model.name).getD
          descriptor.entity ++ ".php" := by
  rcases prepares.isPlaced sound alphanumeric member with ⟨descriptor, among, rendered, placed⟩ |
    ⟨folder, other, elsewhere, notModels, _⟩
  · cases placed with
    | model here => exact ⟨descriptor, among, rendered, (lies.unique here).2⟩
    | migration _ _ here => exact absurd (lies.unique here).1 (by decide)
    | elsewhere here =>
        obtain ⟨folder, other, elsewhere, notModels, _⟩ := here
        exact absurd (lies.unique elsewhere).1.symm notModels
  · exact absurd (lies.unique elsewhere).1.symm notModels

/-- A file in the folder of migrations is that of a key. -/
theorem migration_of_liesIn
    (prepares : Prepares request tree sequence preparation) (sound : tree.IsSound)
    (alphanumeric : request.IsAlphanumeric) {file : OutputFile}
    (member : file ∈ preparation.rendering.files) {name : String}
    (lies : LiesIn file.path "Database/Migrations" name) :
    ∃ descriptor ∈ preparation.descriptors, ∃ key,
      ((request.plan tree preparation.keys).filesOf descriptor).isOk = true ∧
        Keyed.get? preparation.keys descriptor.entity = some key ∧
          name = Migration.fileName key descriptor.table := by
  rcases prepares.isPlaced sound alphanumeric member with ⟨descriptor, among, rendered, placed⟩ |
    ⟨folder, other, elsewhere, _, notMigrations⟩
  · cases placed with
    | model here => exact absurd (lies.unique here).1 (by decide)
    | migration key given here =>
        exact ⟨descriptor, among, key, rendered, given, (lies.unique here).2⟩
    | elsewhere here =>
        obtain ⟨folder, other, elsewhere, _, notMigrations⟩ := here
        exact absurd (lies.unique elsewhere).1.symm notMigrations
  · exact absurd (lies.unique elsewhere).1.symm notMigrations

/-- A file in the folder of models is that of an entity whose model is asked for. -/
theorem asksModel_of_liesIn
    (prepares : Prepares request tree sequence preparation) {file : OutputFile}
    (member : file ∈ preparation.rendering.files) {name : String}
    (lies : LiesIn file.path "Models" name) :
    ∃ descriptor ∈ preparation.descriptors,
      ((request.plan tree preparation.keys).filesOf descriptor).isOk = true ∧
        FileKind.model ∈ (request.plan tree preparation.keys).kinds descriptor.entity := by
  rcases prepares.exists_of_mem_files member with ⟨descriptor, among, files, rendered, within⟩ |
    ⟨files, rendered, within⟩
  · obtain ⟨kind, asked, one, planned, same⟩ :=
      (RenderPlan.exists_plan_of_filesOf rendered file.path).mp ⟨file, within, rfl⟩
    rw [← same] at lies
    obtain rfl := Descriptor.kind_eq_model_of_liesIn planned lies
    exact ⟨descriptor, among, by rw [rendered]; rfl, asked⟩
  · rw [RenderPlan.aggregatesOf, Aggregate.generate] at rendered
    obtain ⟨one, planned, same⟩ :=
      (exists_plan_of_output rendered file.path).mp ⟨file, within, rfl⟩
    obtain ⟨other, among, equal⟩ := List.mem_map.mp planned
    obtain ⟨_, _, _, _, characters⟩ := Text.exists_of_isClassName prepares.isNamed.module
    obtain ⟨folder, last, elsewhere, notModels, _⟩ :=
      Aggregate.liesElsewhere_of_mem_plans characters among
    rw [← same, ← Except.ok.inj equal] at lies
    exact absurd (lies.unique elsewhere).1.symm notModels

end Prepares

/-! ## What is new after an export -/

namespace Exporter

variable {exporter : Exporter} {files : List OutputFile}

/-- The folders of an export lie at most two folders deep. -/
theorem length_le_of_makes
    (lies : ∀ file ∈ files, ∃ folder name, LiesIn file.path folder name) {location : Location}
    (makes : exporter.Makes files location) :
    location.length ≤ exporter.folder.names.length + 2 := by
  rcases makes with ⟨name, member, before⟩ | before | ⟨file, member, before⟩
  · have short : ∀ name ∈ moduleFolders, (Path.namesOf name.toList).length ≤ 2 := by
      decide
    have bound := before.length_le
    rw [locationOf, List.length_append] at bound
    exact bound.trans (Nat.add_le_add_left (short name member) _)
  · have bound := before.length_le
    rw [locationOf, namesOf_manifestName, List.dropLast_concat] at bound
    omega
  · obtain ⟨folder, name, here⟩ := lies file member
    have bound := before.length_le
    rw [locationOf, here.namesOf, ← List.append_assoc, List.dropLast_concat, List.length_append]
      at bound
    exact bound.trans (Nat.add_le_add_left here.length_le _)

/-- No folder that an export makes has the name of a script. -/
theorem not_makes_script
    (lies : ∀ file ∈ files, ∃ folder name, LiesIn file.path folder name) (above : Location)
    {name : String} (script : ".php".toList.isSuffixOf name.toList = true) :
    ¬ exporter.Makes files (exporter.folder.names ++ above ++ [name]) := by
  have among {other : Location} (no : ∀ part ∈ other, ".php".toList.isSuffixOf part.toList = false)
      (before : exporter.folder.names ++ above ++ [name] <+: exporter.folder.names ++ other) :
      False := by
    rw [List.append_assoc, List.prefix_append_right_inj] at before
    have here := no name (before.subset (by simp))
    rw [script] at here
    cases here
  rintro (⟨folder, member, before⟩ | before | ⟨file, member, before⟩)
  · have none : ∀ folder ∈ moduleFolders, ∀ part ∈ Path.namesOf folder.toList,
        ".php".toList.isSuffixOf part.toList = false := by
      decide
    exact among (none folder member) before
  · rw [locationOf, namesOf_manifestName, List.dropLast_concat] at before
    exact among (List.forall_mem_nil _) (by rwa [List.append_nil])
  · have none : ∀ folder ∈ fileFolders, ∀ part ∈ Path.namesOf folder.toList,
        ".php".toList.isSuffixOf part.toList = false := by
      decide
    obtain ⟨folder, other, here⟩ := lies file member
    rw [locationOf, here.namesOf, ← List.append_assoc, List.dropLast_concat] at before
    exact among (none folder here.folder) before

/-- A script that an export adds is one of its files. -/
theorem exists_of_writes_php
    (lies : ∀ file ∈ files, ∃ folder name, LiesIn file.path folder name) {above : Location}
    {name : String} (script : ".php".toList.isSuffixOf name.toList = true)
    (writes : exporter.Writes files (above ++ [name]) ∨
      above ++ [name] = exporter.locationOf ledgerName) :
    ∃ file ∈ files, ∃ folder, LiesIn file.path folder name ∧
      above = exporter.folder.names ++ Path.namesOf folder.toList := by
  have notScript {other : String} (plain : IsPlainName other)
      (noScript : ".php".toList.isSuffixOf other.toList = false)
      (same : above ++ [name] = exporter.locationOf other) : False := by
    rw [locationOf, Path.namesOf_plain plain] at same
    have last := List.singleton_inj.mp (List.append_inj' same rfl).2
    rw [last, noScript] at script
    cases script
  rcases writes with (manifest | ⟨file, member, here⟩) | ledger
  · exact (notScript isPlainName_manifestName (by decide) manifest).elim
  · obtain ⟨folder, other, place⟩ := lies file member
    rw [locationOf, place.namesOf, ← List.append_assoc] at here
    obtain ⟨above, last⟩ := List.append_inj' here rfl
    obtain rfl := List.singleton_inj.mp last
    exact ⟨file, member, folder, place, above⟩
  · exact (notScript isPlainName_ledgerName (by decide) ledger).elim

/-- An export writes no stub. -/
theorem not_writes_stub
    (lies : ∀ file ∈ files, ∃ folder name, LiesIn file.path folder name) (above : Location)
    (name : String) :
    ¬ (exporter.Writes files (above ++ [name ++ ".stub"]) ∨
      above ++ [name ++ ".stub"] = exporter.locationOf ledgerName) := by
  have ending : (name ++ ".stub").toList.getLast? = some 'b' := by
    simp [String.toList_append]
  have other {last : String} (plain : IsPlainName last) (ends : last.toList.getLast? ≠ some 'b')
      (same : above ++ [name ++ ".stub"] = exporter.locationOf last) : False := by
    rw [locationOf, Path.namesOf_plain plain] at same
    rw [← List.singleton_inj.mp (List.append_inj' same rfl).2] at ends
    exact ends ending
  rintro ((manifest | ⟨file, member, here⟩) | ledger)
  · exact other isPlainName_manifestName (by decide) manifest
  · obtain ⟨folder, last, place⟩ := lies file member
    rw [locationOf, place.namesOf, ← List.append_assoc] at here
    have script := place.ending
    rw [← List.singleton_inj.mp (List.append_inj' here rfl).2, List.isSuffixOf_iff_suffix] at script
    obtain ⟨before, whole⟩ := script
    rw [← whole] at ending
    simp at ending
  · exact other isPlainName_ledgerName (by decide) ledger

end Exporter

/-! ## Files that have landed -/

/-- The files of a preparation and its ledger have been exported without errors. -/
structure Landed (request : Request) (tree later : Tree) (sequence : Migration.Sequence)
    (preparation : Preparation) (exporter : Exporter) : Prop where
  prepares : Prepares request tree sequence preparation
  sound : tree.IsSound
  alphanumeric : request.IsAlphanumeric
  plain : exporter.IsPlain
  place : exporter.folder.names = tree.resolve request.folder
  real : exporter.dryRun = false
  lands : Lands exporter request.folder preparation.rendering.ledger preparation.rendering.files
    tree later

/-- A run that exports without errors lands its files. -/
theorem Run.Exports.landed
    {generator : Generator} {request : Request} {preparation : Preparation}
    {before middle after : Run}
    (exports : Exports generator request preparation.rendering before middle after)
    (prepares : Prepares request before.tree before.sequence preparation)
    (sound : before.tree.IsSound) (alphanumeric : request.IsAlphanumeric)
    (real : generator.dryRun = false) (running : after.stopped = none)
    (clean : after.report.exportErrors = []) :
    Landed request before.tree after.tree before.sequence preparation
      (generator.exporter request.config before.tree request.folder
        preparation.rendering.ledger) where
  prepares := prepares
  sound := sound
  alphanumeric := alphanumeric
  plain := generator.isPlain_exporter _ sound prepares.isProper_folder _
  place := generator.names_exporter _ _ _ _
  real := real
  lands := by
    have lands := (lands_of_exportFiles exports.exported real running clean).1
    rwa [exports.tree] at lands

namespace Landed

variable {request : Request} {tree later : Tree} {sequence : Migration.Sequence}
  {preparation : Preparation} {exporter : Exporter}

theorem exists_liesIn (landed : Landed request tree later sequence preparation exporter) :
    ∀ file ∈ preparation.rendering.files, ∃ folder name, LiesIn file.path folder name :=
  fun _ => landed.prepares.exists_liesIn landed.sound landed.alphanumeric

theorem isPlainPath (landed : Landed request tree later sequence preparation exporter) :
    ∀ file ∈ preparation.rendering.files, IsPlainPath file.path := by
  intro file member
  obtain ⟨_, _, lies⟩ := landed.exists_liesIn file member
  exact lies.isPlainPath

theorem locationOf_ne
    (landed : Landed request tree later sequence preparation exporter) {name : String}
    (plain : IsPlainName name) :
    ∀ file ∈ preparation.rendering.files, exporter.locationOf file.path ≠ exporter.locationOf name := by
  intro file member
  obtain ⟨_, _, lies⟩ := landed.exists_liesIn file member
  refine Lands.locationOf_ne ?_
  rw [Path.namesOf_plain plain]
  exact lies.namesOf_ne_singleton name

theorem spec (landed : Landed request tree later sequence preparation exporter) :
    Lands.Spec exporter request.folder preparation.rendering.ledger preparation.rendering.files
      tree later :=
  landed.lands.spec landed.plain landed.real landed.sound landed.prepares.isProper_folder
    landed.place.symm landed.isPlainPath (landed.locationOf_ne isPlainName_ledgerName)

theorem extended (landed : Landed request tree later sequence preparation exporter) :
    Extends tree later :=
  landed.spec.growth.toExtends

theorem laterSound (landed : Landed request tree later sequence preparation exporter) :
    later.IsSound :=
  landed.spec.growth.sound landed.sound

/-- On a steady path nothing but the export makes folders. -/
theorem growth_of_isSteady
    (landed : Landed request tree later sequence preparation exporter)
    (steady : tree.IsSteady (.ofText request.config.modulesPath)) :
    Grows
      (fun location => exporter.Writes preparation.rendering.files location ∨
        preparation.rendering.ledger.unsaved = true ∧ location = exporter.locationOf ledgerName)
      (exporter.Makes preparation.rendering.files) tree later :=
  landed.spec.growth_of_isSteady landed.lands landed.plain landed.real landed.sound
    landed.prepares.isProper_folder landed.place.symm (landed.prepares.isSteady_folder steady)
    landed.isPlainPath

theorem ledger_eq (landed : Landed request tree later sequence preparation exporter) :
    preparation.rendering.ledger =
      (request.plan tree preparation.keys).entered preparation.descriptors preparation.loaded :=
  landed.prepares.renders.ledger

theorem loaded_spec (landed : Landed request tree later sequence preparation exporter) :
    preparation.loaded.IsOrderly ∧
      preparation.loaded.module = (Ledger.ofModule request.module).module :=
  Ledger.isOrderly_of_load (Ledger.isOrderly_ofModule _) landed.prepares.loaded

theorem ledger_extends (landed : Landed request tree later sequence preparation exporter) :
    Ledger.Extends preparation.loaded preparation.rendering.ledger := by
  rw [landed.ledger_eq]
  exact RenderPlan.entered_extends _ _ _

theorem resolve_ledger (landed : Landed request tree later sequence preparation exporter) :
    tree.resolve (Ledger.file request.folder) = exporter.locationOf ledgerName :=
  Lands.resolve_file landed.place.symm

theorem resolve_later
    (landed : Landed request tree later sequence preparation exporter) {path : String}
    (plain : IsPlainPath path) :
    later.resolve (request.folder.child path) = exporter.locationOf path := by
  rw [Tree.resolve_child_of_isPlainPath _ _ plain, landed.extended.resolve, ← landed.place]
  rfl

/-- A ledger without anything new leaves its file as it is. -/
theorem contentAt?_ledger
    (landed : Landed request tree later sequence preparation exporter)
    (saved : preparation.rendering.ledger.unsaved = false) :
    later.contentAt? (exporter.locationOf ledgerName) =
      tree.contentAt? (exporter.locationOf ledgerName) := by
  refine landed.spec.growth.contents _ ?_
  rintro ((manifest | ⟨file, member, here⟩) | ⟨wrong, _⟩)
  · exact Lands.locationOf_ne (by decide) manifest
  · exact landed.locationOf_ne isPlainName_ledgerName file member here.symm
  · rw [saved] at wrong
    cases wrong

/-- A rendering of whole entities enters each of them with its seeder. -/
theorem knows
    (landed : Landed request tree later sequence preparation exporter)
    (whole : request.selection = none) {descriptor : Descriptor}
    (member : descriptor ∈ preparation.descriptors)
    (rendered : ((request.plan tree preparation.keys).filesOf descriptor).isOk = true) :
    preparation.rendering.ledger.Knows descriptor.entity := by
  rw [landed.ledger_eq]
  exact RenderPlan.knows_of_entered whole member rendered _

/-- A ledger that was not in its file has something new, unless it is empty. -/
theorem eq_ofModule_of_saved
    (landed : Landed request tree later sequence preparation exporter)
    (saved : preparation.rendering.ledger.unsaved = false)
    (absent : tree.isFile (Ledger.file request.folder) ≠ .ok true) :
    preparation.rendering.ledger = Ledger.ofModule request.module := by
  have same := landed.ledger_extends.same saved
  rw [same] at saved ⊢
  exact (Ledger.extends_of_load landed.prepares.loaded absent).same saved

/-- After a rendering of whole entities the ledger is in its file. -/
theorem isKept_of_whole
    (landed : Landed request tree later sequence preparation exporter)
    (whole : request.selection = none) :
    preparation.rendering.ledger.unsaved = true ∨
      tree.isFile (Ledger.file request.folder) = .ok true := by
  by_contra neither
  rw [not_or, Bool.not_eq_true] at neither
  obtain ⟨descriptor, member, rendered⟩ := landed.prepares.exists_rendered
  have known := (landed.knows whole member rendered).listed
  rw [landed.eq_ofModule_of_saved neither.1 neither.2] at known
  cases known

/-- The ledger that is in its file after an export is loaded from there. -/
theorem load_later
    (landed : Landed request tree later sequence preparation exporter)
    (isKept : preparation.rendering.ledger.unsaved = true ∨
      tree.isFile (Ledger.file request.folder) = .ok true) :
    later.isFile (Ledger.file request.folder) = .ok true ∧
      (Ledger.ofModule request.module).load later request.folder =
        ({ preparation.rendering.ledger with unsaved := false }, none) := by
  obtain ⟨orderly, module⟩ := landed.loaded_spec
  have extended := landed.ledger_extends
  cases unsaved : preparation.rendering.ledger.unsaved with
  | true =>
      have isSaved := landed.spec.saved unsaved
      refine ⟨isSaved.1, ?_⟩
      rw [Ledger.load_of_isSavedIn (extended.orderly orderly) isSaved,
        Ledger.eq_of_module_eq (extended.module.trans module)]
  | false =>
      have isFile := isKept.resolve_left (by simp [unsaved])
      have same := extended.same unsaved
      have content : later.contentAt? (later.resolve (Ledger.file request.folder)) =
          tree.contentAt? (later.resolve (Ledger.file request.folder)) := by
        rw [landed.extended.resolve, landed.resolve_ledger]
        exact landed.contentAt?_ledger unsaved
      have isFileLater := landed.extended.isFile isFile
      refine ⟨isFileLater, ?_⟩
      rw [Ledger.load, isFileLater,
        landed.extended.readText_eq_of_isFile landed.sound isFile content,
        Ledger.eq_of_unsaved_eq_false unsaved, same]
      have loaded := landed.prepares.loaded
      rw [Ledger.load, isFile] at loaded
      exact loaded

end Landed

end Scaffold
