import Scaffold.Proofs.Export.Account

/-!
# Dry runs

A dry run changes nothing, so every file is looked up in the tree as it was.  The real export looks
a file up after the folders of the module and the files before it are there; the answer is the same
all the same, and so both report the same.
-/

namespace Scaffold

open Scaffold.Disk (DiskError IsPlainName Location Path Tree)
open Scaffold.Disk.Tree (Extends Grows)

/-- The record of a file that is only planned instead of written. -/
def FileRecord.asPlanned (record : FileRecord) : FileRecord :=
  if record.status = .written then { record with status := .planned } else record

namespace Exporter

/-- An exporter does as a dry run what another one does to the tree. -/
structure Rehearses (dry exporter : Exporter) : Prop where
  config : dry.config = exporter.config
  folder : dry.folder = exporter.folder
  dryRun : dry.dryRun = true
  real : exporter.dryRun = false

/-- The result of a dry run tells the result of an export without errors in advance. -/
structure Foretells (dry exporter : Exporter) (planned done : Export) : Prop where
  clean : planned.IsClean
  records : planned.records = done.records.map FileRecord.asPlanned
  skipped : (dry.manifest planned).withStatus .skipped = (exporter.manifest done).withStatus .skipped
  fileCount : (dry.manifest planned).fileCount = (exporter.manifest done).fileCount
  byteCount : (dry.manifest planned).byteCount = (exporter.manifest done).byteCount
  lineCount : (dry.manifest planned).lineCount = (exporter.manifest done).lineCount
  /-- The warnings are those of skipped files, behind which only the manifest can add one. -/
  warnings : done.warnings = planned.warnings ∨
    ∃ error : DiskError,
      done.warnings = planned.warnings ++ ["Could not write manifest: " ++ error.message]

variable {dry exporter : Exporter}

/-! ## The tree of a dry run -/

theorem tree_addFile_of_dry (isDry : dry.dryRun = true) (state : Export) (file : OutputFile) :
    (dry.addFile state file).tree = state.tree := by
  cases answered : state.tree.has (dry.folder.child file.path) with
  | error error => simp [addFile, answered, Export.stop]
  | ok found =>
      rcases addFile_cases answered with ⟨_, outcome⟩ | ⟨_, _, outcome⟩ | ⟨_, real, _⟩
      · rw [outcome]
        rfl
      · rw [outcome]
        rfl
      · rw [isDry] at real
        cases real

theorem tree_addFiles_of_dry (isDry : dry.dryRun = true) (files : List OutputFile) (state : Export) :
    (dry.addFiles files state).tree = state.tree := by
  induction files using List.reverseRecOn with
  | nil => rfl
  | append_singleton files file hypothesis =>
      rw [addFiles_concat, Export.next]
      split_ifs
      · exact hypothesis
      · rw [tree_addFile_of_dry isDry, hypothesis]

/-- A dry run exports its files to the tree as it is, and ends. -/
theorem run_eq_addFiles (isDry : dry.dryRun = true) (tree : Tree) (files : List OutputFile) :
    dry.run tree files =
      (dry.addFiles files { tree, stopped := dry.refusal? }).next dry.close := by
  simp only [run, isDry, Bool.not_true, Bool.and_false, Bool.false_and, Bool.false_eq_true, if_false,
    if_true]
  rfl

/-- A dry run leaves the tree as it is. -/
theorem tree_run_of_dry (isDry : dry.dryRun = true) (tree : Tree) (files : List OutputFile) :
    (dry.run tree files).tree = tree := by
  rw [run_eq_addFiles isDry, (close_spec dry _).2, tree_addFiles_of_dry isDry]

/-! ## What is asked of the tree -/

/-- What an export asks about a file later can be asked of its first tree already. -/
theorem exists_has_of_addFiles
    (plain : exporter.IsPlain) {files : List OutputFile}
    (relative : ∀ file ∈ files, IsPlainPath file.path) {first : Tree} {state : Export}
    (growth : Extends first state.tree) (sound : state.tree.IsSound)
    (running : (exporter.addFiles files state).stopped = none) :
    ∀ file ∈ files, ∃ found, first.has (exporter.folder.child file.path) = .ok found := by
  induction files using List.reverseRecOn with
  | nil => simp
  | append_singleton files file hypothesis =>
      rw [addFiles_concat] at running
      obtain ⟨runningBefore, runningNow⟩ := Export.stopped_of_next running
      have relativeBefore : ∀ other ∈ files, IsPlainPath other.path := fun other member =>
        relative other (List.mem_append_left _ member)
      have grown := growth.trans (grows_addFiles plain relativeBefore state sound).toExtends
      rw [List.forall_mem_append, List.forall_mem_singleton]
      refine ⟨hypothesis relativeBefore runningBefore, ?_⟩
      obtain ⟨found, answered⟩ := exists_has_of_addFile runningNow
      rw [Tree.has] at answered ⊢
      cases inspected : first.inspect (exporter.folder.child file.path) with
      | ok kind => exact ⟨_, rfl⟩
      | error error =>
          rw [(grown.inspect_error inspected).2] at answered
          cases answered

/-- The name of a file that an export meets without an error can stand in a path. -/
theorem hasZero_of_meets
    {tree : Tree} {file : OutputFile} (meets : exporter.Meets tree file) :
    Tree.hasZero (exporter.folder.child file.path) = false := by
  have there : tree.has (exporter.folder.child file.path) = .ok true := by
    rw [Meets] at meets
    split_ifs at meets
    · exact meets
    · exact has_of_isFile meets.file
  obtain ⟨kind, inspected⟩ := has_eq_true_iff.mp there
  rw [Tree.inspect] at inspected
  split at inspected
  · rename_i location located
    exact (Tree.locate_eq_ok_iff.mp located).1.1
  · cases inspected
  · cases inspected

/-- A dry run of files that can be looked up is not stopped. -/
theorem stopped_addFiles_of_dry
    (plain : dry.IsPlain) (isDry : dry.dryRun = true) {files : List OutputFile}
    (relative : ∀ file ∈ files, IsPlainPath file.path)
    (zeroFree : ∀ file ∈ files, Tree.hasZero (.ofRoot (dry.locationOf file.path)) = false)
    {state : Export} (running : state.stopped = none)
    (answered : ∀ file ∈ files,
      ∃ found, state.tree.has (dry.folder.child file.path) = .ok found) :
    (dry.addFiles files state).stopped = none := by
  induction files using List.reverseRecOn with
  | nil => exact running
  | append_singleton files file hypothesis =>
      have before := hypothesis (fun other member => relative other (List.mem_append_left _ member))
        (fun other member => zeroFree other (List.mem_append_left _ member))
        fun other member => answered other (List.mem_append_left _ member)
      obtain ⟨found, answer⟩ := answered file (by simp)
      rw [← tree_addFiles_of_dry isDry files state] at answer
      rw [addFiles_concat, Export.next_eq before]
      exact stopped_addFile plain (relative file (by simp)) before (zeroFree file (by simp)) answer

/-! ## What becomes of a file -/

namespace Rehearses

theorem locationOf (rehearses : dry.Rehearses exporter) : dry.locationOf = exporter.locationOf := by
  funext text
  rw [Exporter.locationOf, Exporter.locationOf, rehearses.folder]

/-- A dry run skips what is skipped, and plans what is written or cannot be written. -/
theorem fate?_eq (rehearses : dry.Rehearses exporter) (tree : Tree) (file : OutputFile) :
    dry.fate? tree file =
      if exporter.fate? tree file = some .skipped then some .skipped else some .planned := by
  have yields : dry.yields file = exporter.yields file := by
    rw [yields, yields, rehearses.config]
  rw [fate?, fate?, rehearses.locationOf, yields, rehearses.dryRun, rehearses.real]
  generalize (exporter.yields file && _) = skips
  cases skips with
  | true => rfl
  | false =>
      by_cases writable : tree.CanWrite exporter.writeMode (exporter.locationOf file.path)
      · simp [writable]
      · simp [writable]

/-- Where no file fails, the records of a dry run are those of the export, but planned. -/
theorem records_eq
    (rehearses : dry.Rehearses exporter) {tree : Tree} {files : List OutputFile}
    (succeeds : ∀ file ∈ files, exporter.fate? tree file ≠ none) :
    (files.filterMap fun file => (dry.fate? tree file).map (FileRecord.ofFile file)) =
      (files.filterMap fun file => (exporter.fate? tree file).map (FileRecord.ofFile file)).map
        FileRecord.asPlanned := by
  rw [List.map_filterMap]
  apply List.filterMap_congr
  intro file member
  rw [rehearses.fate?_eq]
  cases fate : exporter.fate? tree file with
  | none => exact absurd fate (succeeds file member)
  | some status =>
      cases status with
      | written => rfl
      | skipped => rfl
      | planned => exact absurd fate (fate?_ne_planned rehearses.real tree file)

end Rehearses

theorem counted_asPlanned (records : List FileRecord) :
    (records.map FileRecord.asPlanned).filter (·.status != .skipped) =
      (records.filter (·.status != .skipped)).map FileRecord.asPlanned := by
  rw [List.filter_map]
  congr 1
  apply List.filter_congr
  intro record _
  rw [Function.comp, FileRecord.asPlanned]
  split_ifs with written
  · rw [written]
    rfl
  · rfl

theorem skipped_asPlanned (records : List FileRecord) :
    (records.map FileRecord.asPlanned).filter (·.status == .skipped) =
      records.filter (·.status == .skipped) := by
  induction records with
  | nil => rfl
  | cons record rest hypothesis =>
      rw [List.map_cons, List.filter_cons, List.filter_cons, hypothesis, FileRecord.asPlanned]
      by_cases written : record.status = .written
      · simp [written]
      · simp [written]

theorem size_asPlanned (record : FileRecord) : record.asPlanned.size = record.size := by
  rw [FileRecord.asPlanned]
  split_ifs <;> rfl

theorem lineCount_asPlanned (record : FileRecord) :
    record.asPlanned.lineCount = record.lineCount := by
  rw [FileRecord.asPlanned]
  split_ifs <;> rfl

/-- Planned records count as much as the written ones. -/
theorem Foretells.of_records
    {planned done : Export} (clean : planned.IsClean)
    (records : planned.records = done.records.map FileRecord.asPlanned)
    (warnings : done.warnings = planned.warnings ∨
      ∃ error : DiskError,
        done.warnings = planned.warnings ++ ["Could not write manifest: " ++ error.message]) :
    dry.Foretells exporter planned done := by
  have counted : (dry.manifest planned).counted =
      (exporter.manifest done).counted.map FileRecord.asPlanned := by
    rw [Manifest.counted, manifest, records, counted_asPlanned]
    rfl
  constructor
  · exact clean
  · exact records
  · rw [Manifest.withStatus, manifest, records, skipped_asPlanned]
    rfl
  · rw [Manifest.fileCount, counted, List.length_map]
    rfl
  · rw [Manifest.byteCount, counted, List.map_map]
    simp only [Function.comp_def, size_asPlanned]
    rfl
  · rw [Manifest.lineCount, counted, List.map_map]
    simp only [Function.comp_def, lineCount_asPlanned]
    rfl
  · exact warnings

/-- The end of an export adds at most one warning, of the manifest. -/
theorem Concludes.warnings
    {before after : Export} (concludes : exporter.Concludes before after) :
    after.warnings = before.warnings ∨
      ∃ error : DiskError,
        after.warnings = before.warnings ++ ["Could not write manifest: " ++ error.message] := by
  by_cases unlisted : exporter.lists = false ∨ before.errors ≠ []
  · exact .inl (concludes.unlisted unlisted)
  · rw [not_or, Bool.not_eq_false, not_not] at unlisted
    obtain ⟨lists, clean⟩ := unlisted
    by_cases can : before.tree.CanWrite exporter.writeMode (exporter.locationOf manifestName)
    · exact .inl (concludes.listed lists clean can).1
    · exact .inr (concludes.refused lists clean can).1

/-! ## Whole exports -/

/-- An export without errors is foretold by a dry run to the same tree. -/
theorem foretells_run
    (plain : exporter.IsPlain) (rehearses : dry.Rehearses exporter) {tree : Tree}
    (sound : tree.IsSound) {files : List OutputFile} (apart : StandApart files)
    (clean : (exporter.run tree files).IsClean) :
    dry.Foretells exporter (dry.run tree files) (exporter.run tree files) := by
  have real := rehearses.real
  have dryPlain : dry.IsPlain := ⟨rehearses.folder ▸ plain.start, rehearses.folder ▸ plain.names⟩
  have exported := ((run_spec real tree files).1).mp clean
  have preparing := grows_addFolders plain isPlainPath_of_mem_moduleFolders
    { tree, stopped := exporter.refusal? } sound
  obtain ⟨preparedClean, meets, _⟩ :=
    addFiles_spec plain real apart.relative (preparing.sound sound) exported
  have accepted : exporter.refusal? = none :=
    (addFolders_spec plain isPlainPath_of_mem_moduleFolders sound preparedClean).1.running
  have dryAccepted : dry.refusal? = none := by
    rw [refusal?, rehearses.folder]
    exact accepted
  have zeroFree : ∀ file ∈ files,
      Tree.hasZero (.ofRoot (exporter.locationOf file.path)) = false := by
    intro file member
    rw [← child_eq plain (apart.relative file member)]
    exact hasZero_of_meets (meets file member)
  have zeroFreePaths : ∀ file ∈ files, Tree.hasZero (.ofText file.path) = false := by
    intro file member
    have whole := zeroFree file member
    rw [hasZero_locationOf, Bool.or_eq_false_iff] at whole
    exact whole.2
  -- No file fails, for each that fails would have left an error.
  obtain ⟨prepared, _, noRecords, noWarnings, _, reports⟩ :=
    reports_exported plain sound apart zeroFreePaths exported.running
  have succeeds : ∀ file ∈ files, exporter.fate? tree file ≠ none := by
    obtain ⟨messages, errors, told⟩ := reports.errors
    rw [exported.errors, eq_comm, List.append_eq_nil_iff] at errors
    rw [errors.2, List.forall₂_nil_right_iff, List.filter_eq_nil_iff] at told
    simpa using told
  -- The dry run asks about each file what the export has asked, and so it goes on as well.
  have answered := exists_has_of_addFiles plain apart.relative preparing.toExtends
    (preparing.sound sound) exported.running
  have dryRunning : (dry.addFiles files { tree, stopped := dry.refusal? }).stopped = none := by
    apply stopped_addFiles_of_dry dryPlain rehearses.dryRun apart.relative
    · rwa [rehearses.locationOf]
    · exact dryAccepted
    · rwa [rehearses.folder]
  have dryReports := reports_addFiles dryPlain sound apart (by rwa [rehearses.locationOf])
    (.refl tree) dryRunning
  have dryErrors : (dry.addFiles files { tree, stopped := dry.refusal? }).errors = [] := by
    obtain ⟨messages, errors, told⟩ := dryReports.errors
    have none : files.filter (dry.fate? tree · = none) = [] := by
      rw [List.filter_eq_nil_iff]
      intro file _
      rw [rehearses.fate?_eq]
      split_ifs <;> simp
    rw [none, List.forall₂_nil_left_iff] at told
    rw [errors, told]
    rfl
  have exportedSound := (grows_exported plain sound apart.relative).sound sound
  have concludes := concludes_run plain real exportedSound exported.running
  obtain ⟨logs, closed⟩ := exists_logs_close dry (dry.addFiles files { tree, stopped := dry.refusal? })
  rw [run_eq_addFiles rehearses.dryRun, closed]
  apply Foretells.of_records
  · exact ⟨dryErrors, dryRunning⟩
  · rw [concludes.records, reports.records, noRecords, List.nil_append]
    exact dryReports.records.trans (rehearses.records_eq succeeds)
  · have skipped : dry.skipWarnings tree files = exporter.skipWarnings tree files := by
      have same (file : OutputFile) :
          dry.fate? tree file = some .skipped ↔ exporter.fate? tree file = some .skipped := by
        rw [rehearses.fate?_eq]
        split_ifs with isSkipped <;> simp [isSkipped]
      simp only [skipWarnings, same]
    have before : (exporter.exported tree files).warnings = dry.skipWarnings tree files := by
      rw [reports.warnings, noWarnings, List.nil_append, skipped]
      rfl
    have planned : (dry.addFiles files { tree, stopped := dry.refusal? }).warnings =
        dry.skipWarnings tree files :=
      dryReports.warnings
    dsimp only
    rw [planned, ← before]
    exact concludes.warnings

end Exporter

end Scaffold
