import Mathlib.Algebra.GroupWithZero.Nat
import Scaffold.Proofs.Export.Outcome

/-!
# The account of an export

An export that goes to its end has done what it reports: files that are written hold what was
generated for them and are described as they are on the disk, all others are as before, and the
totals and the manifest follow.  An export goes to its end while all names fit.
-/

namespace Scaffold

open Scaffold.Disk (Content DiskError IsPlainName Location Path Tree)
open Scaffold.Disk.Tree (Fits Grows)

namespace Exporter

variable {exporter : Exporter}

/-! ## The manifest -/

/-- The warnings of the files that are skipped. -/
def skipWarnings (exporter : Exporter) (tree : Tree) (files : List OutputFile) : List String :=
  (files.filter (exporter.fate? tree · = some .skipped)).map (·.skipWarning)

/-- All that can become of the manifest. -/
theorem addManifest_cases
    (plain : exporter.IsPlain) {state : Export} (sound : state.tree.IsSound) :
    ∃ made logs, Grows (· = exporter.locationOf manifestName)
        (· <+: (exporter.locationOf manifestName).dropLast) state.tree made ∧
      (state.tree.CanWrite exporter.writeMode (exporter.locationOf manifestName) ∧
          exporter.addManifest state = { state with tree := made, logs } ∧
          made.contentAt? (exporter.locationOf manifestName) =
            some (.text (exporter.manifest state).text) ∨
        ¬ state.tree.CanWrite exporter.writeMode (exporter.locationOf manifestName) ∧
          made.contentAt? (exporter.locationOf manifestName) =
            state.tree.contentAt? (exporter.locationOf manifestName) ∧
          ∃ error : DiskError, exporter.addManifest state =
            { state with
              tree := made
              warnings := state.warnings ++ ["Could not write manifest: " ++ error.message]
              logs }) := by
  have plainPlace := plain_locationOf plain isPlainPath_manifestName
  obtain ⟨growth, written, failed⟩ := Tree.writeFile_spec sound exporter.writeMode
    (isProper_child plain isPlainPath_manifestName) (.text (exporter.manifest state).text)
  have succeeds := Tree.writeFile_eq_none_iff sound plainPlace exporter.writeMode
    (.text (exporter.manifest state).text)
  have place : state.tree.resolve (exporter.folder.child manifestName) =
      exporter.locationOf manifestName := by
    rw [child_eq plain isPlainPath_manifestName, Tree.resolve_ofRoot state.tree plainPlace]
  rw [← child_eq plain isPlainPath_manifestName] at succeeds
  rw [place] at growth written
  rw [addManifest, Tree.writeText]
  cases wrote : state.tree.writeFile exporter.writeMode (exporter.folder.child manifestName)
    (.text (exporter.manifest state).text) with
  | mk made outcome =>
      rw [wrote] at succeeds growth written failed
      have grown := growth.mono (fun _ => id) (passes_parent plain isPlainPath_manifestName)
      cases outcome with
      | none => exact ⟨made, _, grown, .inl ⟨succeeds.mp rfl, rfl, (written rfl).2⟩⟩
      | some error =>
          refine ⟨made, _, grown, .inr ⟨?_, ?_, error, rfl⟩⟩
          · intro can
            cases succeeds.mpr can
          · exact (failed (by simp)).contents _ not_false

theorem exists_logs_close (exporter : Exporter) (state : Export) :
    ∃ logs, state.next exporter.close = { state with logs } := by
  rw [Export.next]
  split_ifs
  · exact ⟨_, rfl⟩
  · rw [close]
    split_ifs
    · exact ⟨_, rfl⟩
    · exact ⟨_, rfl⟩

/-- What the end of an export adds to what its files have come to. -/
structure Concludes (exporter : Exporter) (before after : Export) : Prop where
  running : after.stopped = none
  errors : after.errors = before.errors
  records : after.records = before.records
  growth :
    Grows
      (fun location => (exporter.lists = true ∧ before.errors = []) ∧
        location = exporter.locationOf manifestName)
      (· <+: (exporter.locationOf manifestName).dropLast) before.tree after.tree
  unlisted : exporter.lists = false ∨ before.errors ≠ [] → after.warnings = before.warnings
  listed : exporter.lists = true → before.errors = [] →
    before.tree.CanWrite exporter.writeMode (exporter.locationOf manifestName) →
    after.warnings = before.warnings ∧
      after.tree.contentAt? (exporter.locationOf manifestName) =
        some (.text (exporter.manifest after).text)
  refused : exporter.lists = true → before.errors = [] →
    ¬ before.tree.CanWrite exporter.writeMode (exporter.locationOf manifestName) →
    (∃ error : DiskError,
      after.warnings = before.warnings ++ ["Could not write manifest: " ++ error.message]) ∧
      after.tree.contentAt? (exporter.locationOf manifestName) =
        before.tree.contentAt? (exporter.locationOf manifestName)

/-- An export whose files are done goes to its end. -/
theorem concludes_run
    (plain : exporter.IsPlain) (real : exporter.dryRun = false) {tree : Tree}
    {files : List OutputFile} (sound : (exporter.exported tree files).tree.IsSound)
    (running : (exporter.exported tree files).stopped = none) :
    exporter.Concludes (exporter.exported tree files) (exporter.run tree files) := by
  rw [run_eq_exported real]
  generalize exporter.exported tree files = before at sound running ⊢
  cases listing : exporter.lists && before.errors.isEmpty with
  | false =>
      obtain ⟨logs, closed⟩ := exists_logs_close exporter before
      have unlisted : ¬ (exporter.lists = true ∧ before.errors = []) := by
        simpa [List.isEmpty_iff] using listing
      simp only [Bool.false_eq_true, if_false]
      rw [closed]
      exact {
        running := running
        errors := rfl
        records := rfl
        growth := .refl _
        unlisted := fun _ => rfl
        listed := fun lists clean => absurd ⟨lists, clean⟩ unlisted
        refused := fun lists clean => absurd ⟨lists, clean⟩ unlisted }
  | true =>
      obtain ⟨lists, clean⟩ : exporter.lists = true ∧ before.errors = [] := by
        simpa [List.isEmpty_iff] using listing
      have notUnlisted : ¬ (exporter.lists = false ∨ before.errors ≠ []) := by
        simp [lists, clean]
      obtain ⟨made, logs, growth, outcome⟩ := addManifest_cases plain sound
      have grown := growth.mono
        (fun location here => ((⟨⟨lists, clean⟩, here⟩ :
          (exporter.lists = true ∧ before.errors = []) ∧
            location = exporter.locationOf manifestName))) fun _ => id
      obtain ⟨last, closed⟩ := exists_logs_close exporter (exporter.addManifest before)
      simp only [if_true]
      rw [Export.next_eq running, closed]
      rcases outcome with ⟨can, wrote, content⟩ | ⟨cannot, content, error, wrote⟩
      · rw [wrote]
        exact {
          running := running
          errors := rfl
          records := rfl
          growth := grown
          unlisted := fun unlisted => absurd unlisted notUnlisted
          listed := fun _ _ _ => ⟨rfl, content⟩
          refused := fun _ _ cannot => absurd can cannot }
      · rw [wrote]
        exact {
          running := running
          errors := rfl
          records := rfl
          growth := grown
          unlisted := fun unlisted => absurd unlisted notUnlisted
          listed := fun _ _ can => absurd can cannot
          refused := fun _ _ _ => ⟨⟨error, rfl⟩, content⟩ }

/-! ## Whole exports -/

/-- The locations where an export of files that lists them without an error writes. -/
def Changes (exporter : Exporter) (tree : Tree) (files : List OutputFile) (listed : Prop)
    (location : Location) : Prop :=
  listed ∧ location = exporter.locationOf manifestName ∨
    ∃ file ∈ files, exporter.fate? tree file = some .written ∧
      location = exporter.locationOf file.path

/-- An export reports what becomes of every file, and has done what it reports. -/
structure Accounts (exporter : Exporter) (tree : Tree) (files : List OutputFile) (result : Export) :
    Prop where
  /-- Nothing changes but the files that are written and the manifest of an export without errors. -/
  growth :
    Grows (exporter.Changes tree files (exporter.lists = true ∧ result.errors = []))
      (exporter.Makes files) tree result.tree
  kept : ∀ file ∈ files, exporter.fate? tree file ≠ some .written →
    result.tree.kindAt? (exporter.locationOf file.path) =
        tree.kindAt? (exporter.locationOf file.path) ∧
      result.tree.contentAt? (exporter.locationOf file.path) =
        tree.contentAt? (exporter.locationOf file.path)
  written : ∀ file ∈ files, exporter.fate? tree file = some .written →
    result.tree.contentAt? (exporter.locationOf file.path) = some (.text file.content)
  records : result.records =
    files.filterMap fun file => (exporter.fate? tree file).map (.ofFile file)
  /-- A record of a file that is written describes what is on the disk. -/
  described : ∀ record ∈ result.records, record.status = .written →
    ∃ text, result.tree.contentAt? (exporter.locationOf record.path) = some (.text text) ∧
      record.size = text.utf8ByteSize ∧ record.lineCount = Text.countLines text ∧
        record.checksum = Digest.sha256Text text
  fileCount : (exporter.manifest result).fileCount =
    (files.filter (exporter.fate? tree · = some .written)).length
  byteCount : (exporter.manifest result).byteCount =
    ((files.filter (exporter.fate? tree · = some .written)).map (·.size)).sum
  lineCount : (exporter.manifest result).lineCount =
    ((files.filter (exporter.fate? tree · = some .written)).map (·.lineCount)).sum
  /-- There is one error for each folder of the module and each file that cannot be there. -/
  errors : ∃ folderMessages fileMessages, result.errors = folderMessages ++ fileMessages ∧
    List.Forall₂ exporter.ReportsFolder
      (moduleFolders.filter fun name => ¬ exporter.CanMake tree name) folderMessages ∧
    List.Forall₂ OutputFile.IsReportedBy
      (files.filter (exporter.fate? tree · = none)) fileMessages
  unlisted : exporter.lists = false ∨ result.errors ≠ [] →
    result.warnings = exporter.skipWarnings tree files ∧
      result.tree.contentAt? (exporter.locationOf manifestName) =
        tree.contentAt? (exporter.locationOf manifestName)
  listed : exporter.lists = true → result.errors = [] →
    result.warnings = exporter.skipWarnings tree files ∧
        result.tree.contentAt? (exporter.locationOf manifestName) =
          some (.text (exporter.manifest result).text) ∨
      (∃ error : DiskError, result.warnings =
          exporter.skipWarnings tree files ++ ["Could not write manifest: " ++ error.message]) ∧
        ¬ (exporter.exported tree files).tree.CanWrite exporter.writeMode
          (exporter.locationOf manifestName) ∧
        result.tree.contentAt? (exporter.locationOf manifestName) =
          tree.contentAt? (exporter.locationOf manifestName)

theorem fate?_ne_planned (real : exporter.dryRun = false) (tree : Tree) (file : OutputFile) :
    exporter.fate? tree file ≠ some .planned := by
  rw [fate?, real]
  split_ifs <;> simp_all

/-- The records that count are those of the files that are written. -/
theorem counted_eq
    (real : exporter.dryRun = false) {tree : Tree} {files : List OutputFile} {result : Export}
    (records : result.records =
      files.filterMap fun file => (exporter.fate? tree file).map (.ofFile file)) :
    (exporter.manifest result).counted =
      (files.filter (exporter.fate? tree · = some .written)).map (.ofFile · .written) := by
  have shape : (exporter.manifest result).counted =
      result.records.filter (·.status != .skipped) := rfl
  rw [shape, records]
  clear shape records
  induction files with
  | nil => rfl
  | cons file rest hypothesis =>
      rw [List.filterMap_cons, List.filter_cons]
      cases fate : exporter.fate? tree file with
      | none => simpa using hypothesis
      | some status =>
          cases status with
          | written => simpa [FileRecord.ofFile] using hypothesis
          | skipped => simpa [FileRecord.ofFile] using hypothesis
          | planned => exact absurd fate (fate?_ne_planned real tree file)

theorem hasZero_eq_false (accepted : exporter.refusal? = none) :
    Tree.hasZero exporter.folder = false := by
  rw [refusal?] at accepted
  split_ifs at accepted with zero
  simpa using zero

theorem hasZero_moduleFolder
    (accepted : exporter.refusal? = none) {name : String} (member : name ∈ moduleFolders) :
    Tree.hasZero (.ofRoot (exporter.locationOf name)) = false := by
  have zeroFree : ∀ name ∈ moduleFolders, Tree.hasZero (.ofText name) = false := by
    decide
  rw [hasZero_locationOf, hasZero_eq_false accepted, zeroFree name member]
  rfl

/-- The folders are made first, which leaves what becomes of the files as it was. -/
theorem reports_exported
    (plain : exporter.IsPlain) {tree : Tree} (sound : tree.IsSound) {files : List OutputFile}
    (apart : StandApart files) (zeroFree : ∀ file ∈ files, Tree.hasZero (.ofText file.path) = false)
    (running : (exporter.exported tree files).stopped = none) :
    ∃ prepared : Export,
      Grows (fun _ => False)
        (fun location => ∃ name ∈ moduleFolders, location <+: exporter.locationOf name)
        tree prepared.tree ∧
      prepared.records = [] ∧ prepared.warnings = [] ∧
      List.Forall₂ exporter.ReportsFolder
        (moduleFolders.filter fun name => ¬ exporter.CanMake tree name) prepared.errors ∧
      exporter.Reports tree files prepared (exporter.exported tree files) := by
  have preparedRunning := Export.running_of_foldl exporter.addFile files _ running
  have accepted : exporter.refusal? = none :=
    Export.running_of_foldl exporter.addFolder moduleFolders _ preparedRunning
  have growth := grows_addFolders plain isPlainPath_of_mem_moduleFolders
    { tree, stopped := exporter.refusal? } sound
  have startRunning : ({ tree, stopped := exporter.refusal? } : Export).stopped = none := accepted
  obtain ⟨_, records, warnings, messages, errors, told⟩ := addFolders_reports plain
    isPlainPath_of_mem_moduleFolders (fun _ => hasZero_moduleFolder accepted) sound startRunning
  refine ⟨_, growth, records, warnings, ?_, ?_⟩
  · rw [errors]
    exact told
  · apply reports_addFiles plain sound apart
    · intro file member
      rw [hasZero_locationOf, hasZero_eq_false accepted, zeroFree file member]
      rfl
    · exact growth
    · exact running

/-- No folder is made at the place of a file that stands apart. -/
theorem not_makes_of_standApart
    {files : List OutputFile} (apart : StandApart files) {file : OutputFile} (member : file ∈ files) :
    ¬ exporter.Makes files (exporter.locationOf file.path) := by
  have nonempty := apart.namesOf_ne_nil member
  rintro (⟨name, among, before⟩ | before | ⟨other, among, before⟩)
  · exact apart.folders file member name among (locationOf_prefix_iff.mp before)
  · have short := before.length_le
    rw [locationOf, locationOf, namesOf_manifestName, List.dropLast_concat, List.length_append]
      at short
    exact nonempty (List.length_eq_zero_iff.mp (by omega))
  · have whole := before.trans (List.dropLast_prefix _)
    obtain rfl := apart.eq_of_prefix member among (locationOf_prefix_iff.mp whole)
    have short := before.length_le
    rw [List.length_dropLast] at short
    have root : (exporter.locationOf file.path).length = 0 := by omega
    rw [locationOf, List.length_append] at root
    exact nonempty (List.length_eq_zero_iff.mp (by omega))

/-- An export that is not stopped does what it reports. -/
theorem accounts_run
    (plain : exporter.IsPlain) (real : exporter.dryRun = false) {tree : Tree} (sound : tree.IsSound)
    {files : List OutputFile} (apart : StandApart files)
    (others : ∀ file ∈ files, Path.namesOf file.path.toList ≠ [manifestName])
    (zeroFree : ∀ file ∈ files, Tree.hasZero (.ofText file.path) = false)
    (running : (exporter.run tree files).stopped = none) :
    exporter.Accounts tree files (exporter.run tree files) := by
  have exportedRunning : (exporter.exported tree files).stopped = none := by
    rw [run_eq_exported real] at running
    have listed := (Export.stopped_of_next running).1
    split_ifs at listed
    · exact (Export.stopped_of_next listed).1
    · exact listed
  obtain ⟨prepared, preparing, noRecords, noWarnings, folderErrors, reports⟩ :=
    reports_exported plain sound apart zeroFree exportedRunning
  have exportedSound := reports.growth.sound (preparing.sound sound)
  have concludes := concludes_run plain real exportedSound exportedRunning
  have notManifest : ∀ file ∈ files,
      exporter.locationOf file.path ≠ exporter.locationOf manifestName := by
    intro file member same
    apply others file member
    rw [locationOf, locationOf, List.append_cancel_left_eq, namesOf_manifestName] at same
    exact same
  have growth : Grows
      (exporter.Changes tree files
        (exporter.lists = true ∧ (exporter.run tree files).errors = []))
      (exporter.Makes files) tree (exporter.run tree files).tree := by
    rw [concludes.errors]
    refine ((preparing.mono (fun _ => False.elim) fun _ => .inl).trans
      (reports.growth.mono (fun _ => .inr) fun _ before => .inr (.inr before))).trans
        (concludes.growth.mono (fun _ => .inl) fun _ before => .inr (.inl before))
  have manifestKept : (exporter.exported tree files).tree.contentAt?
      (exporter.locationOf manifestName) = tree.contentAt? (exporter.locationOf manifestName) := by
    rw [reports.growth.contents, preparing.contents _ not_false]
    rintro ⟨file, member, _, same⟩
    exact notManifest file member same.symm
  have records : (exporter.run tree files).records =
      files.filterMap fun file => (exporter.fate? tree file).map (.ofFile file) := by
    rw [concludes.records, reports.records, noRecords, List.nil_append]
  have warnings : (exporter.exported tree files).warnings = exporter.skipWarnings tree files := by
    rw [reports.warnings, noWarnings, List.nil_append]
    rfl
  have written : ∀ file ∈ files, exporter.fate? tree file = some .written →
      (exporter.run tree files).tree.contentAt? (exporter.locationOf file.path) =
        some (.text file.content) := by
    intro file member fate
    rw [concludes.growth.contents, reports.contents file member fate]
    rintro ⟨_, same⟩
    exact notManifest file member same
  have counted := counted_eq real records
  constructor
  · exact growth
  · intro file member fate
    have untouched : ¬ exporter.Changes tree files
        (exporter.lists = true ∧ (exporter.run tree files).errors = [])
        (exporter.locationOf file.path) := by
      rintro (⟨_, same⟩ | ⟨other, among, otherFate, same⟩)
      · exact notManifest file member same
      · have before : exporter.locationOf file.path <+: exporter.locationOf other.path := by
          rw [same]
        obtain rfl := apart.eq_of_prefix member among (locationOf_prefix_iff.mp before)
        exact fate otherFate
    constructor
    · exact growth.kindAt?_eq (growth.sound sound) untouched (not_makes_of_standApart apart member)
    · exact growth.contents _ untouched
  · exact written
  · exact records
  · intro record member status
    rw [records] at member
    obtain ⟨file, among, made⟩ := List.mem_filterMap.mp member
    obtain ⟨outcome, fate, rfl⟩ := Option.map_eq_some_iff.mp made
    obtain rfl : outcome = .written := status
    exact ⟨file.content, written file among fate, rfl, rfl, rfl⟩
  · rw [Manifest.fileCount, counted, List.length_map]
  · rw [Manifest.byteCount, counted, List.map_map, ← List.sum_eq_foldl]
    rfl
  · rw [Manifest.lineCount, counted, List.map_map, ← List.sum_eq_foldl]
    rfl
  · obtain ⟨messages, errors, told⟩ := reports.errors
    rw [concludes.errors]
    exact ⟨prepared.errors, messages, errors, folderErrors, told⟩
  · intro unlisted
    rw [concludes.errors] at unlisted
    constructor
    · rw [concludes.unlisted unlisted, warnings]
    · rw [concludes.growth.contents, manifestKept]
      rintro ⟨⟨lists, clean⟩, _⟩
      rcases unlisted with silent | failed
      · rw [lists] at silent
        cases silent
      · exact failed clean
  · intro lists clean
    rw [concludes.errors] at clean
    by_cases can : (exporter.exported tree files).tree.CanWrite exporter.writeMode
        (exporter.locationOf manifestName)
    · obtain ⟨same, content⟩ := concludes.listed lists clean can
      exact .inl ⟨same.trans warnings, content⟩
    · obtain ⟨⟨error, told⟩, content⟩ := concludes.refused lists clean can
      exact .inr ⟨⟨error, by rw [told, warnings]⟩, can, content.trans manifestKept⟩

/-- Files whose names fit are exported to the last one. -/
theorem stopped_addFiles_of_fits
    (plain : exporter.IsPlain) {files : List OutputFile}
    (relative : ∀ file ∈ files, IsPlainPath file.path)
    (fits : ∀ file ∈ files, Fits (exporter.locationOf file.path)) {state : Export}
    (sound : state.tree.IsSound) (running : state.stopped = none) :
    (exporter.addFiles files state).stopped = none := by
  induction files generalizing state with
  | nil => exact running
  | cons file rest hypothesis =>
      have relativeFile := relative file (by simp)
      have fitsFile := fits file (by simp)
      have answered := Tree.has_of_fits sound (plain_locationOf plain relativeFile) fitsFile
      rw [← child_eq plain relativeFile] at answered
      have next := stopped_addFile plain relativeFile running fitsFile.accessible.1 answered
      have whole : exporter.addFiles (file :: rest) state =
          exporter.addFiles rest (exporter.addFile state file) := by
        rw [addFiles, List.foldl_cons, Export.next_eq running]
        rfl
      rw [whole]
      apply hypothesis
      · exact fun other member => relative other (List.mem_cons_of_mem _ member)
      · exact fun other member => fits other (List.mem_cons_of_mem _ member)
      · exact (grows_addFile plain sound relativeFile).sound sound
      · exact next

/-- An export of files whose names fit is not stopped. -/
theorem stopped_run_of_fits
    (plain : exporter.IsPlain) (real : exporter.dryRun = false) {tree : Tree} (sound : tree.IsSound)
    {files : List OutputFile} (relative : ∀ file ∈ files, IsPlainPath file.path)
    (accepted : exporter.refusal? = none)
    (fits : ∀ file ∈ files, Fits (exporter.locationOf file.path)) :
    (exporter.run tree files).stopped = none := by
  have startRunning : ({ tree, stopped := exporter.refusal? } : Export).stopped = none := accepted
  have growth := grows_addFolders plain isPlainPath_of_mem_moduleFolders
    { tree, stopped := exporter.refusal? } sound
  obtain ⟨prepared, _⟩ := addFolders_reports plain isPlainPath_of_mem_moduleFolders
    (fun _ => hasZero_moduleFolder accepted) sound startRunning
  have exported : (exporter.exported tree files).stopped = none :=
    stopped_addFiles_of_fits plain relative fits (growth.sound sound) prepared
  have exportedSound := (grows_exported plain sound relative).sound sound
  exact (concludes_run plain real exportedSound exported).running

theorem isPlain_ofFolder
    (config : Config) {tree : Tree} (sound : tree.IsSound) (folder module : String) (dryRun : Bool)
    (time : String) :
    (ofFolder config tree (.ofText folder) module dryRun time).IsPlain :=
  ⟨rfl, sound.plain_resolve (Path.isProper_ofText folder)⟩

/-- An exporter of the module Blog to an empty tree. -/
def blogExporter : Exporter :=
  ofFolder {} {} (.ofText "Modules/Blog") "Blog" false ""

/-- A model, and the routes of the module. -/
def blogFiles : List OutputFile :=
  [{ path := "Models/Post.php", content := "<?php" },
    { path := "routes/api.php", content := "<?php", aggregate := true }]

theorem addFiles_of_stopped
    {state : Export} (stopped : state.stopped.isSome = true) (files : List OutputFile) :
    exporter.addFiles files state = state := by
  induction files with
  | nil => rfl
  | cons file rest hypothesis =>
      rw [addFiles, List.foldl_cons, Export.next, if_pos stopped]
      exact hypothesis

/--
A first file of a name that is too long stops an export that has made its folders: there is no error
and no record, and no later file is looked at.
-/
theorem run_of_long_name
    (plain : exporter.IsPlain) (real : exporter.dryRun = false) {tree : Tree} (sound : tree.IsSound)
    (prepared : (exporter.addFolders moduleFolders { tree, stopped := exporter.refusal? }).IsClean)
    (file : OutputFile) (rest : List OutputFile) {name : String}
    (relative : file.path.toList.head? ≠ some '/')
    (alone : Path.namesOf file.path.toList = [name]) (zeroFree : '\x00' ∉ name.toList)
    (long : Tree.nameLimit < name.utf8ByteSize) :
    exporter.run tree (file :: rest) =
      (exporter.addFolders moduleFolders { tree, stopped := exporter.refusal? }).stop
        .nameTooLong := by
  obtain ⟨_, folders⟩ := addFolders_spec plain isPlainPath_of_mem_moduleFolders sound prepared
  have exported : exporter.exported tree (file :: rest) =
      (exporter.addFolders moduleFolders { tree, stopped := exporter.refusal? }).stop
        .nameTooLong := by
    rw [Exporter.exported]
    generalize exporter.addFolders moduleFolders { tree, stopped := exporter.refusal? } = state
      at prepared folders ⊢
    have folder : state.tree.isFolder (.ofRoot exporter.folder.names) = .ok true := by
      obtain ⟨found, located, _⟩ := Tree.isFolder_eq_true_iff.mp (folders "config" (by decide))
      rw [Path.child_plain (by decide : IsPlainName "config"), plain.start] at located
      exact Tree.isFolder_of_locate located (by simp)
    have unanswered := Tree.has_of_long plain.names folder zeroFree long
    have place : exporter.folder.child file.path = .ofRoot (exporter.folder.names ++ [name]) := by
      rw [Path.child_eq relative, alone, plain.start]
      rfl
    rw [addFiles, List.foldl_cons, Export.next_eq prepared.running, addFile, place, unanswered]
    exact addFiles_of_stopped rfl rest
  rw [run_eq_exported real, exported]
  simp only [Export.next, Export.stop, Option.isSome_some, if_true, ite_self]

/-- A name of one byte more than a name can have. -/
@[irreducible]
def longName : String :=
  String.ofList (List.replicate 256 'z')

theorem eq_of_mem_longName {c : Char} (member : c ∈ longName.toList) : c = 'z' := by
  unfold longName at member
  rw [String.toList_ofList] at member
  exact List.eq_of_mem_replicate member

theorem utf8ByteSize_longName : longName.utf8ByteSize = 256 := by
  unfold longName
  exact (String.utf8ByteSize_ofList _).trans (by decide +kernel)

theorem isPlainName_longName : IsPlainName longName := by
  have different {name : String} (short : name.utf8ByteSize ≤ 255) : longName ≠ name := by
    rintro rfl
    rw [utf8ByteSize_longName] at short
    omega
  constructor
  · exact different (by decide)
  · intro slash
    exact absurd (eq_of_mem_longName slash) (by decide)
  · exact different (by decide)
  · exact different (by decide)

/-- A file whose name is too long, and one that could be written. -/
def longNameFiles : List OutputFile :=
  [{ path := longName, content := "x" }, { path := "notes.txt", content := "y" }]

theorem standApart_longNameFiles : StandApart longNameFiles := by
  have names := Path.namesOf_plain isPlainName_longName
  have apart {text : String} (short : ∀ name ∈ Path.namesOf text.toList, name.utf8ByteSize ≤ 255) :
      longName ∉ Path.namesOf text.toList := by
    intro member
    have wrong := short longName member
    rw [utf8ByteSize_longName] at wrong
    omega
  have notes : Path.namesOf "notes.txt".toList = ["notes.txt"] := by decide
  have fromNotes : longName ∉ Path.namesOf "notes.txt".toList := apart (by decide)
  have relative : IsPlainPath longName := by
    constructor
    · intro slash
      exact isPlainName_longName.slashFree (List.mem_of_mem_head? slash)
    · rw [names]
      simpa using isPlainName_longName
  constructor
  · rw [longNameFiles]
    simp only [List.forall_mem_cons, List.not_mem_nil, false_implies, implies_true, and_true]
    exact ⟨relative, by decide⟩
  · rw [longNameFiles]
    simp only [List.pairwise_cons, List.mem_singleton, forall_eq, List.not_mem_nil, false_implies,
      implies_true, List.Pairwise.nil, and_true]
    constructor
    · rw [names]
      intro before
      exact fromNotes (before.subset (by simp))
    · rw [names, notes]
      intro before
      have same := before.eq_of_length rfl
      rw [notes] at fromNotes
      exact fromNotes (by rw [same]; simp)
  · rw [longNameFiles]
    simp only [List.forall_mem_cons, List.not_mem_nil, false_implies, implies_true, and_true]
    constructor
    · intro name member before
      have short : ∀ name ∈ moduleFolders, ∀ part ∈ Path.namesOf name.toList,
          part.utf8ByteSize ≤ 255 := by
        decide
      rw [names] at before
      exact apart (short name member) (before.subset (by simp))
    · decide

/-- What there is before any file: the folders of the module, and nothing to report. -/
def blogFolders : Export :=
  blogExporter.addFolders moduleFolders { tree := {}, stopped := blogExporter.refusal? }

theorem blogFolders_spec :
    (blogFolders.errors = [] ∧ blogFolders.stopped = none) ∧ blogFolders.records = [] ∧
      blogFolders.tree.contentAt? (blogExporter.locationOf "notes.txt") = none := by
  decide

end Exporter

end Scaffold
