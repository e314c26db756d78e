import Scaffold.Proofs.Disk.Listing
import Scaffold.Proofs.Export.Effect
import Scaffold.Proofs.Ledger.Saving
import Scaffold.Run.Generate

/-!
# Exporting the files of a run

A run that exports its files without errors leaves them in their places, together with the ledger of
the module when that holds anything new.
-/

namespace Scaffold

open Scaffold.Disk (IsPlainName Location Path Tree)
open Scaffold.Disk.Tree (Extends Grows)

/-- Files and a ledger are exported from one tree to another. -/
structure Lands (exporter : Exporter) (folder : Path) (ledger : Ledger) (files : List OutputFile)
    (earlier later : Tree) : Prop where
  clean : (exporter.run earlier files).IsClean
  unsaved : ledger.unsaved = false → later = (exporter.run earlier files).tree
  saved : ledger.unsaved = true →
    ((exporter.run earlier files).tree.writeText exporter.writeMode (Ledger.file folder)
      ledger.text) = (later, none)

/-- The exporter of the files of a run. -/
def Generator.exporter (generator : Generator) (config : Config) (tree : Tree) (folder : Path)
    (ledger : Ledger) : Exporter :=
  .ofFolder config tree folder ledger.module generator.dryRun generator.time

theorem Generator.isPlain_exporter
    (generator : Generator) (config : Config) {tree : Tree} (sound : tree.IsSound) {folder : Path}
    (proper : folder.IsProper) (ledger : Ledger) :
    (generator.exporter config tree folder ledger).IsPlain :=
  ⟨rfl, sound.plain_resolve proper⟩

theorem Generator.names_exporter
    (generator : Generator) (config : Config) (tree : Tree) (folder : Path) (ledger : Ledger) :
    (generator.exporter config tree folder ledger).folder.names = tree.resolve folder :=
  rfl

theorem Generator.repeats_exporter
    (generator : Generator) (config : Config) {earlier later : Tree}
    (extended : Extends earlier later) (folder : Path) (first second : Ledger) (time : String) :
    (({ generator with time } : Generator).exporter config later folder second).Repeats
      (generator.exporter config earlier folder first) :=
  ⟨rfl, extended.absolutePath folder, rfl⟩

namespace Run

variable {generator : Generator} {config : Config} {folder : Path} {ledger : Ledger}
  {files : List OutputFile}

theorem saveLedger_spec (mode : Disk.WriteMode) (folder : Path) (ledger : Ledger) (run : Run) :
    (run.saveLedger mode folder ledger).stopped = run.stopped ∧
      (run.saveLedger mode folder ledger).report.generationErrors =
        run.report.generationErrors ∧
      ((run.saveLedger mode folder ledger).report.exportErrors = [] →
        run.report.exportErrors = [] ∧
          run.tree.writeText mode (Ledger.file folder) ledger.text =
            ((run.saveLedger mode folder ledger).tree, none)) := by
  rw [saveLedger, Ledger.save]
  cases writing : run.tree.writeText mode (Ledger.file folder) ledger.text with
  | mk written answer =>
      cases answer with
      | none => exact ⟨rfl, rfl, fun clean => ⟨clean, rfl⟩⟩
      | some error => exact ⟨rfl, rfl, fun clean => by simp at clean⟩

/-- A run that exports its files and reports no error has landed them. -/
theorem lands_of_exportFiles
    {before after : Run} (exported : after = before.exportFiles generator config folder ledger files)
    (real : generator.dryRun = false) (running : after.stopped = none)
    (clean : after.report.exportErrors = []) :
    Lands (generator.exporter config before.tree folder ledger) folder ledger files before.tree
        after.tree ∧
      after.report.generationErrors = before.report.generationErrors := by
  rw [exportFiles] at exported
  dsimp only at exported
  rw [← Generator.exporter] at exported
  generalize generator.exporter config before.tree folder ledger = exporter at *
  have spec := saveLedger_spec exporter.writeMode folder ledger
    ({ before with tree := (exporter.run before.tree files).tree }.addLogs
      (exporter.run before.tree files).logs)
  have runs : (exporter.run before.tree files).stopped = none := by
    cases stopped : (exporter.run before.tree files).stopped with
    | none => rfl
    | some error =>
        rw [exported] at running
        simp [stopped, stop] at running
  rw [runs] at exported
  simp only [real, Bool.not_false, Bool.and_true] at exported
  split_ifs at exported with saves
  · simp only [Bool.and_eq_true, List.isEmpty_iff] at saves
    obtain ⟨noErrors, unsaved⟩ := saves
    subst exported
    simp only [addExport, Report.addStep, List.append_eq_nil_iff] at clean
    obtain ⟨_, generationErrors, written⟩ := spec
    refine ⟨⟨⟨noErrors, runs⟩, fun saved => ?_, fun _ => (written clean.1).2⟩, generationErrors⟩
    rw [unsaved] at saved
    cases saved
  · subst exported
    simp only [addExport, Report.addStep, List.append_eq_nil_iff] at clean
    refine ⟨⟨⟨clean.2, runs⟩, fun _ => rfl, fun unsaved => ?_⟩, rfl⟩
    simp [clean.2, unsaved] at saves

/-- A run that its export stops has no manifest. -/
theorem manifest_exportFiles
    {before after : Run} (exported : after = before.exportFiles generator config folder ledger files)
    (running : before.stopped = none) (stopped : after.stopped ≠ none) :
    after.report.manifest = before.report.manifest := by
  rw [exportFiles] at exported
  dsimp only at exported
  split at exported
  · rw [exported]
    rfl
  · refine absurd ?_ stopped
    subst exported
    dsimp only [addExport]
    split_ifs
    · exact (saveLedger_spec _ _ _ _).1.trans running
    · exact running

/-- A run whose export has no errors and whose ledger is saved ends with the exported tree. -/
theorem tree_exportFiles
    {before : Run}
    (clean : ((generator.exporter config before.tree folder ledger).run before.tree files).IsClean)
    (saved : ledger.unsaved = false) :
    (before.exportFiles generator config folder ledger files).tree =
      ((generator.exporter config before.tree folder ledger).run before.tree files).tree := by
  rw [Generator.exporter] at *
  rw [exportFiles]
  simp only [clean.running, saved, Bool.and_false]
  rfl

end Run

/-! ## Where things land -/

/-- The name of the file of a ledger. -/
def ledgerName : String :=
  "module.json"

theorem isPlainName_ledgerName : IsPlainName ledgerName := by
  decide

theorem isPlainName_manifestName : IsPlainName manifestName := by
  decide

namespace Lands

variable {exporter : Exporter} {folder : Path} {ledger : Ledger} {files : List OutputFile}
  {earlier later : Tree}

theorem resolve_file
    (place : earlier.resolve folder = exporter.folder.names) :
    earlier.resolve (Ledger.file folder) = exporter.locationOf ledgerName := by
  rw [Ledger.file, Exporter.locationOf, Path.namesOf_plain isPlainName_ledgerName, ← place]
  exact Tree.resolve_child earlier folder isPlainName_ledgerName

theorem file_eq (folder : Path) :
    Ledger.file folder = ⟨folder.start, folder.names ++ [ledgerName]⟩ :=
  Path.child_plain isPlainName_ledgerName folder

/-- A ledger lies in a folder that is there. -/
theorem isFolder_of_isFile
    {tree : Tree} {folder : Path} (isFile : tree.isFile (Ledger.file folder) = .ok true) :
    tree.isFolder folder = .ok true := by
  obtain ⟨place, located, _⟩ := Tree.isFile_eq_true_iff.mp isFile
  rw [file_eq] at located
  exact Tree.isFolder_of_locate located (List.cons_ne_nil _ _)

theorem isProper_file (proper : folder.IsProper) : (Ledger.file folder).IsProper := by
  rw [file_eq]
  intro name member
  rcases List.mem_append.mp member with above | last
  · exact proper name above
  · rw [List.mem_singleton.mp last]
    exact .inr isPlainName_ledgerName

theorem parent_file (folder : Path) : (Ledger.file folder).parent = folder := by
  rw [file_eq, Path.parent]
  simp

/-- The ledger is the only thing that may change after the export of the files. -/
theorem grows_saved
    (lands : Lands exporter folder ledger files earlier later)
    (made : (exporter.run earlier files).tree.IsSound) (proper : folder.IsProper)
    (place : (exporter.run earlier files).tree.resolve folder = exporter.folder.names) :
    Grows (fun location => ledger.unsaved = true ∧ location = exporter.locationOf ledgerName)
      (fun location => ledger.unsaved = true ∧
        (exporter.run earlier files).tree.Passes folder location)
      (exporter.run earlier files).tree later := by
  cases unsaved : ledger.unsaved with
  | false =>
      rw [lands.unsaved unsaved]
      exact .refl _
  | true =>
      have writing := (Tree.writeFile_spec made exporter.writeMode (isProper_file proper)
        (.text ledger.text)).1
      rw [← Tree.writeText, lands.saved unsaved, parent_file, resolve_file place] at writing
      exact writing.mono (fun _ here => ⟨rfl, here⟩) fun _ passed => ⟨rfl, passed⟩

/-- The ledger is in its file once it was saved. -/
theorem isSavedIn
    (lands : Lands exporter folder ledger files earlier later)
    (made : (exporter.run earlier files).tree.IsSound) (proper : folder.IsProper)
    (unsaved : ledger.unsaved = true) :
    ledger.IsSavedIn later folder ∧ later.isFolder folder = .ok true := by
  obtain ⟨growth, done, _⟩ := Tree.writeFile_spec made exporter.writeMode (isProper_file proper)
    (.text ledger.text)
  rw [← Tree.writeText, lands.saved unsaved] at growth done
  obtain ⟨holds, content⟩ := done rfl
  have parent := holds.parent
  rw [parent_file] at parent
  refine ⟨⟨holds.file, ?_⟩, parent⟩
  rw [growth.resolve]
  exact content

theorem locationOf_ne
    {first second : String}
    (different : Path.namesOf first.toList ≠ Path.namesOf second.toList) :
    exporter.locationOf first ≠ exporter.locationOf second :=
  fun same => different (List.append_cancel_left same)

/-- What an export without errors leaves behind, the ledger included. -/
structure Spec (exporter : Exporter) (folder : Path) (ledger : Ledger) (files : List OutputFile)
    (earlier later : Tree) : Prop where
  accepted : exporter.refusal? = none
  growth : Grows
    (fun location => exporter.Writes files location ∨
      ledger.unsaved = true ∧ location = exporter.locationOf ledgerName)
    (fun location => exporter.Makes files location ∨
      ledger.unsaved = true ∧ (exporter.run earlier files).tree.Passes folder location)
    earlier later
  afterwards : Extends (exporter.run earlier files).tree later
  leaves : exporter.Leaves files later
  saved : ledger.unsaved = true → ledger.IsSavedIn later folder

theorem spec
    (lands : Lands exporter folder ledger files earlier later) (plain : exporter.IsPlain)
    (real : exporter.dryRun = false) (sound : earlier.IsSound) (proper : folder.IsProper)
    (place : earlier.resolve folder = exporter.folder.names)
    (relative : ∀ file ∈ files, IsPlainPath file.path)
    (apart : ∀ file ∈ files, exporter.locationOf file.path ≠ exporter.locationOf ledgerName) :
    Spec exporter folder ledger files earlier later := by
  obtain ⟨accepted, growth, leaves⟩ :=
    Exporter.leaves_of_run plain real sound relative lands.clean
  have made := growth.sound sound
  have placeLater : (exporter.run earlier files).tree.resolve folder = exporter.folder.names := by
    rw [growth.resolve, place]
  have saving := lands.grows_saved made proper placeLater
  refine ⟨accepted, ?_, saving.toExtends, ?_, fun unsaved => (lands.isSavedIn made proper unsaved).1⟩
  · exact (growth.mono (fun _ => .inl) fun _ => .inl).trans
      (saving.mono (fun _ => .inr) fun _ => .inr)
  · refine leaves.extend saving.toExtends fun file member => saving.contents _ ?_
    exact fun ⟨_, here⟩ => apart file member here

/-- On a steady path the ledger makes no folder. -/
theorem Spec.growth_of_isSteady
    (lands : Lands exporter folder ledger files earlier later)
    (spec : Spec exporter folder ledger files earlier later) (plain : exporter.IsPlain)
    (real : exporter.dryRun = false) (sound : earlier.IsSound) (proper : folder.IsProper)
    (place : earlier.resolve folder = exporter.folder.names) (steady : earlier.IsSteady folder)
    (relative : ∀ file ∈ files, IsPlainPath file.path) :
    Grows
      (fun location => exporter.Writes files location ∨
        ledger.unsaved = true ∧ location = exporter.locationOf ledgerName)
      (exporter.Makes files) earlier later := by
  obtain ⟨_, growth, leaves⟩ := Exporter.leaves_of_run plain real sound relative lands.clean
  have made := growth.sound sound
  cases unsaved : ledger.unsaved with
  | false =>
      rw [lands.unsaved unsaved]
      exact growth.mono (fun _ => .inl) fun _ => id
  | true =>
      have config : IsPlainName "config" := by decide
      have kind := leaves.kindAt?_eq_folder plain (by decide : "config" ∈ moduleFolders)
      rw [Exporter.locationOf, Path.namesOf_plain config] at kind
      have above := made.above exporter.folder.names "config" (by simp [kind])
      have placeLater : (exporter.run earlier files).tree.resolve folder =
          exporter.folder.names := by
        rw [growth.resolve, place]
      have folderMade := spec.afterwards.isFolder_of_isSteady made (growth.isSteady steady)
        (lands.isSavedIn made proper unsaved).2
        (by rw [spec.afterwards.resolve, placeLater]; exact above)
      have saving := lands.grows_saved made proper placeLater
      have silent : Grows (fun location => ledger.unsaved = true ∧
          location = exporter.locationOf ledgerName) (fun _ => False)
          (exporter.run earlier files).tree later :=
        (saving.mono (fun _ => id) fun _ passed => passed.2).of_isFolder folderMade
      rw [unsaved] at silent
      exact (growth.mono (fun _ => .inl) fun _ => id).trans
        (silent.mono (fun _ => .inr) fun _ => False.elim)

end Lands

end Scaffold
