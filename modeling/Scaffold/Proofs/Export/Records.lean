import Scaffold.Proofs.Export.DryRun
import Scaffold.Run.Generate

/-!
# The records of an export

An export without errors has met every one of its files, and its manifest has one record for each of
them, in the order in which they are exported.  This holds of a dry export as well.
-/

namespace Scaffold

open Scaffold.Disk (Tree)

/-- A record describes a file, whatever became of it. -/
def FileRecord.Describes (record : FileRecord) (file : OutputFile) : Prop :=
  ∃ status, record = .ofFile file status

/-- An export without errors has added a record of each file in turn. -/
structure Export.Records (files : List OutputFile) (before after : Export) : Prop where
  clean : before.IsClean
  exists_added : ∃ added, after.records = before.records ++ added ∧
    List.Forall₂ FileRecord.Describes added files

theorem Export.records_next
    {step : Export → Export} (keeps : ∀ state, (step state).records = state.records)
    (state : Export) : (state.next step).records = state.records := by
  rw [next]
  split_ifs
  · rfl
  · exact keeps state

theorem Export.records_failWith (state : Export) (error : Disk.DiskError) (message : String) :
    (state.failWith error message).records = state.records := by
  rw [failWith]
  split_ifs
  · rfl
  · rfl

namespace Exporter

variable {exporter : Exporter} {tree : Tree} {files : List OutputFile}

/-! ## What adds no record -/

theorem records_addFolder (name : String) (state : Export) :
    (exporter.addFolder state name).records = state.records := by
  rw [addFolder]
  split
  · rfl
  · exact Export.records_failWith _ _ _

theorem records_addFolders (names : List String) (state : Export) :
    (exporter.addFolders names state).records = state.records := by
  induction names generalizing state with
  | nil => rfl
  | cons name rest hypothesis =>
      exact (hypothesis _).trans (Export.records_next (records_addFolder name) state)

theorem records_addManifest (state : Export) :
    (exporter.addManifest state).records = state.records := by
  rw [addManifest]
  split
  · rfl
  · rfl

theorem records_close (state : Export) : (exporter.close state).records = state.records := by
  rw [close]
  split_ifs
  · rfl
  · rfl

/-! ## One record for each file -/

/-- A file that is exported without an error is recorded, whether it is written or not. -/
theorem records_addFile
    {state : Export} {file : OutputFile} (running : state.stopped = none)
    (clean : (exporter.addFile state file).IsClean) :
    Export.Records [file] state (exporter.addFile state file) := by
  have one (status : FileStatus) :
      List.Forall₂ FileRecord.Describes [.ofFile file status] [file] :=
    .cons ⟨status, rfl⟩ .nil
  obtain ⟨found, answered⟩ := exists_has_of_addFile clean.running
  rcases addFile_cases answered with ⟨_, outcome⟩ | ⟨_, _, outcome⟩ |
    ⟨_, _, made, result, _, ⟨_, outcome⟩ | ⟨error, message, _, _, outcome⟩⟩
  all_goals rw [outcome] at clean ⊢
  · exact ⟨⟨clean.errors, running⟩, _, rfl, one .skipped⟩
  · exact ⟨⟨clean.errors, running⟩, _, rfl, one .planned⟩
  · exact ⟨⟨clean.errors, running⟩, _, rfl, one .written⟩
  · exact absurd clean (Export.not_isClean_failWith _ _ _)

theorem records_addFiles
    {state : Export} (clean : (exporter.addFiles files state).IsClean) :
    Export.Records files state (exporter.addFiles files state) := by
  induction files generalizing state with
  | nil => exact ⟨clean, [], (List.append_nil _).symm, .nil⟩
  | cons file rest hypothesis =>
      obtain ⟨nextClean, others, behind, describeRest⟩ := hypothesis clean
      obtain ⟨running, stepClean⟩ := Export.next_of_isClean nextClean
      obtain ⟨startClean, first, added, describes⟩ := records_addFile running stepClean
      refine ⟨startClean, first ++ others, ?_, List.rel_append describes describeRest⟩
      have whole : (exporter.addFiles (file :: rest) state).records =
          (state.next (exporter.addFile · file)).records ++ others := behind
      rw [whole, Export.next_eq running, added, List.append_assoc]

/-- The records of an export without errors are those of its files, in their order. -/
theorem describes_run (clean : (exporter.run tree files).IsClean) :
    List.Forall₂ FileRecord.Describes (exporter.run tree files).records files := by
  cases dry : exporter.dryRun with
  | true =>
      rw [run_eq_addFiles dry] at clean ⊢
      rw [Export.records_next records_close]
      obtain ⟨_, added, records, describes⟩ :=
        records_addFiles ((close_spec exporter _).1.mp clean)
      rw [records]
      exact describes
  | false =>
      obtain ⟨_, added, records, describes⟩ :=
        records_addFiles ((run_spec dry tree files).1.mp clean)
      rw [records_addFolders] at records
      have exported : (exporter.exported tree files).records = added := records
      rw [run_eq_exported dry, Export.records_next records_close]
      split_ifs
      · rwa [Export.records_next records_addManifest, exported]
      · rwa [exported]

end Exporter

/-- A run that has exported its files without an error lists them in its manifest. -/
theorem Run.exists_manifest_exportFiles
    {generator : Generator} {config : Config} {folder : Disk.Path} {ledger : Ledger}
    {files : List OutputFile} {before : Run}
    (running : (before.exportFiles generator config folder ledger files).stopped = none)
    (clean : (before.exportFiles generator config folder ledger files).report.exportErrors = []) :
    ∃ manifest,
      (before.exportFiles generator config folder ledger files).report.manifest = some manifest ∧
        List.Forall₂ FileRecord.Describes manifest.records files := by
  rw [exportFiles] at running clean ⊢
  dsimp only at running clean ⊢
  generalize Exporter.ofFolder config before.tree folder ledger.module generator.dryRun
    generator.time = exporter at running clean ⊢
  cases stopped : (exporter.run before.tree files).stopped with
  | some error =>
      rw [stopped] at running
      cases running
  | none =>
      rw [stopped] at clean
      simp only [addExport, Report.addStep, List.append_eq_nil_iff] at clean
      exact ⟨_, rfl, Exporter.describes_run ⟨clean.2, stopped⟩⟩

end Scaffold
