import Scaffold.Proofs.Disk.Absence
import Scaffold.Proofs.Run.Exporting

/-!
# Ledgers that are loaded again

A save that fails may make the folder of a ledger.  On a steady path nothing is made below that
folder, so what was loaded from it before it was there is loaded again.
-/

namespace Scaffold

open Scaffold.Disk (IsPlainName Location Path Tree WriteMode)
open Scaffold.Disk.Tree (Grows)

namespace Ledger

/-! ## Loading from an absent folder -/

section

variable {tree : Tree} {folder : Path} {base ledger : Ledger}

theorem eq_of_load_of_absent
    (loaded : base.load tree folder = (ledger, none)) (absent : tree.isFolder folder ≠ .ok true) :
    ledger = base ∧ tree.isFile (file folder) = .ok false := by
  rw [load] at loaded
  cases isFile : tree.isFile (file folder) with
  | error error =>
      rw [isFile] at loaded
      cases loaded
  | ok found =>
      cases found with
      | true => exact absurd (Lands.isFolder_of_isFile isFile) absent
      | false =>
          cases isFolder : tree.isFolder folder with
          | error error =>
              rw [isFile, isFolder] at loaded
              cases loaded
          | ok isThere =>
              cases isThere with
              | true => exact absurd isFolder absent
              | false =>
                  rw [isFile, isFolder] at loaded
                  cases loaded
                  exact ⟨rfl, rfl⟩

theorem gather_of_not_isFolder
    {place : Path} (absent : tree.isFolder place = .ok false) (ending : String)
    (skipped : List String) (part : LedgerSection) (base : Ledger) :
    gather tree place ending skipped part base = .ok base := by
  rw [gather, absent]
  rfl

/-- Nothing is loaded where neither the file of a ledger nor models or seeders lie. -/
theorem load_of_nothing
    (noFile : tree.isFile (file folder) = .ok false) {found : Bool}
    (answered : tree.isFolder folder = .ok found)
    (noModels : tree.isFolder (folder.child "Models") = .ok false)
    (noSeeders : tree.isFolder (folder.child "Database/Seeders") = .ok false) :
    base.load tree folder = (base, none) := by
  rw [load, noFile, answered]
  cases found with
  | false => rfl
  | true =>
      dsimp only
      rw [gatherAll, gather_of_not_isFolder noModels]
      dsimp only
      rw [gather_of_not_isFolder noSeeders]

end

/-! ## Loading from a folder that was made -/

/-- The path of a module folder is steady, and neither it nor the paths below it are too long. -/
structure HasSteadyFolder (tree : Tree) (folder : Path) : Prop where
  steady : tree.IsSteady folder
  names : ∀ name ∈ folder.names, name.utf8ByteSize ≤ Tree.nameLimit
  /-- The path of the seeders is the longest one that is looked up. -/
  text : (folder.child "Database/Seeders").text.utf8ByteSize ≤ Tree.pathLimit

/-- Names below a module folder that are plain and no longer than those of the seeders. -/
structure IsShort (below : Location) : Prop where
  some : below ≠ []
  plain : ∀ name ∈ below, IsPlainName name
  names : ∀ name ∈ below, name.utf8ByteSize ≤ Tree.nameLimit
  text : ("/".intercalate below).utf8ByteSize ≤
    ("/".intercalate ["Database", "Seeders"]).utf8ByteSize

theorem child_seeders (folder : Path) :
    folder.child "Database/Seeders" =
      ⟨folder.start, folder.names ++ ["Database", "Seeders"]⟩ := by
  rw [Path.child_eq (by decide)]
  rfl

namespace HasSteadyFolder

variable {earlier later : Tree} {folder : Path} {below : Location}

theorem names_below (steady : HasSteadyFolder earlier folder) (short : IsShort below) :
    ∀ name ∈ folder.names ++ below, name.utf8ByteSize ≤ Tree.nameLimit :=
  List.forall_mem_append.mpr ⟨steady.names, short.names⟩

theorem text_below (steady : HasSteadyFolder earlier folder) (short : IsShort below) :
    (Path.text ⟨folder.start, folder.names ++ below⟩).utf8ByteSize ≤ Tree.pathLimit := by
  have longest := steady.text
  rw [child_seeders] at longest
  exact (Tree.utf8ByteSize_text_le_of_le _ _ short.some (by simp) short.text).trans longest

/-- The folder gives an answer in every tree. -/
theorem exists_isFolder (steady : HasSteadyFolder earlier folder) (tree : Tree) :
    ∃ found, tree.isFolder folder = .ok found := by
  have longest := steady.text
  rw [child_seeders] at longest
  apply tree.exists_isFolder steady.names
  exact Tree.utf8ByteSize_text_upper_le folder.start (by simp) longest

/-- Below a folder that was not there no folder is found, though the folder may have been made. -/
theorem isFolder_below
    (steady : HasSteadyFolder earlier folder) (sound : earlier.IsSound)
    (absent : earlier.isFolder folder ≠ .ok true)
    (growth : Grows (fun _ => False) (earlier.Passes folder) earlier later)
    (short : IsShort below) :
    later.isFolder ⟨folder.start, folder.names ++ below⟩ = .ok false := by
  obtain ⟨found, answered⟩ : ∃ found,
      later.isFolder ⟨folder.start, folder.names ++ below⟩ = .ok found :=
    later.exists_isFolder (steady.names_below short) (steady.text_below short)
  cases found with
  | false => exact answered
  | true =>
      exact absurd answered
        (growth.not_isFolder_below sound steady.steady absent short.plain short.some)

/-- Whether the file of a ledger is there does not change while it is not written. -/
theorem isFile_file
    (steady : HasSteadyFolder earlier folder) (sound : earlier.IsSound)
    (growth : Grows (fun _ => False) (earlier.Passes folder) earlier later) :
    later.isFile (file folder) = earlier.isFile (file folder) := by
  have short : IsShort [ledgerName] :=
    ⟨by simp, by simpa using isPlainName_ledgerName, by decide +kernel, by decide +kernel⟩
  obtain ⟨found, answered⟩ : ∃ found, later.isFile (file folder) = .ok found := by
    rw [Lands.file_eq]
    exact later.exists_isFile (steady.names_below short) (steady.text_below short)
  have steadyFile : earlier.IsSteady (file folder) :=
    Tree.IsSteady.child steady.steady isPlainName_ledgerName
  apply (growth.isFile_eq_of_isSteady sound (growth.sound sound) steadyFile
    (growth.contents _ not_false)).resolve_left
  rw [answered]
  simp

/-- A folder that was not there is loaded as before, though it may have been made. -/
theorem load_eq
    (steady : HasSteadyFolder earlier folder) (sound : earlier.IsSound)
    (absent : earlier.isFolder folder ≠ .ok true)
    (growth : Grows (fun _ => False) (earlier.Passes folder) earlier later) {base ledger : Ledger}
    (loaded : base.load earlier folder = (ledger, none)) :
    base.load later folder = (ledger, none) := by
  obtain ⟨rfl, noFile⟩ := eq_of_load_of_absent loaded absent
  obtain ⟨found, answered⟩ := steady.exists_isFolder later
  have models : folder.child "Models" = ⟨folder.start, folder.names ++ ["Models"]⟩ :=
    Path.child_plain (by decide) folder
  apply load_of_nothing ((steady.isFile_file sound growth).trans noFile) answered
  · rw [models]
    apply steady.isFolder_below sound absent growth
    exact ⟨by simp, by decide, by decide +kernel, by decide +kernel⟩
  · rw [child_seeders]
    apply steady.isFolder_below sound absent growth
    exact ⟨by simp, by decide, by decide +kernel, Nat.le_refl _⟩

end HasSteadyFolder

/-! ## Saving -/

section

variable {tree written : Tree} {mode : WriteMode} {folder : Path} {ledger saved : Ledger}

/-- A ledger that was saved lies in its file and has nothing unsaved. -/
theorem save_eq_none
    (sound : tree.IsSound) (proper : folder.IsProper)
    (saving : ledger.save tree mode folder = (written, saved, none)) :
    written.IsSound ∧ saved = { ledger with unsaved := false } ∧
      saved.IsSavedIn written folder := by
  obtain ⟨growth, done, _⟩ := Tree.writeFile_spec sound mode (Lands.isProper_file proper)
    (.text ledger.text)
  rw [save, Tree.writeText] at saving
  cases outcome : tree.writeFile mode (file folder) (.text ledger.text) with
  | mk made failure =>
      rw [outcome] at saving growth done
      cases failure with
      | some error => cases saving
      | none =>
          cases saving
          obtain ⟨holds, content⟩ := done rfl
          rw [← growth.resolve] at content
          exact ⟨growth.sound sound, rfl, holds.file, content⟩

/-- A save that fails makes at most folders, and none for a folder that is there. -/
theorem save_eq_some
    (sound : tree.IsSound) (proper : folder.IsProper) {error : Disk.DiskError}
    (saving : ledger.save tree mode folder = (written, saved, some error)) :
    saved = ledger ∧ Grows (fun _ => False) (tree.Passes folder) tree written ∧
      (tree.isFolder folder = .ok true → written = tree) := by
  obtain ⟨_, _, failed⟩ := Tree.writeFile_spec sound mode (Lands.isProper_file proper)
    (.text ledger.text)
  have unchanged (there : tree.isFolder (file folder).parent = .ok true)
      (wrong : (tree.writeFile mode (file folder) (.text ledger.text)).2 ≠ none) :
      (tree.writeFile mode (file folder) (.text ledger.text)).1 = tree :=
    Tree.writeFile_of_parent there wrong
  rw [Lands.parent_file] at failed unchanged
  rw [save, Tree.writeText] at saving
  cases outcome : tree.writeFile mode (file folder) (.text ledger.text) with
  | mk made failure =>
      rw [outcome] at saving failed unchanged
      cases failure with
      | none => cases saving
      | some wrong =>
          cases saving
          have wrong : some error ≠ none := Option.some_ne_none error
          exact ⟨rfl, failed wrong, fun there => unchanged there wrong⟩

end

end Ledger

end Scaffold
