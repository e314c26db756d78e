import Scaffold.Ledger.Call
import Scaffold.Proofs.Ledger.Reloading

/-!
# Runs of calls on a ledger

Registering only adds entries to a loaded ledger, and each new one comes last.  After calls in any
order a ledger with nothing unsaved is the one that its folder gives, whether it was saved or not.
Only a save that fails can break this, when it makes folders on an unusual way to the folder.
-/

namespace Scaffold

open Scaffold.Disk (Path Tree WriteMode)
open Scaffold.Disk.Tree (Grows)

/-! ## Entries by section -/

namespace LedgerSection

theorem ofName?_eq_none
    {name : String} (unknown : ∀ part : LedgerSection, part.name ≠ name) :
    ofName? name = none := by
  rw [ofName?, List.find?_eq_none]
  intro part _
  simpa using unknown part

theorem ofName?_name (part : LedgerSection) : ofName? part.name = some part := by
  cases part <;> decide

end LedgerSection

namespace Ledger

theorem Extends.entries {earlier later : Ledger} (extended : Extends earlier later)
    (part : LedgerSection) : earlier.entries part <+: later.entries part := by
  cases part with
  | entities => exact extended.entities
  | seeders => exact extended.seeders

theorem entries_register (ledger : Ledger) (part other : LedgerSection) (entry : String) :
    (ledger.register part entry).entries other =
      if other = part ∧ entry ∉ ledger.entries part then ledger.entries other ++ [entry]
      else ledger.entries other := by
  rw [register, contains]
  simp only [List.contains_iff_mem]
  by_cases known : entry ∈ ledger.entries part
  · simp [known]
  · simp only [known, if_false, not_false_eq_true, and_true]
    cases part <;> cases other <;> rfl

end Ledger

namespace KeptLedger

/-! ## How calls are taken -/

/-- How a kept ledger takes calls. -/
structure TakesCalls (folder : Path) (kept : KeptLedger) : Prop where
  /-- A section that is not known is refused, and nothing changes. -/
  unknown : ∀ name entry, (∀ part : LedgerSection, part.name ≠ name) →
    kept.perform folder (.register name entry) = (.unknownSection name, kept)
  /-- An entry that stands in its section changes nothing. -/
  old : ∀ part entry, entry ∈ kept.ledger.entries part →
    kept.perform folder (.register part.name entry) = (.registered false, kept)
  /-- A new entry comes behind all others of its section. -/
  new : ∀ part entry, entry ∉ kept.ledger.entries part → ∃ ledger,
    kept.perform folder (.register part.name entry) = (.registered true, ⟨kept.tree, ledger⟩) ∧
      ledger.entries part = kept.ledger.entries part ++ [entry] ∧
      ∀ other, other ≠ part → ledger.entries other = kept.ledger.entries other
  /-- A save leaves nothing unsaved, or it fails and leaves the ledger as it is. -/
  saves : ∀ mode, ∃ tree,
    kept.perform folder (.save mode) =
        (.saved (Ledger.file folder), ⟨tree, { kept.ledger with unsaved := false }⟩) ∨
      ∃ error, kept.perform folder (.save mode) = (.failed error, ⟨tree, kept.ledger⟩)
  /-- All entries keep their places through further calls. -/
  keeps : ∀ calls part,
    kept.ledger.entries part <+: (kept.performAll folder calls).2.ledger.entries part

theorem perform_register (folder : Path) (kept : KeptLedger) (part : LedgerSection)
    (entry : String) :
    kept.perform folder (.register part.name entry) =
      (.registered !(kept.ledger.contains part entry),
        ⟨kept.tree, kept.ledger.register part entry⟩) := by
  rw [perform, LedgerSection.ofName?_name]

theorem perform_save (folder : Path) (kept : KeptLedger) (mode : WriteMode) :
    ∃ tree,
      kept.perform folder (.save mode) =
          (.saved (Ledger.file folder), ⟨tree, { kept.ledger with unsaved := false }⟩) ∨
        ∃ error, kept.perform folder (.save mode) = (.failed error, ⟨tree, kept.ledger⟩) := by
  rw [perform, Ledger.save]
  cases kept.tree.writeText mode (Ledger.file folder) kept.ledger.text with
  | mk tree failure =>
      cases failure with
      | none => exact ⟨tree, .inl rfl⟩
      | some error => exact ⟨tree, .inr ⟨error, rfl⟩⟩

theorem entries_perform (folder : Path) (kept : KeptLedger) (call : LedgerCall)
    (part : LedgerSection) :
    kept.ledger.entries part <+: (kept.perform folder call).2.ledger.entries part := by
  cases call with
  | register name entry =>
      rw [perform]
      split
      · exact (Ledger.register_extends kept.ledger _ entry).entries part
      · exact List.prefix_rfl
  | save mode =>
      obtain ⟨tree, saved | ⟨error, failed⟩⟩ := kept.perform_save folder mode
      · rw [saved]
        cases part <;> exact List.prefix_rfl
      · rw [failed]

theorem entries_performAll (folder : Path) (kept : KeptLedger) (calls : List LedgerCall)
    (part : LedgerSection) :
    kept.ledger.entries part <+: (kept.performAll folder calls).2.ledger.entries part := by
  induction calls generalizing kept with
  | nil => exact List.prefix_rfl
  | cons call rest hypothesis =>
      rw [performAll]
      exact (kept.entries_perform folder call part).trans (hypothesis _)

theorem takesCalls (folder : Path) (kept : KeptLedger) : kept.TakesCalls folder where
  unknown name entry unknown := by
    rw [perform, LedgerSection.ofName?_eq_none unknown]
  old part entry member := by
    have known : kept.ledger.contains part entry = true := List.contains_iff_mem.mpr member
    rw [perform_register, Ledger.register_of_contains known, known]
    rfl
  new part entry absent := by
    have notKnown : kept.ledger.contains part entry = false := by
      simpa [Ledger.contains] using absent
    refine ⟨kept.ledger.register part entry, ?_, ?_, fun other different => ?_⟩
    · rw [perform_register, notKnown]
      rfl
    · rw [Ledger.entries_register, if_pos ⟨rfl, absent⟩]
    · rw [Ledger.entries_register, if_neg fun both => different both.1]
  saves := kept.perform_save folder
  keeps := kept.entries_performAll folder

/-! ## Runs of calls -/

/-- No call wrote the ledger yet. -/
structure IsUnwritten (folder : Path) (first : KeptLedger) (answers : List LedgerAnswer)
    (kept : KeptLedger) : Prop where
  growth : Grows (fun _ => False) (first.tree.Passes folder) first.tree kept.tree
  extended : Ledger.Extends first.ledger kept.ledger
  notSaved : .saved (Ledger.file folder) ∉ answers
  /-- Only a save that fails changes the tree, when the folder is not there. -/
  tree : (first.tree.isFolder folder = .ok true ∨ ∀ error, .failed error ∉ answers) →
    kept.tree = first.tree

/-- The file of the ledger holds what was saved, and later calls only added entries. -/
def IsWritten (folder : Path) (kept : KeptLedger) : Prop :=
  ∃ saved : Ledger, saved.IsSavedIn kept.tree folder ∧ Ledger.Extends saved kept.ledger

/-- What holds after any calls on a first ledger. -/
structure Follows (folder : Path) (first : KeptLedger) (answers : List LedgerAnswer)
    (kept : KeptLedger) : Prop where
  sound : kept.tree.IsSound
  module : kept.ledger.module = first.ledger.module
  orderly : kept.ledger.IsOrderly
  disk : IsUnwritten folder first answers kept ∨ kept.IsWritten folder

section

variable {folder : Path} {first kept : KeptLedger} {answers : List LedgerAnswer}

theorem IsUnwritten.register
    (unwritten : IsUnwritten folder first answers kept) {ledger : Ledger}
    (extended : Ledger.Extends kept.ledger ledger) {answer : LedgerAnswer}
    (notSaved : answer ≠ .saved (Ledger.file folder)) :
    IsUnwritten folder first (answers ++ [answer]) ⟨kept.tree, ledger⟩ where
  growth := unwritten.growth
  extended := unwritten.extended.trans extended
  notSaved member := by
    rcases List.mem_append.mp member with before | last
    · exact unwritten.notSaved before
    · exact notSaved (List.mem_singleton.mp last).symm
  tree proviso := by
    apply unwritten.tree
    exact proviso.imp_right fun none error member => none error (List.mem_append_left _ member)

/-- A call that changes no tree and only adds entries keeps what holds. -/
theorem Follows.extend
    (follows : Follows folder first answers kept) {ledger : Ledger}
    (extended : Ledger.Extends kept.ledger ledger) {answer : LedgerAnswer}
    (notSaved : answer ≠ .saved (Ledger.file folder)) :
    Follows folder first (answers ++ [answer]) ⟨kept.tree, ledger⟩ where
  sound := follows.sound
  module := extended.module.trans follows.module
  orderly := extended.orderly follows.orderly
  disk := by
    rcases follows.disk with unwritten | ⟨saved, isSaved, before⟩
    · exact .inl (unwritten.register extended notSaved)
    · exact .inr ⟨saved, isSaved, before.trans extended⟩

theorem IsUnwritten.fail
    (unwritten : IsUnwritten folder first answers kept) {tree : Tree}
    (growth : Grows (fun _ => False) (kept.tree.Passes folder) kept.tree tree)
    (unchanged : kept.tree.isFolder folder = .ok true → tree = kept.tree)
    (error : Disk.DiskError) :
    IsUnwritten folder first (answers ++ [.failed error]) ⟨tree, kept.ledger⟩ where
  growth := by
    rw [unwritten.growth.passes] at growth
    exact unwritten.growth.trans growth
  extended := unwritten.extended
  notSaved member := by
    rcases List.mem_append.mp member with before | last
    · exact unwritten.notSaved before
    · cases List.mem_singleton.mp last
  tree proviso := by
    rcases proviso with there | none
    · rw [unchanged (unwritten.growth.isFolder there)]
      exact unwritten.tree (.inl there)
    · exact absurd (List.mem_append_right _ (List.mem_singleton_self _)) (none error)

theorem IsWritten.fail
    (written : kept.IsWritten folder) {tree : Tree}
    (unchanged : kept.tree.isFolder folder = .ok true → tree = kept.tree) :
    IsWritten folder ⟨tree, kept.ledger⟩ := by
  obtain ⟨saved, isSaved, extended⟩ := written
  rw [unchanged (Lands.isFolder_of_isFile isSaved.1)]
  exact ⟨saved, isSaved, extended⟩

theorem Follows.perform
    (proper : folder.IsProper) (follows : Follows folder first answers kept) (call : LedgerCall) :
    Follows folder first (answers ++ [(kept.perform folder call).1])
      (kept.perform folder call).2 := by
  cases call with
  | register name entry =>
      rw [KeptLedger.perform]
      split
      · exact follows.extend (Ledger.register_extends _ _ entry) nofun
      · exact follows.extend (.refl _) nofun
  | save mode =>
      rw [KeptLedger.perform]
      split
      · rename_i tree ledger saving
        obtain ⟨sound, rfl, isSaved⟩ := Ledger.save_eq_none follows.sound proper saving
        exact ⟨sound, follows.module, ⟨follows.orderly.1, follows.orderly.2⟩,
          .inr ⟨_, isSaved, .refl _⟩⟩
      · rename_i tree ledger error saving
        obtain ⟨rfl, growth, unchanged⟩ := Ledger.save_eq_some follows.sound proper saving
        refine ⟨growth.sound follows.sound, follows.module, follows.orderly, ?_⟩
        exact follows.disk.imp (·.fail growth unchanged error) (·.fail unchanged)

theorem Follows.performAll
    (proper : folder.IsProper) (follows : Follows folder first answers kept)
    (calls : List LedgerCall) :
    Follows folder first (answers ++ (kept.performAll folder calls).1)
      (kept.performAll folder calls).2 := by
  induction calls generalizing answers kept with
  | nil =>
      rw [KeptLedger.performAll, List.append_nil]
      exact follows
  | cons call rest hypothesis =>
      rw [KeptLedger.performAll]
      have next := hypothesis (follows.perform proper call)
      rw [List.append_assoc] at next
      exact next

/-- Before any call everything is as it was loaded. -/
theorem Follows.refl (sound : first.tree.IsSound) (orderly : first.ledger.IsOrderly) :
    Follows folder first [] first where
  sound := sound
  module := rfl
  orderly := orderly
  disk := .inl ⟨.refl _, .refl _, List.not_mem_nil, fun _ => rfl⟩

end

end KeptLedger

/-! ## Loading again -/

/--
Calls leave a ledger that can be loaded again: it was saved, no save failed, or a save that fails
does not matter for the folder.
-/
def IsRecoverable (tree : Tree) (folder : Path) (answers : List LedgerAnswer) : Prop :=
  .saved (Ledger.file folder) ∈ answers ∨ (∀ error, .failed error ∉ answers) ∨
    tree.isFolder folder = .ok true ∨ Ledger.HasSteadyFolder tree folder

namespace KeptLedger

/-- A ledger with nothing unsaved is the one that its folder gives. -/
theorem Follows.load_eq
    {tree : Tree} {folder : Path} {base loaded : Ledger} {answers : List LedgerAnswer}
    {reached : KeptLedger} (follows : Follows folder ⟨tree, loaded⟩ answers reached)
    (sound : tree.IsSound) (isLoaded : base.load tree folder = (loaded, none))
    (module : loaded.module = base.module) (recoverable : IsRecoverable tree folder answers)
    (nothingUnsaved : reached.ledger.unsaved = false) :
    base.load reached.tree folder = (reached.ledger, none) := by
  rcases follows.disk with unwritten | ⟨saved, isSaved, extended⟩
  · rw [unwritten.extended.same nothingUnsaved]
    have sameTree (proviso : tree.isFolder folder = .ok true ∨ ∀ error, .failed error ∉ answers) :
        base.load reached.tree folder = (loaded, none) := by
      rw [unwritten.tree proviso]
      exact isLoaded
    rcases recoverable with wasSaved | noneFailed | there | steady
    · exact absurd wasSaved unwritten.notSaved
    · exact sameTree (.inr noneFailed)
    · exact sameTree (.inl there)
    · by_cases there : tree.isFolder folder = .ok true
      · exact sameTree (.inl there)
      · exact steady.load_eq sound there unwritten.growth isLoaded
  · obtain rfl := extended.same nothingUnsaved
    rw [Ledger.load_of_isSavedIn follows.orderly isSaved,
      Ledger.eq_of_module_eq (follows.module.trans module),
      Ledger.eq_of_unsaved_eq_false nothingUnsaved]

instance (path : Path) : Decidable path.IsProper :=
  inferInstanceAs (Decidable (∀ name ∈ path.names, _ ∨ _))

/-- A save fails and leaves nothing unsaved, but loading gives no longer what it gave before. -/
def LosesLedger (tree : Tree) (folder : Path) (mode : WriteMode) : Prop :=
  let base := Ledger.ofModule "Blog"
  let reached := (performAll folder ⟨tree, base⟩ [.save mode]).2
  folder.IsProper ∧ base.load tree folder = (base, none) ∧
    reached.ledger = base ∧ base.unsaved = false ∧
    base.load reached.tree folder ≠ (base, none)

instance (tree : Tree) (folder : Path) (mode : WriteMode) :
    Decidable (LosesLedger tree folder mode) :=
  inferInstanceAs (Decidable (_ ∧ _ ∧ _ ∧ _ ∧ _))

/-- A module with a model whose ledger cannot be written, for a folder stands in its place. -/
def blockedModule : Tree :=
  (((({} : Tree).addFolder ["Existing"]).addFolder ["Existing", "module.json"]).addFolder
    ["Existing", "Models"]).withFile ["Existing", "Models", "Post.php"] (.text "<?php\n")

theorem isSound_blockedModule : blockedModule.IsSound := by
  have existing : (({} : Tree).addFolder ["Existing"]).IsSound :=
    (Tree.grows_addFolder rfl (rfl : _ = [] ++ ["Existing"]) rfl (by decide)).sound
      Tree.isSound_empty
  have blocked := (Tree.grows_addFolder (by decide)
    (rfl : _ = ["Existing"] ++ ["module.json"]) (by decide) (by decide)).sound existing
  have models := (Tree.grows_addFolder (by decide)
    (rfl : _ = ["Existing"] ++ ["Models"]) (by decide) (by decide)).sound blocked
  exact (Tree.grows_withFile _ (by decide)
    (rfl : _ = ["Existing", "Models"] ++ ["Post.php"]) (by decide) (by decide)).sound models

end KeptLedger

end Scaffold
