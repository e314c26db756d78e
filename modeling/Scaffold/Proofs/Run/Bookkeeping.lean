import Scaffold.Proofs.Output.Aggregates
import Scaffold.Proofs.Run.Landing

/-!
# The books of a module

A module keeps its ledger in a file, and its aggregates are rendered from the same lists.  When the
files of a run have landed, the ledger that is kept begins with the entries that it had before, and
every aggregate says what the kept lists say.
-/

namespace Scaffold

open Scaffold.Disk (Path Tree)

/-- A file in a folder that was there was there itself, unless its content is new. -/
theorem Disk.Tree.Extends.isFile_of_isFolder
    {earlier later : Tree} (growth : Tree.Extends earlier later) (sound : earlier.IsSound)
    (laterSound : later.IsSound) {folder : Path} (there : earlier.isFolder folder = .ok true)
    {name : String} (plain : Disk.IsPlainName name)
    (same : later.contentAt? (earlier.resolve (folder.child name)) =
      earlier.contentAt? (earlier.resolve (folder.child name)))
    (isFile : later.isFile (folder.child name) = .ok true) :
    earlier.isFile (folder.child name) = .ok true := by
  obtain ⟨place, located, kind⟩ := Tree.isFile_eq_true_iff.mp isFile
  obtain ⟨start, upper⟩ := folder
  rw [Path.child_plain plain] at located same ⊢
  have before := growth.locate_of_parent there located
  refine Tree.isFile_eq_true_iff.mpr ⟨place, before, ?_⟩
  rw [← Tree.locate_eq_resolve before] at same
  rw [laterSound.isFile_iff, same] at kind
  exact sound.isFile_iff.mpr kind

namespace Ledger

/--
The ledger that the folder of a module keeps, if it can be read; without a file both lists are
empty.
-/
def kept? (tree : Tree) (folder : Path) (module : String) : Option Ledger :=
  match tree.isFile (file folder) with
  | .ok true =>
      match (ofModule module).load tree folder with
      | (ledger, none) => some ledger
      | (_, some _) => none
  | _ => some (ofModule module)

/-- The folder of a module holds every aggregate as it is rendered from the lists of a ledger. -/
def IsRenderedIn (ledger : Ledger) (config : Config) (module : String) (tree : Tree) : Prop :=
  ∃ files, Aggregate.ofLedger config module ledger = .ok files ∧
    ∀ file ∈ files,
      tree.contentAt? (tree.resolve ((config.moduleFolder module).child file.path)) =
        some (.text file.content)

variable {tree : Tree} {folder : Path} {module : String}

theorem kept?_of_load
    {ledger : Ledger} (isFile : tree.isFile (file folder) = .ok true)
    (loaded : (ofModule module).load tree folder = (ledger, none)) :
    kept? tree folder module = some ledger := by
  rw [kept?, isFile, loaded]

theorem kept?_of_absent (absent : tree.isFile (file folder) ≠ .ok true) :
    kept? tree folder module = some (ofModule module) := by
  rw [kept?]
  split
  · rename_i isFile
    exact absurd isFile absent
  · rfl

/-- What is loaded begins with what is kept. -/
theorem extends_of_kept?
    {earlier loaded : Ledger} (kept : kept? tree folder module = some earlier)
    (loads : (ofModule module).load tree folder = (loaded, none)) :
    Extends earlier loaded := by
  by_cases isFile : tree.isFile (file folder) = .ok true
  · rw [kept?_of_load isFile loads] at kept
    obtain rfl := Option.some.inj kept
    exact .refl _
  · rw [kept?_of_absent isFile] at kept
    obtain rfl := Option.some.inj kept
    exact extends_of_load loads isFile

end Ledger

namespace Landed

variable {request : Request} {tree later : Tree} {sequence : Migration.Sequence}
  {preparation : Preparation} {exporter : Exporter}

/-- In a folder that was there an export that keeps no ledger leaves none. -/
theorem not_isFile_later
    (landed : Landed request tree later sequence preparation exporter)
    (folder : tree.isFolder request.folder = .ok true)
    (saved : preparation.rendering.ledger.unsaved = false)
    (absent : tree.isFile (Ledger.file request.folder) ≠ .ok true) :
    later.isFile (Ledger.file request.folder) ≠ .ok true := by
  refine fun isFile => absent (landed.extended.isFile_of_isFolder landed.sound landed.laterSound
    folder isPlainName_ledgerName ?_ isFile)
  change later.contentAt? (tree.resolve (Ledger.file request.folder)) =
    tree.contentAt? (tree.resolve (Ledger.file request.folder))
  rw [landed.resolve_ledger]
  exact landed.contentAt?_ledger saved

/-- The ledger that is kept after an export is the one that its files were rendered from. -/
theorem kept?_later
    (landed : Landed request tree later sequence preparation exporter)
    (there : request.selection = none ∨ tree.isFolder request.folder = .ok true) :
    Ledger.kept? later request.folder request.module =
      some { preparation.rendering.ledger with unsaved := false } := by
  by_cases isKept : preparation.rendering.ledger.unsaved = true ∨
      tree.isFile (Ledger.file request.folder) = .ok true
  · obtain ⟨isFile, loaded⟩ := landed.load_later isKept
    exact Ledger.kept?_of_load isFile loaded
  · have folder := there.resolve_left fun whole => isKept (landed.isKept_of_whole whole)
    rw [not_or, Bool.not_eq_true] at isKept
    obtain ⟨saved, absent⟩ := isKept
    rw [Ledger.kept?_of_absent (landed.not_isFile_later folder saved absent),
      landed.eq_ofModule_of_saved saved absent]
    rfl

/-- The ledger begins with what was kept before. -/
theorem extends_of_kept?
    (landed : Landed request tree later sequence preparation exporter) {earlier : Ledger}
    (kept : Ledger.kept? tree request.folder request.module = some earlier) :
    Ledger.Extends earlier preparation.rendering.ledger :=
  (Ledger.extends_of_kept? kept landed.prepares.loaded).trans landed.ledger_extends

/-- With the built-in stubs the aggregates come last among the files, as the ledger gives them. -/
theorem exists_aggregates
    (landed : Landed request tree later sequence preparation exporter)
    (builtin : request.config.UsesBuiltinStubs) :
    ∃ files, Aggregate.ofLedger request.config request.module preparation.rendering.ledger =
        .ok files ∧
      preparation.rendering.files =
        (request.plan tree preparation.keys).entityFiles preparation.descriptors ++ files := by
  obtain ⟨files, given⟩ := Aggregate.exists_ofLedger request.config request.module
    preparation.rendering.ledger
  have rendered : (request.plan tree preparation.keys).aggregatesOf request.module
      preparation.rendering.ledger = .ok files := by
    rw [← given, ← Aggregate.generate_of_builtin builtin request.clean tree]
    rfl
  refine ⟨files, given, ?_⟩
  rw [(landed.prepares.renders.files landed.prepares.entityFiles_ne_nil).2, rendered]
  rfl

/-- Every aggregate lies in its place, whatever else was exported. -/
theorem isRenderedIn
    (landed : Landed request tree later sequence preparation exporter)
    (builtin : request.config.UsesBuiltinStubs) :
    preparation.rendering.ledger.IsRenderedIn request.config request.module later := by
  obtain ⟨files, given, last⟩ := landed.exists_aggregates builtin
  obtain ⟨_, _, _, _, named⟩ := Text.exists_of_isClassName landed.prepares.isNamed.module
  obtain ⟨placed, different⟩ := Aggregate.spec_of_generate named given
  have apart : files.Pairwise fun left right =>
      exporter.locationOf left.path ≠ exporter.locationOf right.path := by
    refine different.imp_of_mem fun {left right} leftMember rightMember unequal same => ?_
    obtain ⟨_, _, leftLies, _⟩ := (placed left leftMember).2
    obtain ⟨_, _, rightLies, _⟩ := (placed right rightMember).2
    exact unequal (leftLies.path_eq rightLies (List.append_cancel_left same))
  refine ⟨files, given, fun file member => ?_⟩
  have among : file ∈ preparation.rendering.files := by
    rw [last]
    exact List.mem_append_right _ member
  have forced : exporter.yields file = false := by
    rw [Exporter.yields, (placed file member).1]
    rfl
  have settled : exporter.settled (exporter.locationOf file.path) preparation.rendering.files =
      some (.text file.content) := by
    rw [last, Exporter.settled_append, Exporter.settled_of_mem member forced apart]
    rfl
  rw [← Request.folder, landed.resolve_later (landed.isPlainPath file among)]
  exact landed.spec.leaves.settles _ _ (landed.locationOf_ne isPlainName_manifestName file among)
    settled

end Landed

end Scaffold
