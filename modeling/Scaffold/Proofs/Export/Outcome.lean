import Mathlib.Data.List.Pairwise
import Scaffold.Proofs.Disk.Writing
import Scaffold.Proofs.Export.Effect

/-!
# What becomes of the files of an export

The tree before an export decides for every file whether it is skipped, planned or written, or
cannot be written, provided that the places of the files stay out of each other's way.  An export
reports just that, file by file, and changes nothing else.
-/

namespace Scaffold

open Scaffold.Disk (Content DiskError IsPlainName Location Path Tree WriteMode)
open Scaffold.Disk.Tree (Extends Fits Grows)

/-- No one of two files lies at or below the place of the other one. -/
def OutputFile.StandsAside (file other : OutputFile) : Prop :=
  ¬ Path.namesOf file.path.toList <+: Path.namesOf other.path.toList ∧
    ¬ Path.namesOf other.path.toList <+: Path.namesOf file.path.toList

instance : DecidableRel OutputFile.StandsAside :=
  fun _ _ => inferInstanceAs (Decidable (_ ∧ _))

instance : Std.Symm OutputFile.StandsAside :=
  ⟨fun _ _ => And.symm⟩

/-- The paths of files are plain, and none leads to a folder of the module or of another file. -/
structure StandApart (files : List OutputFile) : Prop where
  relative : ∀ file ∈ files, IsPlainPath file.path
  apart : files.Pairwise OutputFile.StandsAside
  folders : ∀ file ∈ files, ∀ name ∈ moduleFolders,
    ¬ Path.namesOf file.path.toList <+: Path.namesOf name.toList

instance (files : List OutputFile) : Decidable (StandApart files) :=
  decidable_of_iff
    ((∀ file ∈ files, IsPlainPath file.path) ∧ files.Pairwise OutputFile.StandsAside ∧
      ∀ file ∈ files, ∀ name ∈ moduleFolders,
        ¬ Path.namesOf file.path.toList <+: Path.namesOf name.toList)
    ⟨fun ⟨relative, apart, folders⟩ => ⟨relative, apart, folders⟩,
      fun stand => ⟨stand.relative, stand.apart, stand.folders⟩⟩

theorem StandApart.upper
    {files others : List OutputFile} (apart : StandApart (files ++ others)) : StandApart files := by
  constructor
  · intro file member
    exact apart.relative file (List.mem_append_left _ member)
  · exact (List.pairwise_append.mp apart.apart).1
  · intro file member
    exact apart.folders file (List.mem_append_left _ member)

theorem StandApart.namesOf_ne_nil
    {files : List OutputFile} (apart : StandApart files) {file : OutputFile} (member : file ∈ files) :
    Path.namesOf file.path.toList ≠ [] := by
  intro none
  refine apart.folders file member "config" (by decide) ?_
  rw [none]
  exact List.nil_prefix

/-- No other file of its list lies at or below the place of a file that stands apart. -/
theorem StandApart.eq_of_prefix
    {files : List OutputFile} (apart : StandApart files) {file other : OutputFile}
    (member : file ∈ files) (otherMember : other ∈ files)
    (before : Path.namesOf file.path.toList <+: Path.namesOf other.path.toList) :
    file = other := by
  by_contra different
  exact (apart.apart.forall member otherMember different).1 before

theorem Export.stopped_of_next
    {state : Export} {step : Export → Export} (running : (state.next step).stopped = none) :
    state.stopped = none ∧ (step state).stopped = none := by
  rw [next] at running
  split_ifs at running with stopped
  · rw [running] at stopped
    cases stopped
  · exact ⟨Option.not_isSome_iff_eq_none.mp stopped, running⟩

theorem Export.running_of_foldl
    {α : Type} (step : Export → α → Export) (items : List α) (state : Export)
    (running : (items.foldl (fun state item => state.next (step · item)) state).stopped = none) :
    state.stopped = none := by
  induction items generalizing state with
  | nil => exact running
  | cons item rest hypothesis => exact (stopped_of_next (hypothesis _ running)).1

/-- The warning of a file that is skipped. -/
def OutputFile.skipWarning (file : OutputFile) : String :=
  "Skipped existing file " ++ file.path

/-- A message says that a file could not be written. -/
def OutputFile.IsReportedBy (file : OutputFile) (message : String) : Prop :=
  ∃ error : DiskError,
    message = "Failed to write " ++ file.path ++ ": " ++ error.className ++ ": " ++ error.message

namespace Exporter

/-- A message says that a folder of the module could not be made. -/
def ReportsFolder (exporter : Exporter) (name message : String) : Prop :=
  ∃ error : DiskError,
    message = "Failed to create directory " ++ (exporter.folder.child name).text ++ ": " ++
      error.message

/-- What becomes of a file that is exported to a tree, unless it cannot be written. -/
def fate? (exporter : Exporter) (tree : Tree) (file : OutputFile) : Option FileStatus :=
  let place := exporter.locationOf file.path
  if exporter.yields file && (tree.kindAt? place).isSome then some .skipped
  else if exporter.dryRun then some .planned
  else if tree.CanWrite exporter.writeMode place then some .written
  else none

/-- What the export of files to a tree reports and does, from one state to another one. -/
structure Reports (exporter : Exporter) (tree : Tree) (files : List OutputFile)
    (before after : Export) : Prop where
  running : after.stopped = none
  growth :
    Grows
      (fun location => ∃ file ∈ files, exporter.fate? tree file = some .written ∧
        location = exporter.locationOf file.path)
      (fun location => ∃ file ∈ files, location <+: (exporter.locationOf file.path).dropLast)
      before.tree after.tree
  contents : ∀ file ∈ files, exporter.fate? tree file = some .written →
    after.tree.contentAt? (exporter.locationOf file.path) = some (.text file.content)
  records : after.records =
    before.records ++ files.filterMap fun file => (exporter.fate? tree file).map (.ofFile file)
  warnings : after.warnings =
    before.warnings ++
      (files.filter (exporter.fate? tree · = some .skipped)).map (·.skipWarning)
  errors : ∃ messages, after.errors = before.errors ++ messages ∧
    List.Forall₂ OutputFile.IsReportedBy
      (files.filter (exporter.fate? tree · = none)) messages

variable {exporter : Exporter}

/-! ## Places -/

theorem locationOf_prefix_iff {path other : String} :
    exporter.locationOf path <+: exporter.locationOf other ↔
      Path.namesOf path.toList <+: Path.namesOf other.toList :=
  List.prefix_append_right_inj _

theorem hasZero_locationOf (path : String) :
    Tree.hasZero (.ofRoot (exporter.locationOf path)) =
      (Tree.hasZero exporter.folder || Tree.hasZero (.ofText path)) :=
  List.any_append

/-! ## Files out of the way -/

/-- A later tree differs from an earlier one in nothing that decides what becomes of a file. -/
structure Spares (exporter : Exporter) (file : OutputFile) (earlier later : Tree) : Prop where
  files : ∀ upper, upper <+: exporter.locationOf file.path →
    (later.kindAt? upper = some .file ↔ earlier.kindAt? upper = some .file)
  kind : later.kindAt? (exporter.locationOf file.path) =
    earlier.kindAt? (exporter.locationOf file.path)

/-- A tree that grows out of the way of a file spares it. -/
theorem spares_of_grows
    {written made : Location → Prop} {earlier later : Tree} (sound : earlier.IsSound)
    (growth : Grows written made earlier later) {file : OutputFile}
    (notWritten : ∀ upper, upper <+: exporter.locationOf file.path → ¬ written upper)
    (notMade : ¬ made (exporter.locationOf file.path)) :
    exporter.Spares file earlier later := by
  constructor
  · intro upper before
    exact growth.kindAt?_eq_file_iff sound (notWritten upper before)
  · exact growth.kindAt?_eq (growth.sound sound) (notWritten _ List.prefix_rfl) notMade

theorem fate?_eq_of_spares
    {file : OutputFile} {earlier later : Tree} (spares : exporter.Spares file earlier later) :
    exporter.fate? later file = exporter.fate? earlier file := by
  have isOpen : later.IsOpen (exporter.locationOf file.path).dropLast ↔
      earlier.IsOpen (exporter.locationOf file.path).dropLast := by
    apply Tree.isOpen_congr
    intro upper before
    exact spares.files upper (before.trans (List.dropLast_prefix _))
  have can : later.CanWrite exporter.writeMode (exporter.locationOf file.path) ↔
      earlier.CanWrite exporter.writeMode (exporter.locationOf file.path) := by
    constructor
    · intro can
      exact ⟨can.fits, can.accepts, isOpen.mp can.above, spares.kind ▸ can.notFolder⟩
    · intro can
      exact ⟨can.fits, can.accepts, isOpen.mpr can.above, spares.kind.symm ▸ can.notFolder⟩
  simp only [fate?, spares.kind, can]

/-! ## One file -/

/-- All that can become of a file once it is known whether anything lies at its place. -/
theorem addFile_cases
    {state : Export} {file : OutputFile} {found : Bool}
    (answered : state.tree.has (exporter.folder.child file.path) = .ok found) :
    ((exporter.yields file && found) = true ∧
        exporter.addFile state file = (state.warn file.skipWarning).record file .skipped) ∨
      (exporter.yields file && found) = false ∧ exporter.dryRun = true ∧
        exporter.addFile state file = state.record file .planned ∨
      (exporter.yields file && found) = false ∧ exporter.dryRun = false ∧
        ∃ made outcome,
          state.tree.writeFile exporter.writeMode (exporter.folder.child file.path)
            (.text file.content) = (made, outcome) ∧
          (outcome = none ∧
              exporter.addFile state file = { state with tree := made }.record file .written ∨
            ∃ error message, outcome = some error ∧ file.IsReportedBy message ∧
              exporter.addFile state file = { state with tree := made }.failWith error message) := by
  have skips : (found && !file.aggregate && !exporter.config.overwriteExisting) =
      (exporter.yields file && found) := by
    rw [yields, Bool.and_assoc, Bool.and_comm]
  rw [addFile, answered]
  dsimp only
  rw [skips]
  cases skipped : exporter.yields file && found with
  | true => exact .inl ⟨rfl, rfl⟩
  | false =>
      right
      cases dry : exporter.dryRun with
      | true => exact .inl ⟨rfl, rfl, rfl⟩
      | false =>
          rw [Tree.writeText]
          cases state.tree.writeFile exporter.writeMode (exporter.folder.child file.path)
            (.text file.content) with
          | mk made outcome =>
              refine .inr ⟨rfl, rfl, made, outcome, rfl, ?_⟩
              cases outcome with
              | none => exact .inl ⟨rfl, rfl⟩
              | some error => exact .inr ⟨error, _, rfl, ⟨error, rfl⟩, rfl⟩

/-- What is asked before a file is exported is answered, and its name can stand in a path. -/
theorem stopped_addFile
    (plain : exporter.IsPlain) {state : Export} {file : OutputFile}
    (relative : IsPlainPath file.path) (running : state.stopped = none)
    (zeroFree : Tree.hasZero (.ofRoot (exporter.locationOf file.path)) = false) {found : Bool}
    (answered : state.tree.has (exporter.folder.child file.path) = .ok found) :
    (exporter.addFile state file).stopped = none := by
  have noZero := Tree.writeFile_ne_zeroInName state.tree exporter.writeMode
    (.text file.content) zeroFree
  rw [← child_eq plain relative] at noZero
  rcases addFile_cases answered with ⟨_, outcome⟩ | ⟨_, _, outcome⟩ |
    ⟨_, _, made, result, wrote, ⟨_, outcome⟩ | ⟨error, message, failed, _, outcome⟩⟩
  · rw [outcome]
    exact running
  · rw [outcome]
    exact running
  · rw [outcome]
    exact running
  · rw [wrote, failed] at noZero
    rw [outcome, Export.failWith, if_neg (by simpa using noZero)]
    exact running

theorem exists_has_of_addFile
    {state : Export} {file : OutputFile} (running : (exporter.addFile state file).stopped = none) :
    ∃ found, state.tree.has (exporter.folder.child file.path) = .ok found := by
  rw [addFile] at running
  split at running
  · cases running
  · exact ⟨_, ‹_›⟩

/-- The report of a single file, by what becomes of it. -/
theorem Reports.single
    {tree : Tree} {file : OutputFile} {before after : Export} {outcome : Option FileStatus}
    (fate : exporter.fate? tree file = outcome) (running : after.stopped = none)
    (growth : Grows
      (fun location => outcome = some .written ∧ location = exporter.locationOf file.path)
      (· <+: (exporter.locationOf file.path).dropLast) before.tree after.tree)
    (content : outcome = some .written →
      after.tree.contentAt? (exporter.locationOf file.path) = some (.text file.content))
    (records : after.records = before.records ++ (outcome.map (.ofFile file)).toList)
    (warnings : after.warnings =
      before.warnings ++ if outcome = some .skipped then [file.skipWarning] else [])
    (errors : ∃ messages, after.errors = before.errors ++ messages ∧
      List.Forall₂ OutputFile.IsReportedBy (if outcome = none then [file] else []) messages) :
    exporter.Reports tree [file] before after := by
  subst fate
  constructor
  · exact running
  · simpa using growth
  · simpa using content
  · rw [records]
    cases fate : exporter.fate? tree file <;> simp [fate]
  · rw [warnings]
    by_cases skipped : exporter.fate? tree file = some .skipped <;> simp [skipped]
  · by_cases failed : exporter.fate? tree file = none <;> simpa [failed] using errors

/-- One file is exported as the tree at its turn decides. -/
theorem reports_addFile
    (plain : exporter.IsPlain) {tree : Tree} {state : Export} (sound : state.tree.IsSound)
    {file : OutputFile} (relative : IsPlainPath file.path)
    (zeroFree : Tree.hasZero (.ofRoot (exporter.locationOf file.path)) = false)
    (spares : exporter.Spares file tree state.tree)
    (running : (exporter.addFile state file).stopped = none) :
    exporter.Reports tree [file] state (exporter.addFile state file) := by
  have plainPlace := plain_locationOf plain relative
  obtain ⟨found, answered⟩ := exists_has_of_addFile running
  have there : found = (state.tree.kindAt? (exporter.locationOf file.path)).isSome := by
    rw [child_eq plain relative] at answered
    exact Tree.has_eq_ok sound plainPlace zeroFree answered
  obtain ⟨growth, written, failed⟩ := Tree.writeFile_spec sound exporter.writeMode
    (isProper_child plain relative) (.text file.content)
  have succeeds := Tree.writeFile_eq_none_iff sound plainPlace exporter.writeMode
    (.text file.content)
  have place : state.tree.resolve (exporter.folder.child file.path) =
      exporter.locationOf file.path := by
    rw [child_eq plain relative, Tree.resolve_ofRoot state.tree plainPlace]
  rw [← child_eq plain relative] at succeeds
  rw [place] at growth written
  have fate := fate?_eq_of_spares spares
  rw [fate?, ← there] at fate
  rcases addFile_cases answered with ⟨skipped, outcome⟩ | ⟨kept, dry, outcome⟩ |
    ⟨kept, real, made, result, wrote, ⟨done, outcome⟩ | ⟨error, message, wrong, told, outcome⟩⟩
  · simp only [skipped, if_true] at fate
    rw [outcome] at running ⊢
    exact .single fate.symm running (.refl _) (by simp) rfl rfl ⟨[], by simp [Export.record, Export.warn]⟩
  · simp only [kept, dry, Bool.false_eq_true, if_false, if_true] at fate
    rw [outcome] at running ⊢
    exact .single fate.symm running (.refl _) (by simp) rfl (by simp [Export.record])
      ⟨[], by simp [Export.record]⟩
  · rw [wrote] at succeeds growth written
    obtain rfl := done
    simp only [kept, real, Bool.false_eq_true, if_false, if_pos (succeeds.mp rfl)] at fate
    rw [outcome] at running ⊢
    refine .single fate.symm running ?_ ?_ rfl (by simp [Export.record]) ⟨[], by simp [Export.record]⟩
    · exact growth.mono (fun _ here => ⟨rfl, here⟩) (passes_parent plain relative)
    · intro _
      exact (written rfl).2
  · rw [wrote] at succeeds failed
    obtain rfl := wrong
    have cannot : ¬ state.tree.CanWrite exporter.writeMode (exporter.locationOf file.path) := by
      intro can
      cases succeeds.mpr can
    simp only [kept, real, Bool.false_eq_true, if_false, if_neg cannot] at fate
    have told' : ({ state with tree := made }.failWith error message).stopped = none := by
      rwa [outcome] at running
    have other : error ≠ .zeroInName := by
      rintro rfl
      cases told'
    rw [outcome, Export.failWith, if_neg (by simpa using other)]
    refine .single fate.symm ?_ ?_ (by simp) (by simp [Export.fail]) (by simp [Export.fail])
      ⟨[message], rfl, ?_⟩
    · rw [Export.failWith, if_neg (by simpa using other)] at told'
      exact told'
    · exact (failed (by simp)).mono (fun _ impossible => impossible.elim) (passes_parent plain relative)
    · exact .cons told .nil

/-! ## All files -/

theorem Reports.nil {tree : Tree} {state : Export} (running : state.stopped = none) :
    exporter.Reports tree [] state state := by
  constructor
  · exact running
  · exact .refl _
  · simp
  · simp
  · simp
  · exact ⟨[], by simp⟩

/-- Another file at a place of its own is reported behind the others. -/
theorem Reports.concat
    {tree : Tree} {files : List OutputFile} {file : OutputFile} {before middle after : Export}
    (distinct : ∀ other ∈ files, exporter.locationOf other.path ≠ exporter.locationOf file.path)
    (first : exporter.Reports tree files before middle)
    (last : exporter.Reports tree [file] middle after) :
    exporter.Reports tree (files ++ [file]) before after := by
  constructor
  · exact last.running
  · refine (first.growth.mono ?_ ?_).trans (last.growth.mono ?_ ?_)
    · rintro location ⟨other, member, here⟩
      exact ⟨other, List.mem_append_left _ member, here⟩
    · rintro location ⟨other, member, here⟩
      exact ⟨other, List.mem_append_left _ member, here⟩
    · rintro location ⟨other, member, here⟩
      exact ⟨other, List.mem_append_right _ member, here⟩
    · rintro location ⟨other, member, here⟩
      exact ⟨other, List.mem_append_right _ member, here⟩
  · intro other member written
    rcases List.mem_append.mp member with earlier | now
    · rw [last.growth.contents, first.contents other earlier written]
      rintro ⟨_, among, _, same⟩
      rw [List.mem_singleton.mp among] at same
      exact distinct other earlier same
    · exact last.contents other now written
  · rw [last.records, first.records, List.filterMap_append, List.append_assoc]
  · rw [last.warnings, first.warnings, List.filter_append, List.map_append, List.append_assoc]
  · obtain ⟨firstMessages, firstErrors, firstTold⟩ := first.errors
    obtain ⟨lastMessages, lastErrors, lastTold⟩ := last.errors
    refine ⟨firstMessages ++ lastMessages, ?_, ?_⟩
    · rw [lastErrors, firstErrors, List.append_assoc]
    · rw [List.filter_append]
      exact List.rel_append firstTold lastTold

theorem addFiles_concat (files : List OutputFile) (file : OutputFile) (state : Export) :
    exporter.addFiles (files ++ [file]) state =
      (exporter.addFiles files state).next (exporter.addFile · file) := by
  rw [addFiles, List.foldl_append]
  rfl

/-- What is made for the files before another one, and for the module, spares that file. -/
theorem spares_of_standApart
    {tree later : Tree} (sound : tree.IsSound) {files : List OutputFile} {file : OutputFile}
    (apart : StandApart (files ++ [file])) {written : Location → Prop}
    (isWritten : ∀ location, written location →
      ∃ other ∈ files, location = exporter.locationOf other.path)
    (growth : Grows written
      (fun location => (∃ name ∈ moduleFolders, location <+: exporter.locationOf name) ∨
        ∃ other ∈ files, location <+: (exporter.locationOf other.path).dropLast) tree later) :
    exporter.Spares file tree later := by
  have alone : ∀ other ∈ files, other.StandsAside file := by
    intro other member
    exact (List.pairwise_append.mp apart.apart).2.2 other member file (by simp)
  apply spares_of_grows sound growth
  · intro upper before inside
    obtain ⟨other, member, rfl⟩ := isWritten upper inside
    exact (alone other member).1 (locationOf_prefix_iff.mp before)
  · rintro (⟨name, member, before⟩ | ⟨other, member, before⟩)
    · exact apart.folders file (by simp) name member (locationOf_prefix_iff.mp before)
    · have whole := before.trans (List.dropLast_prefix _)
      exact (alone other member).2 (locationOf_prefix_iff.mp whole)

/-- Files that stand apart are exported one by one as the first tree decides. -/
theorem reports_addFiles
    (plain : exporter.IsPlain) {tree : Tree} (sound : tree.IsSound) {files : List OutputFile}
    (apart : StandApart files)
    (zeroFree : ∀ file ∈ files, Tree.hasZero (.ofRoot (exporter.locationOf file.path)) = false)
    {start : Export}
    (prepared : Grows (fun _ => False)
      (fun location => ∃ name ∈ moduleFolders, location <+: exporter.locationOf name) tree start.tree)
    (running : (exporter.addFiles files start).stopped = none) :
    exporter.Reports tree files start (exporter.addFiles files start) := by
  -- The place of a file is out of the way of the files before it, so the induction adds files last.
  induction files using List.reverseRecOn with
  | nil => exact .nil running
  | append_singleton files file hypothesis =>
      rw [addFiles_concat] at running ⊢
      obtain ⟨runningBefore, runningNow⟩ := Export.stopped_of_next running
      have first := hypothesis apart.upper
        (fun other member => zeroFree other (List.mem_append_left _ member)) runningBefore
      have grown : Grows
          (fun location => ∃ other ∈ files, exporter.fate? tree other = some .written ∧
            location = exporter.locationOf other.path)
          (fun location => (∃ name ∈ moduleFolders, location <+: exporter.locationOf name) ∨
            ∃ other ∈ files, location <+: (exporter.locationOf other.path).dropLast)
          tree (exporter.addFiles files start).tree :=
        (prepared.mono (fun _ => False.elim) fun _ => .inl).trans
          (first.growth.mono (fun _ => id) fun _ => .inr)
      have spares := spares_of_standApart sound apart
        (fun _ ⟨other, member, _, here⟩ => ⟨other, member, here⟩) grown
      have relative := apart.relative file (by simp)
      have last := reports_addFile plain (grown.sound sound) relative (zeroFree file (by simp))
        spares runningNow
      rw [Export.next_eq runningBefore]
      refine first.concat ?_ last
      intro other member same
      have alone := (List.pairwise_append.mp apart.apart).2.2 other member file (by simp)
      apply alone.1
      rw [← locationOf_prefix_iff, same]

/-! ## The folders of the module -/

/-- A folder of the module can be made. -/
def CanMake (exporter : Exporter) (tree : Tree) (name : String) : Prop :=
  Fits (exporter.locationOf name) ∧ tree.IsOpen (exporter.locationOf name)

instance (tree : Tree) (name : String) : Decidable (exporter.CanMake tree name) :=
  inferInstanceAs (Decidable (_ ∧ _))

theorem canMake_congr
    (exporter : Exporter) {written made : Location → Prop} {earlier later : Tree}
    (sound : earlier.IsSound)
    (growth : Grows written made earlier later) (unwritten : ∀ location, ¬ written location)
    (name : String) :
    exporter.CanMake later name ↔ exporter.CanMake earlier name := by
  apply and_congr_right
  intro _
  apply Tree.isOpen_congr
  intro upper _
  exact growth.kindAt?_eq_file_iff sound (unwritten upper)

/-- All that can become of a folder of the module. -/
theorem addFolder_cases
    (plain : exporter.IsPlain) {state : Export} (sound : state.tree.IsSound) {name : String}
    (relative : IsPlainPath name)
    (zeroFree : Tree.hasZero (.ofRoot (exporter.locationOf name)) = false) :
    ∃ made messages, exporter.addFolder state name =
        { state with
          tree := made
          errors := state.errors ++ messages
          logs := state.logs ++ messages.map (.error .exporter ·) } ∧
      List.Forall₂ exporter.ReportsFolder
        ([name].filter fun name => ¬ exporter.CanMake state.tree name) messages := by
  have makes := Tree.ensureFolder_eq_none_iff sound (plain_locationOf plain relative)
  have noZero := Tree.ensureFolder_ne_zeroInName state.tree zeroFree
  rw [← child_eq plain relative] at makes noZero
  rw [addFolder]
  cases ensured : state.tree.ensureFolder (exporter.folder.child name) with
  | mk made outcome =>
      rw [ensured] at makes noZero
      cases outcome with
      | none =>
          have can : exporter.CanMake state.tree name := makes.mp rfl
          refine ⟨made, [], by simp, ?_⟩
          rw [List.filter_singleton]
          simp [can]
      | some error =>
          have cannot : ¬ exporter.CanMake state.tree name := by
            intro can
            cases makes.mpr can
          have other : error ≠ .zeroInName := by simpa using noZero
          dsimp only
          rw [Export.failWith, if_neg (by simpa using other)]
          refine ⟨made, _, rfl, ?_⟩
          rw [List.filter_singleton]
          simp only [cannot, not_false_eq_true, decide_true, cond_true]
          exact .cons ⟨error, rfl⟩ .nil

/-- Making the folders of the module reports those that cannot be made, and goes on. -/
theorem addFolders_reports
    (plain : exporter.IsPlain) {names : List String} (relative : ∀ name ∈ names, IsPlainPath name)
    (zeroFree : ∀ name ∈ names, Tree.hasZero (.ofRoot (exporter.locationOf name)) = false)
    {state : Export} (sound : state.tree.IsSound) (running : state.stopped = none) :
    (exporter.addFolders names state).stopped = none ∧
      (exporter.addFolders names state).records = state.records ∧
      (exporter.addFolders names state).warnings = state.warnings ∧
      ∃ messages, (exporter.addFolders names state).errors = state.errors ++ messages ∧
        List.Forall₂ exporter.ReportsFolder
          (names.filter fun name => ¬ exporter.CanMake state.tree name) messages := by
  induction names generalizing state with
  | nil => exact ⟨running, rfl, rfl, [], by simp [addFolders], by simp⟩
  | cons name rest hypothesis =>
      have growth := grows_addFolder plain sound (relative name (by simp))
      obtain ⟨made, messages, outcome, told⟩ :=
        addFolder_cases plain sound (relative name (by simp)) (zeroFree name (by simp))
      have whole : exporter.addFolders (name :: rest) state =
          exporter.addFolders rest (exporter.addFolder state name) := by
        rw [addFolders, List.foldl_cons, Export.next_eq running]
        rfl
      have same := canMake_congr exporter sound growth fun _ => id
      rw [outcome] at whole growth same
      obtain ⟨stillRunning, records, warnings, others, errors, othersTold⟩ :=
        hypothesis (fun other member => relative other (by simp [member]))
          (fun other member => zeroFree other (by simp [member])) (growth.sound sound) running
      rw [whole]
      refine ⟨stillRunning, records, warnings, messages ++ others, ?_, ?_⟩
      · rw [errors, List.append_assoc]
      · simp only [same] at othersTold
        have split : (name :: rest).filter (fun name => ¬ exporter.CanMake state.tree name) =
            [name].filter (fun name => ¬ exporter.CanMake state.tree name) ++
              rest.filter fun name => ¬ exporter.CanMake state.tree name := by
          rw [← List.filter_append]
          rfl
        rw [split]
        exact List.rel_append told othersTold

end Exporter

end Scaffold
