import Scaffold.Export.Basic
import Scaffold.Proofs.Disk.Growth

/-!
# The effect of an export

An export without errors makes the folders of a module and leaves a file at the place of every
generated one.  Where files that are written in any case meet, the content of the last one stays; a
file that yields to what is there changes no content.
-/

namespace Scaffold

open Scaffold.Disk (Content IsPlainName Location Path Tree WriteMode)
open Scaffold.Disk.Tree (Extends Grows)

/-! ## Places in a module -/

/-- A text of plain names, read from the folder of a module. -/
structure IsPlainPath (text : String) : Prop where
  relative : text.toList.head? ≠ some '/'
  plain : ∀ name ∈ Path.namesOf text.toList, IsPlainName name

instance (text : String) : Decidable (IsPlainPath text) :=
  decidable_of_iff
    (text.toList.head? ≠ some '/' ∧ ∀ name ∈ Path.namesOf text.toList, IsPlainName name)
    ⟨fun ⟨relative, plain⟩ => ⟨relative, plain⟩, fun path => ⟨path.relative, path.plain⟩⟩

namespace Exporter

/-- The location of a text in the folder of the module. -/
def locationOf (exporter : Exporter) (text : String) : Location :=
  exporter.folder.names ++ Path.namesOf text.toList

/-- The folder of the module is given by plain names from the root. -/
structure IsPlain (exporter : Exporter) : Prop where
  start : exporter.folder.start = .root
  names : ∀ name ∈ exporter.folder.names, IsPlainName name

variable {exporter : Exporter}

theorem child_eq
    (plain : exporter.IsPlain) {text : String} (relative : IsPlainPath text) :
    exporter.folder.child text = .ofRoot (exporter.locationOf text) := by
  rw [Path.child_eq relative.relative, plain.start]
  rfl

theorem plain_locationOf
    (plain : exporter.IsPlain) {text : String} (relative : IsPlainPath text) :
    ∀ name ∈ exporter.locationOf text, IsPlainName name := by
  intro name member
  rcases List.mem_append.mp member with folder | file
  · exact plain.names name folder
  · exact relative.plain name file

end Exporter

/-- Plain names behind a path lead on from where the path leads. -/
theorem Disk.Tree.resolve_child_of_isPlainPath
    (tree : Tree) (path : Path) {text : String} (relative : IsPlainPath text) :
    tree.resolve (path.child text) = tree.resolve path ++ Path.namesOf text.toList := by
  rw [Path.child_eq relative.relative, Tree.resolve, List.foldl_append,
    Tree.foldl_step relative.plain]
  rfl

/-! ## Clean exports -/

/-- Nothing has gone wrong so far. -/
structure Export.IsClean (state : Export) : Prop where
  errors : state.errors = []
  running : state.stopped = none

theorem Export.not_isClean_failWith (state : Export) (error : Disk.DiskError) (message : String) :
    ¬ (state.failWith error message).IsClean := by
  rintro ⟨errors, running⟩
  rw [failWith] at errors running
  split_ifs at errors running
  · cases running
  · simp [fail] at errors

theorem Export.next_of_isClean
    {state : Export} {step : Export → Export} (clean : (state.next step).IsClean) :
    state.stopped = none ∧ (step state).IsClean := by
  obtain ⟨errors, running⟩ := clean
  rw [next] at errors running
  split_ifs at errors running with stopped
  · simp [running] at stopped
  · exact ⟨Option.not_isSome_iff_eq_none.mp stopped, errors, running⟩

theorem Export.next_eq {state : Export} (running : state.stopped = none) (step : Export → Export) :
    state.next step = step state := by
  simp [next, running]

/-- A step that lets a tree grow does so when it is done unless the export was stopped. -/
theorem Export.grows_next
    {written made : Location → Prop} (state : Export) (step : Export → Export)
    (growth : Grows written made state.tree (step state).tree) :
    Grows written made state.tree (state.next step).tree := by
  rw [next]
  split_ifs
  · exact .refl _
  · exact growth

@[simp]
theorem Export.tree_failWith (state : Export) (error : Disk.DiskError) (message : String) :
    (state.failWith error message).tree = state.tree := by
  rw [failWith]
  split_ifs <;> rfl

namespace Exporter

variable {exporter : Exporter}

/-! ## Folders -/

theorem isProper_child
    (plain : exporter.IsPlain) {text : String} (relative : IsPlainPath text) :
    (exporter.folder.child text).IsProper := by
  rw [child_eq plain relative]
  exact Path.isProper_ofRoot (plain_locationOf plain relative)

theorem passes_child
    (plain : exporter.IsPlain) {text : String} (relative : IsPlainPath text) {tree : Tree}
    (location : Location) (passed : tree.Passes (exporter.folder.child text) location) :
    location <+: exporter.locationOf text := by
  rw [child_eq plain relative] at passed
  exact Tree.prefix_of_passes (plain_locationOf plain relative) passed

theorem passes_parent
    (plain : exporter.IsPlain) {text : String} (relative : IsPlainPath text) {tree : Tree}
    (location : Location) (passed : tree.Passes (exporter.folder.child text).parent location) :
    location <+: (exporter.locationOf text).dropLast := by
  rw [child_eq plain relative] at passed
  refine Tree.prefix_of_passes (fun name member => ?_) passed
  exact plain_locationOf plain relative name (List.dropLast_subset _ member)

theorem grows_addFolder
    (plain : exporter.IsPlain) {state : Export} (sound : state.tree.IsSound) {name : String}
    (relative : IsPlainPath name) :
    Grows (fun _ => False) (· <+: exporter.locationOf name) state.tree
      (exporter.addFolder state name).tree := by
  have growth := (Tree.ensureFolder_spec sound (isProper_child plain relative)).1.mono
    (fun _ => id) (passes_child plain relative)
  rw [addFolder]
  split
  · rename_i made ensured
    rw [ensured] at growth
    exact growth
  · rename_i made error ensured
    rw [ensured] at growth
    simpa using growth

theorem addFolder_spec
    (plain : exporter.IsPlain) {state : Export} (sound : state.tree.IsSound) {name : String}
    (relative : IsPlainPath name) (running : state.stopped = none)
    (clean : (exporter.addFolder state name).IsClean) :
    state.IsClean ∧
      (exporter.addFolder state name).tree.isFolder (exporter.folder.child name) = .ok true := by
  have folder := (Tree.ensureFolder_spec sound (isProper_child plain relative)).2
  rw [addFolder] at clean ⊢
  split
  · rename_i made ensured
    rw [ensured] at folder clean
    exact ⟨⟨clean.errors, running⟩, folder rfl⟩
  · rename_i made error ensured
    rw [ensured] at clean
    exact absurd clean (Export.not_isClean_failWith _ _ _)

/-- Make folders of the module in turn. -/
def addFolders (exporter : Exporter) (names : List String) (state : Export) : Export :=
  names.foldl (fun state name => state.next (exporter.addFolder · name)) state

theorem grows_addFolders
    (plain : exporter.IsPlain) {names : List String} (relative : ∀ name ∈ names, IsPlainPath name)
    (state : Export) (sound : state.tree.IsSound) :
    Grows (fun _ => False) (fun location => ∃ name ∈ names, location <+: exporter.locationOf name)
      state.tree (exporter.addFolders names state).tree := by
  induction names generalizing state with
  | nil => exact .refl _
  | cons name rest hypothesis =>
      have first := Export.grows_next state (exporter.addFolder · name)
        (grows_addFolder plain sound (relative name (by simp)))
      have others := hypothesis (fun other member => relative other (by simp [member])) _
        (first.sound sound)
      refine (first.mono (fun _ => id) ?_).trans (others.mono (fun _ => id) ?_)
      · exact fun _ before => ⟨name, by simp, before⟩
      · rintro _ ⟨other, member, before⟩
        exact ⟨other, by simp [member], before⟩

/-- After a clean start all folders of the module are there. -/
theorem addFolders_spec
    (plain : exporter.IsPlain) {names : List String} (relative : ∀ name ∈ names, IsPlainPath name)
    {state : Export} (sound : state.tree.IsSound)
    (clean : (exporter.addFolders names state).IsClean) :
    state.IsClean ∧ ∀ name ∈ names,
      (exporter.addFolders names state).tree.isFolder (exporter.folder.child name) = .ok true := by
  induction names generalizing state with
  | nil => exact ⟨clean, by simp⟩
  | cons name rest hypothesis =>
      have relativeRest : ∀ other ∈ rest, IsPlainPath other := fun other member =>
        relative other (by simp [member])
      have first := Export.grows_next state (exporter.addFolder · name)
        (grows_addFolder plain sound (relative name (by simp)))
      have later := grows_addFolders plain relativeRest _ (first.sound sound)
      obtain ⟨nextClean, folders⟩ := hypothesis relativeRest (first.sound sound) clean
      obtain ⟨running, stepClean⟩ := Export.next_of_isClean nextClean
      obtain ⟨startClean, folder⟩ :=
        addFolder_spec plain sound (relative name (by simp)) running stepClean
      refine ⟨startClean, fun other member => ?_⟩
      rcases List.mem_cons.mp member with rfl | among
      · refine later.isFolder ?_
        rw [Export.next_eq running]
        exact folder
      · exact folders other among

theorem addFolders_of_isFolder
    {names : List String} {state : Export} (clean : state.IsClean)
    (there : ∀ name ∈ names, state.tree.isFolder (exporter.folder.child name) = .ok true) :
    exporter.addFolders names state = state := by
  induction names with
  | nil => rfl
  | cons name rest hypothesis =>
      have first : state.next (exporter.addFolder · name) = state := by
        rw [Export.next_eq clean.running, addFolder,
          Tree.ensureFolder_of_isFolder (there name (by simp))]
      have others := hypothesis fun other member => there other (by simp [member])
      rw [addFolders] at others ⊢
      rw [List.foldl_cons, first, others]

/-! ## Files -/

/-- A file yields to what is there. -/
def yields (exporter : Exporter) (file : OutputFile) : Bool :=
  !file.aggregate && !exporter.config.overwriteExisting

/-- The content that files leave at a location, of which only the last one stays. -/
def settled (exporter : Exporter) (location : Location) : List OutputFile → Option Content
  | [] => none
  | file :: rest =>
      (exporter.settled location rest).or
        (if !exporter.yields file && exporter.locationOf file.path == location then
          some (.text file.content)
        else none)

/-- What lies at the place of a file lets it be exported once more. -/
def Meets (exporter : Exporter) (tree : Tree) (file : OutputFile) : Prop :=
  if exporter.yields file then tree.has (exporter.folder.child file.path) = .ok true
  else tree.Holds exporter.writeMode (exporter.folder.child file.path)

theorem has_eq_true_iff {tree : Tree} {path : Path} :
    tree.has path = .ok true ↔ ∃ kind, tree.inspect path = .ok (some kind) := by
  rw [Tree.has]
  cases tree.inspect path with
  | error error => simp [Except.map]
  | ok found => cases found <;> simp [Except.map]

theorem has_of_isFile
    {tree : Tree} {path : Path} (file : tree.isFile path = .ok true) : tree.has path = .ok true := by
  obtain ⟨location, located, kind⟩ := Tree.isFile_eq_true_iff.mp file
  exact has_eq_true_iff.mpr ⟨.file, by simp [Tree.inspect, located, kind]⟩

theorem Meets.extend
    {earlier later : Tree} (growth : Extends earlier later) {file : OutputFile}
    (meets : exporter.Meets earlier file) :
    exporter.Meets later file := by
  rw [Meets] at meets ⊢
  split_ifs at meets ⊢
  · obtain ⟨kind, inspected⟩ := has_eq_true_iff.mp meets
    exact has_eq_true_iff.mpr ⟨kind, growth.inspect inspected⟩
  · exact growth.holds meets

theorem Meets.kindAt?_ne_none
    {tree : Tree} {file : OutputFile} (meets : exporter.Meets tree file)
    (plain : exporter.IsPlain) (relative : IsPlainPath file.path) :
    tree.kindAt? (exporter.locationOf file.path) ≠ none := by
  have there : tree.has (exporter.folder.child file.path) = .ok true := by
    rw [Meets] at meets
    split_ifs at meets
    · exact meets
    · exact has_of_isFile meets.file
  obtain ⟨kind, inspected⟩ := has_eq_true_iff.mp there
  rw [child_eq plain relative, Tree.inspect] at inspected
  split at inspected
  · rename_i location located
    rw [Tree.locate_eq_resolve located, Tree.resolve_ofRoot _ (plain_locationOf plain relative)]
      at inspected
    rw [Except.ok.inj inspected]
    simp
  · cases inspected
  · cases inspected

/-- One file changes at most the content at its own location. -/
theorem grows_addFile
    (plain : exporter.IsPlain) {state : Export} (sound : state.tree.IsSound) {file : OutputFile}
    (relative : IsPlainPath file.path) :
    Grows (· = exporter.locationOf file.path) (· <+: (exporter.locationOf file.path).dropLast)
      state.tree (exporter.addFile state file).tree := by
  have writing := (Tree.writeFile_spec sound exporter.writeMode (isProper_child plain relative)
    (.text file.content)).1.mono (fun _ => id) (passes_parent plain relative)
  rw [child_eq plain relative, Tree.resolve_ofRoot _ (plain_locationOf plain relative),
    ← child_eq plain relative] at writing
  rw [addFile]
  split
  · exact .refl _
  · split_ifs
    · exact .refl _
    · exact .refl _
    · split
      · rename_i written done
        rw [Tree.writeText] at done
        rw [done] at writing
        exact writing
      · rename_i made error failed
        rw [Tree.writeText] at failed
        rw [failed] at writing
        simpa using writing

/-- A file that is exported without an error meets what then lies at its place. -/
theorem addFile_spec
    (plain : exporter.IsPlain) (real : exporter.dryRun = false) {state : Export}
    (sound : state.tree.IsSound) {file : OutputFile} (relative : IsPlainPath file.path)
    (running : state.stopped = none) (clean : (exporter.addFile state file).IsClean) :
    state.IsClean ∧ exporter.Meets (exporter.addFile state file).tree file ∧
      (exporter.yields file = false →
        (exporter.addFile state file).tree.contentAt? (exporter.locationOf file.path) =
            some (.text file.content) ∧
          (exporter.addFile state file).tree.isFile
            (.ofRoot (exporter.locationOf file.path)) = .ok true) := by
  have writing := (Tree.writeFile_spec sound exporter.writeMode (isProper_child plain relative)
    (.text file.content)).2.1
  rw [child_eq plain relative, Tree.resolve_ofRoot _ (plain_locationOf plain relative),
    ← child_eq plain relative] at writing
  rw [addFile] at clean ⊢
  split at clean
  · exact absurd clean.running (by simp [Export.stop])
  · rename_i found has
    have written (made : Tree × Option Disk.DiskError)
        (done : state.tree.writeText exporter.writeMode (exporter.folder.child file.path)
          file.content = made) (accepted : made.2 = none) :
        exporter.Meets made.1 file ∧ (exporter.yields file = false →
          made.1.contentAt? (exporter.locationOf file.path) = some (.text file.content) ∧
            made.1.isFile (.ofRoot (exporter.locationOf file.path)) = .ok true) := by
      rw [← done] at accepted ⊢
      obtain ⟨holds, content⟩ := writing accepted
      have isFile := holds.file
      refine ⟨?_, fun _ => ⟨content, by rw [← child_eq plain relative]; exact isFile⟩⟩
      rw [Meets]
      split_ifs
      · exact has_of_isFile isFile
      · exact holds
    split_ifs at clean ⊢ with skipped dry
    · have yielding : exporter.yields file = true := by
        simp only [Bool.and_eq_true] at skipped
        simp [yields, skipped]
      refine ⟨⟨?_, running⟩, ?_, by simp [yielding]⟩
      · exact clean.errors
      · have there : found = true := by
          simp only [Bool.and_eq_true] at skipped
          exact skipped.1.1
        rw [Meets, if_pos yielding, ← there]
        exact has
    · simp [real] at dry
    · split at clean
      · rename_i made done
        have meets := written (made, none) done rfl
        exact ⟨⟨clean.errors, running⟩, meets⟩
      · exact absurd clean (Export.not_isClean_failWith _ _ _)

/-- A file that is there keeps its content when another one yields to it. -/
theorem contentAt?_addFile
    (plain : exporter.IsPlain) {state : Export} (sound : state.tree.IsSound) {file : OutputFile}
    (relative : IsPlainPath file.path) {location : Location}
    (there : state.tree.isFile (.ofRoot location) = .ok true)
    (other : exporter.yields file = true ∨ exporter.locationOf file.path ≠ location) :
    (exporter.addFile state file).tree.contentAt? location = state.tree.contentAt? location := by
  by_cases same : exporter.locationOf file.path = location
  · have yielding := other.resolve_right (not_not_intro same)
    have skipped : (true && !file.aggregate && !exporter.config.overwriteExisting) = true := by
      rwa [Bool.true_and]
    rw [addFile, child_eq plain relative, same, has_of_isFile there]
    dsimp only
    rw [if_pos skipped]
    rfl
  · exact (grows_addFile plain sound relative).contents location (Ne.symm same)

/-- Export files in turn. -/
def addFiles (exporter : Exporter) (files : List OutputFile) (state : Export) : Export :=
  files.foldl (fun state file => state.next (exporter.addFile · file)) state

theorem grows_addFiles
    (plain : exporter.IsPlain) {files : List OutputFile}
    (relative : ∀ file ∈ files, IsPlainPath file.path) (state : Export)
    (sound : state.tree.IsSound) :
    Grows (fun location => ∃ file ∈ files, location = exporter.locationOf file.path)
      (fun location => ∃ file ∈ files, location <+: (exporter.locationOf file.path).dropLast)
      state.tree (exporter.addFiles files state).tree := by
  induction files generalizing state with
  | nil => exact .refl _
  | cons file rest hypothesis =>
      have first := Export.grows_next state (exporter.addFile · file)
        (grows_addFile plain sound (relative file (by simp)))
      have others := hypothesis (fun other member => relative other (by simp [member])) _
        (first.sound sound)
      refine (first.mono ?_ ?_).trans (others.mono ?_ ?_)
      · rintro _ rfl
        exact ⟨file, by simp, rfl⟩
      · exact fun _ before => ⟨file, by simp, before⟩
      · rintro _ ⟨other, member, rfl⟩
        exact ⟨other, by simp [member], rfl⟩
      · rintro _ ⟨other, member, before⟩
        exact ⟨other, by simp [member], before⟩

/-- A file that is there keeps its content unless one is written in any case at its location. -/
theorem contentAt?_addFiles
    (plain : exporter.IsPlain) {files : List OutputFile}
    (relative : ∀ file ∈ files, IsPlainPath file.path) {state : Export}
    (sound : state.tree.IsSound) {location : Location}
    (there : state.tree.isFile (.ofRoot location) = .ok true)
    (unsettled : exporter.settled location files = none) :
    (exporter.addFiles files state).tree.contentAt? location = state.tree.contentAt? location := by
  induction files generalizing state with
  | nil => rfl
  | cons file rest hypothesis =>
      rw [settled, Option.or_eq_none_iff] at unsettled
      obtain ⟨unsettledRest, unsettledFirst⟩ := unsettled
      have other : exporter.yields file = true ∨ exporter.locationOf file.path ≠ location := by
        simpa [or_iff_not_imp_left] using unsettledFirst
      have growth := Export.grows_next state (exporter.addFile · file)
        (grows_addFile plain sound (relative file (by simp)))
      have kept : (state.next (exporter.addFile · file)).tree.contentAt? location =
          state.tree.contentAt? location := by
        rw [Export.next]
        split_ifs
        · rfl
        · exact contentAt?_addFile plain sound (relative file (by simp)) there other
      have thereStill : (state.next (exporter.addFile · file)).tree.isFile (.ofRoot location) =
          .ok true :=
        growth.toExtends.isFile there
      exact (hypothesis (fun other member => relative other (by simp [member]))
        (growth.sound sound) thereStill unsettledRest).trans kept

/-- Files that are exported without an error meet what then lies there, and what they settle stays. -/
theorem addFiles_spec
    (plain : exporter.IsPlain) (real : exporter.dryRun = false) {files : List OutputFile}
    (relative : ∀ file ∈ files, IsPlainPath file.path) {state : Export}
    (sound : state.tree.IsSound) (clean : (exporter.addFiles files state).IsClean) :
    state.IsClean ∧
      (∀ file ∈ files, exporter.Meets (exporter.addFiles files state).tree file) ∧
        ∀ location content, exporter.settled location files = some content →
          (exporter.addFiles files state).tree.contentAt? location = some content := by
  induction files generalizing state with
  | nil => exact ⟨clean, by simp, by simp [settled]⟩
  | cons file rest hypothesis =>
      have relativeRest : ∀ other ∈ rest, IsPlainPath other.path := fun other member =>
        relative other (by simp [member])
      have growth := Export.grows_next state (exporter.addFile · file)
        (grows_addFile plain sound (relative file (by simp)))
      have later := grows_addFiles plain relativeRest _ (growth.sound sound)
      obtain ⟨nextClean, meetsRest, settledRest⟩ :=
        hypothesis relativeRest (growth.sound sound) clean
      obtain ⟨running, stepClean⟩ := Export.next_of_isClean nextClean
      obtain ⟨startClean, meets, written⟩ :=
        addFile_spec plain real sound (relative file (by simp)) running stepClean
      rw [← Export.next_eq running (exporter.addFile · file)] at meets written
      refine ⟨startClean, fun other member => ?_, fun location content found => ?_⟩
      · rcases List.mem_cons.mp member with rfl | among
        · exact meets.extend later.toExtends
        · exact meetsRest other among
      · rw [settled] at found
        cases settledLater : exporter.settled location rest with
        | some last =>
            rw [settledLater] at found
            exact settledRest location content (by rw [settledLater]; exact found)
        | none =>
            rw [settledLater, Option.none_or] at found
            split_ifs at found with here
            simp only [Bool.and_eq_true, Bool.not_eq_true', beq_iff_eq] at here
            obtain ⟨forced, rfl⟩ := here
            obtain ⟨content', isFile⟩ := written forced
            rw [← found, ← content']
            exact contentAt?_addFiles plain relativeRest (growth.sound sound) isFile settledLater

/-- Exporting files that meet what lies there changes the settled contents only. -/
theorem addFiles_of_meets
    (plain : exporter.IsPlain) (real : exporter.dryRun = false) {files : List OutputFile}
    (relative : ∀ file ∈ files, IsPlainPath file.path) {state : Export} (clean : state.IsClean)
    (meets : ∀ file ∈ files, exporter.Meets state.tree file) :
    (exporter.addFiles files state).IsClean ∧
      Extends state.tree (exporter.addFiles files state).tree ∧
        ∀ location, (exporter.addFiles files state).tree.contentAt? location =
          (exporter.settled location files).or (state.tree.contentAt? location) := by
  induction files generalizing state with
  | nil => exact ⟨clean, .refl _, fun location => by simp [settled, addFiles]⟩
  | cons file rest hypothesis =>
      have relativeFile := relative file (by simp)
      have first := meets file (by simp)
      have step : (exporter.addFile state file).IsClean ∧
          Extends state.tree (exporter.addFile state file).tree ∧
            ∀ location, (exporter.addFile state file).tree.contentAt? location =
              if !exporter.yields file && exporter.locationOf file.path == location then
                some (.text file.content)
              else state.tree.contentAt? location := by
        rw [Meets] at first
        rw [addFile]
        split_ifs at first with yielding
        · have skipped : (true && !file.aggregate && !exporter.config.overwriteExisting) = true := by
            rwa [Bool.true_and]
          rw [first]
          dsimp only
          rw [if_pos skipped]
          exact ⟨⟨clean.errors, clean.running⟩, .refl _, fun location => by simp [yielding]; rfl⟩
        · have holds := first
          obtain ⟨found, located, file'⟩ := Tree.isFile_eq_true_iff.mp holds.file
          have place : found = exporter.locationOf file.path := by
            rw [Tree.locate_eq_resolve located, child_eq plain relativeFile,
              Tree.resolve_ofRoot _ (plain_locationOf plain relativeFile)]
          have written := Tree.writeFile_of_holds holds (.text file.content)
          rw [← Tree.locate_eq_resolve located, place] at written
          have notSkipped :
              ¬ (true && !file.aggregate && !exporter.config.overwriteExisting) = true := by
            rwa [Bool.true_and]
          rw [has_of_isFile holds.file]
          dsimp only
          rw [if_neg notSkipped, if_neg (by simp [real]), Tree.writeText, written]
          refine ⟨⟨clean.errors, clean.running⟩, Tree.extends_withFile (by simp [← place, file']) _,
            fun location => ?_⟩
          change (state.tree.withFile _ _).contentAt? location = _
          rw [Tree.contentAt?_withFile]
          by_cases same : location = exporter.locationOf file.path
          · simp [same, yielding]
          · simp [same, Ne.symm same]
      obtain ⟨stepClean, stepExtends, stepContents⟩ := step
      have meetsRest : ∀ other ∈ rest, exporter.Meets (exporter.addFile state file).tree other :=
        fun other member => (meets other (by simp [member])).extend stepExtends
      obtain ⟨lastClean, lastExtends, lastContents⟩ :=
        hypothesis (fun other member => relative other (by simp [member])) stepClean meetsRest
      have whole : exporter.addFiles (file :: rest) state =
          exporter.addFiles rest (exporter.addFile state file) := by
        rw [addFiles, List.foldl_cons, Export.next_eq clean.running]
        rfl
      rw [whole]
      refine ⟨lastClean, stepExtends.trans lastExtends, fun location => ?_⟩
      rw [lastContents, stepContents, settled, Option.or_assoc]
      split_ifs <;> rfl

/-! ## Whole exports -/

/-- An export before its manifest. -/
def exported (exporter : Exporter) (tree : Tree) (files : List OutputFile) : Export :=
  exporter.addFiles files
    (exporter.addFolders moduleFolders { tree, stopped := exporter.refusal? })

/-- The manifest is written. -/
def lists (exporter : Exporter) : Bool :=
  exporter.config.writeManifest

theorem isPlainPath_of_mem_moduleFolders : ∀ name ∈ moduleFolders, IsPlainPath name := by
  decide

theorem isPlainPath_manifestName : IsPlainPath manifestName := by
  decide

theorem tree_addManifest (exporter : Exporter) (state : Export) :
    (exporter.addManifest state).tree =
      (state.tree.writeText exporter.writeMode (exporter.folder.child manifestName)
        (exporter.manifest state).text).1 := by
  rw [addManifest]
  split
  · rename_i written done
    rw [done]
  · rename_i made error failed
    rw [failed]

theorem addManifest_clean {state : Export} (clean : state.IsClean) :
    (exporter.addManifest state).IsClean := by
  rw [addManifest]
  split
  · exact ⟨clean.errors, clean.running⟩
  · exact ⟨clean.errors, clean.running⟩

theorem close_spec (exporter : Exporter) (state : Export) :
    ((state.next exporter.close).IsClean ↔ state.IsClean) ∧
      (state.next exporter.close).tree = state.tree := by
  rw [Export.next]
  split_ifs
  · exact ⟨.rfl, rfl⟩
  · rw [close]
    split_ifs
    · exact ⟨.rfl, rfl⟩
    · exact ⟨⟨fun clean => ⟨clean.errors, clean.running⟩, fun clean => ⟨clean.errors, clean.running⟩⟩,
        rfl⟩

/-- An export that changes the tree lists its files when there was no error, and then ends. -/
theorem run_eq_exported (real : exporter.dryRun = false) (tree : Tree) (files : List OutputFile) :
    exporter.run tree files =
      ((if exporter.lists && (exporter.exported tree files).errors.isEmpty then
          (exporter.exported tree files).next exporter.addManifest
        else exporter.exported tree files).next exporter.close) := by
  simp only [run, real, Bool.false_eq_true, if_false, Bool.not_false, Bool.and_true]
  rfl

/-- A whole export is clean when it was before the manifest, which is then written on request. -/
theorem run_spec (real : exporter.dryRun = false) (tree : Tree) (files : List OutputFile) :
    ((exporter.run tree files).IsClean ↔ (exporter.exported tree files).IsClean) ∧
      ((exporter.exported tree files).IsClean →
        (exporter.run tree files).tree =
          if exporter.lists then (exporter.addManifest (exporter.exported tree files)).tree
          else (exporter.exported tree files).tree) := by
  obtain ⟨closeClean, closeTree⟩ := close_spec exporter
    (if exporter.lists && (exporter.exported tree files).errors.isEmpty then
      (exporter.exported tree files).next exporter.addManifest
    else exporter.exported tree files)
  rw [run_eq_exported real, closeClean, closeTree]
  constructor
  · split_ifs with listed
    · constructor
      · intro clean
        simp only [Bool.and_eq_true, List.isEmpty_iff] at listed
        exact ⟨listed.2, (Export.next_of_isClean clean).1⟩
      · intro clean
        rw [Export.next_eq clean.running]
        exact addManifest_clean clean
    · exact .rfl
  · intro clean
    rw [Export.next_eq clean.running]
    simp [clean.errors]
    split_ifs <;> rfl

/-- The locations where an export of files may write. -/
def Writes (exporter : Exporter) (files : List OutputFile) (location : Location) : Prop :=
  location = exporter.locationOf manifestName ∨
    ∃ file ∈ files, location = exporter.locationOf file.path

/-- The locations where an export of files may make folders. -/
def Makes (exporter : Exporter) (files : List OutputFile) (location : Location) : Prop :=
  (∃ name ∈ moduleFolders, location <+: exporter.locationOf name) ∨
    location <+: (exporter.locationOf manifestName).dropLast ∨
    ∃ file ∈ files, location <+: (exporter.locationOf file.path).dropLast

/-- What an export without errors leaves behind. -/
structure Leaves (exporter : Exporter) (files : List OutputFile) (later : Tree) : Prop where
  folders : ∀ name ∈ moduleFolders, later.isFolder (exporter.folder.child name) = .ok true
  meets : ∀ file ∈ files, exporter.Meets later file
  settles : ∀ location content, location ≠ exporter.locationOf manifestName →
    exporter.settled location files = some content → later.contentAt? location = some content

theorem Leaves.kindAt?_eq_folder
    {files : List OutputFile} {later : Tree} (leaves : exporter.Leaves files later)
    (plain : exporter.IsPlain) {name : String} (member : name ∈ moduleFolders) :
    later.kindAt? (exporter.locationOf name) = some .folder := by
  have relative := isPlainPath_of_mem_moduleFolders name member
  obtain ⟨found, located, kind⟩ := Tree.isFolder_eq_true_iff.mp (leaves.folders name member)
  rwa [Tree.locate_eq_resolve located, child_eq plain relative,
    Tree.resolve_ofRoot _ (plain_locationOf plain relative)] at kind

theorem exists_of_settled
    {files : List OutputFile} {location : Location} {content : Content}
    (found : exporter.settled location files = some content) :
    ∃ file ∈ files, location = exporter.locationOf file.path := by
  induction files with
  | nil => cases found
  | cons file rest hypothesis =>
      rw [settled, Option.or_eq_some_iff] at found
      rcases found with later | ⟨_, here⟩
      · obtain ⟨other, member, same⟩ := hypothesis later
        exact ⟨other, List.mem_cons_of_mem _ member, same⟩
      · split_ifs at here with place
        rw [Bool.and_eq_true, beq_iff_eq] at place
        exact ⟨file, List.mem_cons_self, place.2.symm⟩

/-- What is left behind stays while the contents of the files do. -/
theorem Leaves.extend
    {files : List OutputFile} {earlier later : Tree} (leaves : exporter.Leaves files earlier)
    (growth : Extends earlier later)
    (contents : ∀ file ∈ files, later.contentAt? (exporter.locationOf file.path) =
      earlier.contentAt? (exporter.locationOf file.path)) :
    exporter.Leaves files later where
  folders name member := growth.isFolder (leaves.folders name member)
  meets file member := (leaves.meets file member).extend growth
  settles location content apart found := by
    obtain ⟨file, member, rfl⟩ := exists_of_settled found
    rw [contents file member]
    exact leaves.settles _ content apart found

theorem grows_addManifest
    (plain : exporter.IsPlain) {state : Export} (sound : state.tree.IsSound) :
    Grows (· = exporter.locationOf manifestName)
      (· <+: (exporter.locationOf manifestName).dropLast) state.tree
      (exporter.addManifest state).tree := by
  have writing := (Tree.writeFile_spec sound exporter.writeMode
    (isProper_child plain isPlainPath_manifestName) (.text (exporter.manifest state).text)).1.mono
      (fun _ => id) (passes_parent plain isPlainPath_manifestName)
  rw [child_eq plain isPlainPath_manifestName,
    Tree.resolve_ofRoot _ (plain_locationOf plain isPlainPath_manifestName),
    ← child_eq plain isPlainPath_manifestName] at writing
  rw [tree_addManifest]
  exact writing

theorem grows_exported
    (plain : exporter.IsPlain) {tree : Tree} (sound : tree.IsSound) {files : List OutputFile}
    (relative : ∀ file ∈ files, IsPlainPath file.path) :
    Grows (exporter.Writes files) (exporter.Makes files) tree
      (exporter.exported tree files).tree := by
  have folders := grows_addFolders plain isPlainPath_of_mem_moduleFolders
    { tree, stopped := exporter.refusal? } sound
  have added := grows_addFiles plain relative _ (folders.sound sound)
  exact (folders.mono (fun _ => False.elim) fun _ => .inl).trans
    (added.mono (fun _ => .inr) fun _ before => .inr (.inr before))

/-- The manifest changes the content at its own location only. -/
theorem grows_run
    (plain : exporter.IsPlain) (real : exporter.dryRun = false) {tree : Tree}
    {files : List OutputFile} (sound : (exporter.exported tree files).tree.IsSound) :
    Grows (· = exporter.locationOf manifestName)
      (· <+: (exporter.locationOf manifestName).dropLast) (exporter.exported tree files).tree
      (exporter.run tree files).tree := by
  rw [run_eq_exported real, (close_spec exporter _).2]
  split_ifs
  · exact Export.grows_next _ exporter.addManifest (grows_addManifest plain sound)
  · exact .refl _

/-- An export without errors leaves every file in its place. -/
theorem leaves_of_run
    (plain : exporter.IsPlain) (real : exporter.dryRun = false) {tree : Tree} (sound : tree.IsSound)
    {files : List OutputFile} (relative : ∀ file ∈ files, IsPlainPath file.path)
    (clean : (exporter.run tree files).IsClean) :
    exporter.refusal? = none ∧
      Grows (exporter.Writes files) (exporter.Makes files) tree (exporter.run tree files).tree ∧
        exporter.Leaves files (exporter.run tree files).tree := by
  rw [(run_spec real tree files).1] at clean
  have first := grows_addFolders plain isPlainPath_of_mem_moduleFolders
    { tree, stopped := exporter.refusal? } sound
  have second := grows_addFiles plain relative _ (first.sound sound)
  have whole := grows_exported plain sound relative
  obtain ⟨middleClean, meets, settles⟩ :=
    addFiles_spec plain real relative (first.sound sound) clean
  obtain ⟨startClean, folders⟩ :=
    addFolders_spec plain isPlainPath_of_mem_moduleFolders sound middleClean
  have third := grows_run plain real (whole.sound sound)
  refine ⟨startClean.running, ?_, ?_, ?_, ?_⟩
  · exact whole.trans (third.mono (fun _ => .inl) fun _ before => .inr (.inl before))
  · exact fun name member => third.isFolder (second.isFolder (folders name member))
  · exact fun file member => (meets file member).extend third.toExtends
  · intro location content notManifest found
    rw [third.contents location notManifest]
    exact settles location content found

/-- Exporting files once more that an export has left behind changes the manifest only. -/
theorem run_of_leaves
    (plain : exporter.IsPlain) (real : exporter.dryRun = false) (accepted : exporter.refusal? = none)
    {tree : Tree} (sound : tree.IsSound) {files : List OutputFile}
    (relative : ∀ file ∈ files, IsPlainPath file.path) (leaves : exporter.Leaves files tree) :
    (exporter.run tree files).IsClean ∧
      (∀ location, location ≠ exporter.locationOf manifestName →
        (exporter.run tree files).tree.contentAt? location = tree.contentAt? location) := by
  have startClean : ({ tree, stopped := exporter.refusal? } : Export).IsClean := ⟨rfl, accepted⟩
  have prepared := addFolders_of_isFolder startClean leaves.folders
  have again : exporter.exported tree files =
      exporter.addFiles files { tree, stopped := exporter.refusal? } := by
    rw [exported, prepared]
  obtain ⟨clean, _, contents⟩ := addFiles_of_meets plain real relative startClean leaves.meets
  rw [← again] at clean contents
  have grown : (exporter.exported tree files).tree.IsSound := by
    rw [again]
    exact (grows_addFiles plain relative { tree, stopped := exporter.refusal? } sound).sound sound
  refine ⟨((run_spec real tree files).1).mpr clean, fun location notManifest => ?_⟩
  rw [(grows_run plain real grown).contents location notManifest, contents]
  cases found : exporter.settled location files with
  | none => rfl
  | some content => exact (leaves.settles location content notManifest found).symm

theorem namesOf_manifestName : Path.namesOf manifestName.toList = [manifestName] := by
  decide

/-- An export has the folder and the settings of another one. -/
structure Repeats (again exporter : Exporter) : Prop where
  config : again.config = exporter.config
  folder : again.folder = exporter.folder
  real : again.dryRun = exporter.dryRun

namespace Repeats

variable {again exporter : Exporter}

theorem isPlain (repeats : Repeats again exporter) (plain : exporter.IsPlain) : again.IsPlain :=
  ⟨by rw [repeats.folder]; exact plain.start, by rw [repeats.folder]; exact plain.names⟩

theorem locationOf (repeats : Repeats again exporter) : again.locationOf = exporter.locationOf := by
  funext text
  rw [Exporter.locationOf, Exporter.locationOf, repeats.folder]

theorem yields (repeats : Repeats again exporter) : again.yields = exporter.yields := by
  funext file
  rw [Exporter.yields, Exporter.yields, repeats.config]

theorem writeMode (repeats : Repeats again exporter) : again.writeMode = exporter.writeMode := by
  rw [Exporter.writeMode, Exporter.writeMode, repeats.config]

theorem settled (repeats : Repeats again exporter) : again.settled = exporter.settled := by
  funext location files
  induction files with
  | nil => rfl
  | cons file rest hypothesis =>
      rw [Exporter.settled, Exporter.settled, hypothesis, repeats.yields, repeats.locationOf]

theorem meets (repeats : Repeats again exporter) : again.Meets = exporter.Meets := by
  funext tree file
  rw [Exporter.Meets, Exporter.Meets, repeats.yields, repeats.folder, repeats.writeMode]

/-- What one export leaves behind, every repetition does. -/
theorem leaves
    (repeats : Repeats again exporter) {later : Tree} {files : List OutputFile}
    (leaves : exporter.Leaves files later) :
    again.Leaves files later where
  folders := by
    rw [repeats.folder]
    exact leaves.folders
  meets := by
    rw [repeats.meets]
    exact leaves.meets
  settles := by
    rw [repeats.locationOf, repeats.settled]
    exact leaves.settles

end Repeats

/-- A repeated export lists its files only if the first one did. -/
theorem isSome_manifest_of_repeats
    {again : Exporter} (repeats : Repeats again exporter) (plain : exporter.IsPlain)
    (real : exporter.dryRun = false) {first tree : Tree} (firstSound : first.IsSound)
    {files : List OutputFile} (relative : ∀ file ∈ files, IsPlainPath file.path)
    (others : ∀ file ∈ files, exporter.locationOf file.path ≠ exporter.locationOf manifestName)
    (clean : (exporter.run first files).IsClean)
    (growth : Extends (exporter.run first files).tree tree) (sound : tree.IsSound)
    (listed : ((again.run tree files).tree.contentAt?
      (exporter.locationOf manifestName)).isSome = true)
    (leaves : exporter.Leaves files tree) :
    (tree.contentAt? (exporter.locationOf manifestName)).isSome = true := by
  have accepted : again.refusal? = none := by
    rw [refusal?, repeats.folder]
    exact (leaves_of_run plain real firstSound relative clean).1
  have againPlain := repeats.isPlain plain
  have againReal := repeats.real.trans real
  have againLeaves := repeats.leaves leaves
  have startClean : ({ tree, stopped := again.refusal? } : Export).IsClean := ⟨rfl, accepted⟩
  have same : again.exported tree files = again.addFiles files { tree, stopped := again.refusal? } := by
    rw [exported, addFolders_of_isFolder startClean againLeaves.folders]
  obtain ⟨againClean, extended, _⟩ :=
    addFiles_of_meets againPlain againReal relative startClean againLeaves.meets
  have grown := grows_addFiles againPlain relative { tree, stopped := again.refusal? } sound
  rw [← same] at againClean extended grown
  have kept : (again.exported tree files).tree.contentAt? (exporter.locationOf manifestName) =
      tree.contentAt? (exporter.locationOf manifestName) := by
    refine grown.contents _ ?_
    rw [repeats.locationOf]
    exact fun ⟨file, member, place⟩ => others file member place.symm
  rw [← kept]
  rw [(run_spec againReal tree files).2 againClean] at listed
  split_ifs at listed with lists
  · rw [(run_spec real first files).1] at clean
    have firstTree := (run_spec real first files).2 clean
    have firstLists : exporter.lists = true := by
      rw [← lists, Exporter.lists, Exporter.lists, repeats.config]
    rw [if_pos firstLists, tree_addManifest] at firstTree
    have firstGrows := grows_addFolders plain isPlainPath_of_mem_moduleFolders
      { tree := first, stopped := exporter.refusal? } firstSound
    have secondGrows := grows_addFiles plain relative _ (firstGrows.sound firstSound)
    obtain ⟨middleClean, _⟩ := addFiles_spec plain real relative (firstGrows.sound firstSound) clean
    obtain ⟨_, folders⟩ :=
      addFolders_spec plain isPlainPath_of_mem_moduleFolders firstSound middleClean
    have folder := secondGrows.isFolder (folders "config" (by decide))
    obtain ⟨found, located, _⟩ := Tree.isFolder_eq_true_iff.mp folder
    rw [Path.child_plain (by decide : IsPlainName "config")] at located
    have shape := Path.child_plain (by decide : IsPlainName manifestName) exporter.folder
    have place (tree : Tree) :
        tree.resolve (exporter.folder.child manifestName) = exporter.locationOf manifestName := by
      rw [child_eq plain isPlainPath_manifestName,
        Tree.resolve_ofRoot _ (plain_locationOf plain isPlainPath_manifestName)]
    have firstGrown := grows_run plain real (secondGrows.sound (firstGrows.sound firstSound))
    have before := (firstGrown.toExtends.trans growth).trans extended
    have proper := isProper_child plain isPlainPath_manifestName
    rw [firstTree] at growth
    rw [tree_addManifest, repeats.writeMode, repeats.folder,
      ← place (again.exported tree files).tree] at listed
    rw [← place (again.exported tree files).tree]
    rw [shape] at listed growth proper ⊢
    exact Tree.contentAt?_isSome_of_writeFile (grown.sound sound) proper located (by simp) before
      (growth.trans extended) listed
  · exact listed

end Exporter

end Scaffold
