import Mathlib.Data.List.Induction
import Scaffold.Proofs.Disk.Location

/-!
# Trees that grow

Making folders and writing files removes nothing: whatever lay somewhere stays what it was, and a
path that could be followed can still be followed.  Contents change only where a file is written.
-/

namespace Scaffold.Disk

/-- The names of a path are plain, or lead to the parent. -/
def Path.IsProper (path : Path) : Prop :=
  ∀ name ∈ path.names, name = ".." ∨ IsPlainName name

theorem Path.isProper_ofText (text : String) : (Path.ofText text).IsProper := by
  have parts (text : List Char) : ∀ part ∈ Path.splitSlash text, '/' ∉ part := by
    induction text with
    | nil => simp [Path.splitSlash]
    | cons c rest hypothesis =>
        rw [Path.splitSlash]
        obtain ⟨part, others, shape⟩ := List.exists_cons_of_ne_nil (Path.splitSlash_ne_nil rest)
        rw [shape] at hypothesis ⊢
        dsimp only
        split_ifs with slash
        · exact List.forall_mem_cons.mpr ⟨by simp, hypothesis⟩
        · obtain ⟨first, later⟩ := List.forall_mem_cons.mp hypothesis
          refine List.forall_mem_cons.mpr ⟨?_, later⟩
          have notSlash : c ≠ '/' := by simpa using slash
          simp [first, Ne.symm notSlash]
  intro name member
  obtain ⟨part, kept, rfl⟩ := List.mem_map.mp member
  obtain ⟨among, shape⟩ := List.mem_filter.mp kept
  simp only [Bool.and_eq_true, Bool.not_eq_true', List.isEmpty_eq_false_iff, bne_iff_ne, ne_eq]
    at shape
  by_cases parent : String.ofList part = ".."
  · exact .inl parent
  · refine .inr ⟨?_, by simpa using parts text.toList part among, ?_, parent⟩
    · rw [ne_eq, String.ofList_eq_empty_iff]
      exact shape.1
    · intro here
      refine shape.2 ?_
      rw [← String.toList_ofList (l := part), here]
      rfl

theorem Path.isProper_ofRoot
    {location : Location} (plain : ∀ name ∈ location, IsPlainName name) :
    (Path.ofRoot location).IsProper :=
  fun name member => .inr (plain name member)

namespace Tree

theorem step_plain {name : String} (plain : IsPlainName name) (location : Location) :
    step location name = location ++ [name] := by
  have notParent : (name == "..") = false := by simpa using plain.notParent
  rw [step, notParent]
  rfl

theorem foldl_step
    {location names : Location} (plain : ∀ name ∈ names, IsPlainName name) :
    names.foldl step location = location ++ names := by
  induction names generalizing location with
  | nil => simp
  | cons name rest hypothesis =>
      rw [List.foldl_cons, hypothesis fun other member => plain other (by simp [member]),
        step_plain (plain name (by simp)), List.append_assoc]
      rfl

/-- Plain names from the root say where they lead. -/
theorem resolve_ofRoot
    {location : Location} (tree : Tree) (plain : ∀ name ∈ location, IsPlainName name) :
    tree.resolve (.ofRoot location) = location :=
  foldl_step plain

/-- The working directory is a folder, and all that is there has a plain name inside a folder. -/
structure IsSound (tree : Tree) : Prop where
  home : tree.kindAt? tree.home = some .folder
  above : ∀ location name, tree.kindAt? (location ++ [name]) ≠ none →
    tree.kindAt? location = some .folder
  plain : ∀ location name, tree.kindAt? (location ++ [name]) ≠ none → IsPlainName name
  /-- Nothing is both a folder and a file. -/
  apart : ∀ location, tree.kindAt? location = some .folder → tree.contentAt? location = none

theorem isSound_empty : ({} : Tree).IsSound := by
  have nothing (location : Location) (name : String) :
      ({} : Tree).kindAt? (location ++ [name]) = none := by
    simp [Tree.kindAt?, Tree.contentAt?]
  exact ⟨rfl, fun location name there => absurd (nothing location name) there,
    fun location name there => absurd (nothing location name) there, fun _ _ => rfl⟩

theorem IsSound.isFile_iff {tree : Tree} (sound : tree.IsSound) {location : Location} :
    tree.kindAt? location = some .file ↔ (tree.contentAt? location).isSome = true := by
  constructor
  · exact fun file => (kindAt?_eq_file_iff.mp file).2
  · intro found
    refine kindAt?_eq_file_iff.mpr ⟨?_, found⟩
    by_contra listed
    have folder : tree.kindAt? location = some .folder := kindAt?_eq_folder_iff.mpr (by tauto)
    simp [sound.apart location folder] at found

/-- Whatever lies below a location that holds no folder is not there. -/
theorem IsSound.kindAt?_append
    {tree : Tree} (sound : tree.IsSound) {location : Location}
    (notFolder : tree.kindAt? location ≠ some .folder) {names : List String} (below : names ≠ []) :
    tree.kindAt? (location ++ names) = none := by
  induction names using List.reverseRecOn with
  | nil => exact absurd rfl below
  | append_singleton upper name hypothesis =>
      by_contra found
      rw [← List.append_assoc] at found
      have folder := sound.above _ _ found
      by_cases direct : upper = []
      · rw [direct, List.append_nil] at folder
        exact notFolder folder
      · rw [hypothesis direct] at folder
        cases folder

/-! ## Extensions -/

theorem IsSound.plain_of_there
    {tree : Tree} (sound : tree.IsSound) {location : Location}
    (there : tree.kindAt? location ≠ none) :
    ∀ name ∈ location, IsPlainName name := by
  induction location using List.reverseRecOn with
  | nil => simp
  | append_singleton above last hypothesis =>
      have folder := sound.above above last there
      rw [List.forall_mem_append, List.forall_mem_singleton]
      exact ⟨hypothesis (by simp [folder]), sound.plain above last there⟩

/-- The names of the place of a path are plain. -/
theorem IsSound.plain_resolve
    {tree : Tree} (sound : tree.IsSound) {path : Path} (proper : path.IsProper) :
    ∀ name ∈ tree.resolve path, IsPlainName name := by
  have steps (names : List String) (proper : ∀ name ∈ names, name = ".." ∨ IsPlainName name)
      (location : Location) (plain : ∀ name ∈ location, IsPlainName name) :
      ∀ name ∈ names.foldl step location, IsPlainName name := by
    induction names generalizing location with
    | nil => exact plain
    | cons name rest hypothesis =>
        refine hypothesis (fun other member => proper other (by simp [member])) _ ?_
        rw [step]
        split_ifs with parent
        · exact fun other member => plain other (List.dropLast_subset _ member)
        · have notParent : name ≠ ".." := by simpa using parent
          rw [List.forall_mem_append, List.forall_mem_singleton]
          exact ⟨plain, (proper name (by simp)).resolve_left notParent⟩
  refine steps path.names proper _ ?_
  rw [start]
  split_ifs
  · simp
  · exact sound.plain_of_there (by simp [sound.home])


/-- Everything of an earlier tree is still there in a later one. -/
structure Extends (earlier later : Tree) : Prop where
  home : later.home = earlier.home
  kinds : ∀ location kind, earlier.kindAt? location = some kind →
    later.kindAt? location = some kind

namespace Extends

variable {earlier middle later : Tree}

theorem refl (tree : Tree) : Extends tree tree :=
  ⟨rfl, fun _ _ found => found⟩

theorem trans (first : Extends earlier middle) (second : Extends middle later) :
    Extends earlier later :=
  ⟨second.home.trans first.home, fun location kind found =>
    second.kinds location kind (first.kinds location kind found)⟩

theorem start (growth : Extends earlier later) (path : Path) :
    later.start path = earlier.start path := by
  rw [Tree.start, Tree.start, growth.home]

theorem resolve (growth : Extends earlier later) (path : Path) :
    later.resolve path = earlier.resolve path := by
  rw [Tree.resolve, Tree.resolve, growth.start]

theorem absolutePath (growth : Extends earlier later) (path : Path) :
    later.absolutePath path = earlier.absolutePath path := by
  rw [Tree.absolutePath, Tree.absolutePath, growth.resolve]

theorem walk
    (growth : Extends earlier later) {location found : Location} {names : List String}
    (walked : earlier.walk location names = .ok found) :
    later.walk location names = .ok found := by
  induction names generalizing location with
  | nil => exact walked
  | cons name rest hypothesis =>
      rw [Tree.walk] at walked ⊢
      split at walked
      · rename_i folder
        rw [growth.kinds _ _ folder]
        split_ifs at walked ⊢
        exact hypothesis walked
      · cases walked
      · cases walked

theorem locate
    (growth : Extends earlier later) {path : Path} {found : Location}
    (located : earlier.locate path = .ok found) :
    later.locate path = .ok found := by
  rw [Tree.locate] at located ⊢
  rw [growth.start]
  split_ifs at located ⊢
  exact growth.walk located

theorem inspect
    (growth : Extends earlier later) {path : Path} {kind : Kind}
    (inspected : earlier.inspect path = .ok (some kind)) :
    later.inspect path = .ok (some kind) := by
  rw [Tree.inspect] at inspected
  split at inspected
  · rename_i found located
    rw [Tree.inspect, growth.locate located]
    exact congrArg Except.ok (growth.kinds _ _ (Except.ok.inj inspected))
  · cases inspected
  · cases inspected

theorem isFolder
    (growth : Extends earlier later) {path : Path} (found : earlier.isFolder path = .ok true) :
    later.isFolder path = .ok true := by
  obtain ⟨location, located, kind⟩ := isFolder_eq_true_iff.mp found
  exact isFolder_eq_true_iff.mpr ⟨location, growth.locate located, growth.kinds _ _ kind⟩

theorem isFile
    (growth : Extends earlier later) {path : Path} (found : earlier.isFile path = .ok true) :
    later.isFile path = .ok true := by
  obtain ⟨location, located, kind⟩ := isFile_eq_true_iff.mp found
  exact isFile_eq_true_iff.mpr ⟨location, growth.locate located, growth.kinds _ _ kind⟩

/-- A name in a folder could be followed already when the folder was there. -/
theorem locate_of_parent
    (growth : Extends earlier later) {start : PathStart} {upper : List String} {name : String}
    (folder : earlier.isFolder ⟨start, upper⟩ = .ok true) {found : Location}
    (located : later.locate ⟨start, upper ++ [name]⟩ = .ok found) :
    earlier.locate ⟨start, upper ++ [name]⟩ = .ok found := by
  obtain ⟨above, aboveLocated, kind⟩ := isFolder_eq_true_iff.mp folder
  obtain ⟨accessible, walked⟩ := locate_eq_ok_iff.mp located
  have upperWalked := (locate_eq_ok_iff.mp aboveLocated).2
  have laterUpper := growth.walk upperWalked
  refine locate_eq_ok_iff.mpr ⟨accessible, ?_⟩
  have sameStart : later.start ⟨start, upper ++ [name]⟩ = earlier.start ⟨start, upper⟩ :=
    growth.start _
  have earlierStart : earlier.start ⟨start, upper ++ [name]⟩ = earlier.start ⟨start, upper⟩ := rfl
  rw [sameStart, walk_append, laterUpper, Except.bind, Tree.walk, growth.kinds _ _ kind] at walked
  rw [earlierStart, walk_append, upperWalked, Except.bind, Tree.walk, kind]
  exact walked

end Extends

/-- The first names of a path that can be followed are a folder. -/
theorem isFolder_of_locate
    {tree : Tree} {start : PathStart} {upper lower : List String} {found : Location}
    (located : tree.locate ⟨start, upper ++ lower⟩ = .ok found) (more : lower ≠ []) :
    tree.isFolder ⟨start, upper⟩ = .ok true := by
  obtain ⟨accessible, followed⟩ := locate_eq_ok_iff.mp located
  obtain ⟨middle, walked, kind, _⟩ := walk_upper followed more
  exact isFolder_eq_true_iff.mpr
    ⟨middle, locate_eq_ok_iff.mpr ⟨accessible.upper more, walked⟩, kind⟩

/-! ## Growth -/

/--
A later tree extends an earlier one.  Contents differ at most where something is written, and
folders are new at most where they are made.
-/
structure Grows (written made : Location → Prop) (earlier later : Tree) : Prop
    extends Extends earlier later where
  sound : earlier.IsSound → later.IsSound
  contents : ∀ location, ¬ written location →
    later.contentAt? location = earlier.contentAt? location
  folders : ∀ location, later.kindAt? location = some .folder →
    earlier.kindAt? location = some .folder ∨ made location

namespace Grows

variable {earlier middle later : Tree} {written made : Location → Prop}

theorem refl (tree : Tree) : Grows written made tree tree :=
  ⟨.refl tree, id, fun _ _ => rfl, fun _ found => .inl found⟩

theorem trans (first : Grows written made earlier middle) (second : Grows written made middle later) :
    Grows written made earlier later :=
  ⟨first.toExtends.trans second.toExtends, second.sound ∘ first.sound,
    fun location outside =>
      (second.contents location outside).trans (first.contents location outside),
    fun location found => (second.folders location found).elim (first.folders location) .inr⟩

theorem mono
    {others places : Location → Prop} (growth : Grows written made earlier later)
    (moreWritten : ∀ location, written location → others location)
    (moreMade : ∀ location, made location → places location) :
    Grows others places earlier later :=
  ⟨growth.toExtends, growth.sound,
    fun location outside =>
      growth.contents location fun inside => outside (moreWritten location inside),
    fun location found => (growth.folders location found).imp_right (moreMade location)⟩

/-- Nothing is new where nothing is written or made. -/
theorem kindAt?_eq
    (growth : Grows written made earlier later) (laterSound : later.IsSound) {location : Location}
    (notWritten : ¬ written location) (notMade : ¬ made location) :
    later.kindAt? location = earlier.kindAt? location := by
  cases found : earlier.kindAt? location with
  | some kind => exact growth.kinds location kind found
  | none =>
      rw [kindAt?_eq_none_iff] at found
      cases now : later.kindAt? location with
      | none => rfl
      | some kind =>
          cases kind with
          | folder =>
              rcases growth.folders location now with before | inside
              · rw [kindAt?_eq_folder_iff] at before
                tauto
              · exact absurd inside notMade
          | file =>
              have content := laterSound.isFile_iff.mp now
              rw [growth.contents location notWritten, found.2] at content
              cases content

end Grows

/-! ## Places -/

theorem start_isFolder {tree : Tree} (sound : tree.IsSound) (path : Path) :
    tree.kindAt? (tree.start path) = some .folder := by
  rw [start]
  split_ifs
  · exact kindAt?_eq_folder_iff.mpr (.inl rfl)
  · exact sound.home

/-- The parent of a folder is a folder. -/
theorem IsSound.dropLast
    {tree : Tree} (sound : tree.IsSound) {location : Location}
    (folder : tree.kindAt? location = some .folder) :
    tree.kindAt? location.dropLast = some .folder := by
  rcases List.eq_nil_or_concat' location with rfl | ⟨above, name, rfl⟩
  · exact folder
  · rw [List.dropLast_concat]
    exact sound.above above name (by simp [folder])

/-- A proper path that leads to no folder leads to a plain name inside one. -/
theorem place_of_locate
    {tree : Tree} (sound : tree.IsSound) {path : Path} (proper : path.IsProper)
    {location : Location} (located : tree.locate path = .ok location)
    (notFolder : tree.kindAt? location ≠ some .folder) :
    ∃ above name, location = above ++ [name] ∧ tree.kindAt? above = some .folder ∧
      IsPlainName name := by
  rw [locate] at located
  split_ifs at located
  rcases List.eq_nil_or_concat' path.names with none | ⟨upper, name, shape⟩
  · rw [none, walk] at located
    cases located
    exact absurd (start_isFolder sound path) notFolder
  · rw [shape] at located
    obtain ⟨above, _, folder, rfl⟩ := walk_concat located
    rcases proper name (by simp [shape]) with rfl | plain
    · rw [step, if_pos (beq_self_eq_true "..")] at notFolder
      exact absurd (sound.dropLast folder) notFolder
    · refine ⟨above, name, ?_, folder, plain⟩
      rw [step, if_neg (by simpa using plain.notParent)]

/-! ## Folders -/

theorem contentAt?_addFolder (tree : Tree) (location : Location) :
    (tree.addFolder location).contentAt? = tree.contentAt? :=
  rfl

theorem kindAt?_addFolder (tree : Tree) (location other : Location) :
    (tree.addFolder location).kindAt? other =
      if other = location then some .folder else tree.kindAt? other := by
  split_ifs with same
  · rw [same]
    exact kindAt?_eq_folder_iff.mpr (.inr (by simp [addFolder]))
  · rw [kindAt?, kindAt?, contentAt?_addFolder]
    simp [addFolder, same]

theorem grows_addFolder
    {tree : Tree} {location above : Location} {name : String}
    (absent : tree.kindAt? location = none) (shape : location = above ++ [name])
    (folder : tree.kindAt? above = some .folder) (plain : IsPlainName name) :
    Grows (fun _ => False) (· = location) tree (tree.addFolder location) where
  home := rfl
  kinds other kind found := by
    rw [kindAt?_addFolder]
    split_ifs with same
    · rw [same, absent] at found
      cases found
    · exact found
  contents _ _ := rfl
  folders other found := by
    rw [kindAt?_addFolder] at found
    split_ifs at found with same
    · exact .inr same
    · exact .inl found
  sound sound := by
    have kept {other : Location} (found : tree.kindAt? other = some .folder) :
        (tree.addFolder location).kindAt? other = some .folder := by
      rw [kindAt?_addFolder]
      split_ifs
      · rfl
      · exact found
    refine ⟨kept sound.home, ?_, ?_, ?_⟩
    · intro other last found
      rw [kindAt?_addFolder] at found
      split_ifs at found with same
      · obtain ⟨rfl, _⟩ := List.append_inj' (same.trans shape) rfl
        exact kept folder
      · exact kept (sound.above other last found)
    · intro other last found
      rw [kindAt?_addFolder] at found
      split_ifs at found with same
      · obtain ⟨_, lasts⟩ := List.append_inj' (same.trans shape) rfl
        rw [List.cons.inj lasts |>.1]
        exact plain
      · exact sound.plain other last found
    · intro other found
      rw [kindAt?_addFolder] at found
      split_ifs at found with same
      · rw [same]
        exact (kindAt?_eq_none_iff.mp absent).2
      · exact sound.apart other found

theorem makeFolder_eq_ok
    {tree made : Tree} {path : Path} (making : tree.makeFolder path = .ok made) :
    ∃ location, tree.locate path = .ok location ∧ tree.kindAt? location = none ∧
      made = tree.addFolder location := by
  rw [makeFolder] at making
  split at making
  · cases making
  · split at making
    · cases making
    · cases making
      exact ⟨_, ‹_›, ‹_›, rfl⟩

/-- A folder that is made is there. -/
theorem makeFolder_spec
    {tree made : Tree} (sound : tree.IsSound) {path : Path} (proper : path.IsProper)
    (making : tree.makeFolder path = .ok made) :
    Grows (fun _ => False) (· = tree.resolve path) tree made ∧ made.isFolder path = .ok true := by
  obtain ⟨location, located, absent, rfl⟩ := makeFolder_eq_ok making
  obtain ⟨above, name, shape, folder, plain⟩ :=
    place_of_locate sound proper located (by simp [absent])
  have growth := grows_addFolder absent shape folder plain
  rw [← locate_eq_resolve located]
  refine ⟨growth, isFolder_eq_true_iff.mpr ⟨location, growth.locate located, ?_⟩⟩
  rw [kindAt?_addFolder, if_pos rfl]

theorem unlessFolder_eq_none_iff {tree : Tree} {path : Path} {error : DiskError} :
    tree.unlessFolder path error = none ↔ tree.isFolder path = .ok true := by
  rw [unlessFolder]
  split
  · rename_i found _
    cases found <;> simp [*]
  · simp [*]

theorem allowFolder_spec
    {tree : Tree} (sound : tree.IsSound) {path : Path} (proper : path.IsProper) :
    Grows (fun _ => False) (· = tree.resolve path) tree (tree.allowFolder path).1 ∧
      ((tree.allowFolder path).2 = none →
        (tree.allowFolder path).1.isFolder path = .ok true) := by
  rw [allowFolder]
  split
  · rename_i made making
    obtain ⟨growth, folder⟩ := makeFolder_spec sound proper making
    exact ⟨growth, fun _ => folder⟩
  · exact ⟨.refl tree, unlessFolder_eq_none_iff.mp⟩

/-- A location is that of the first names of a path. -/
def Passes (tree : Tree) (path : Path) (location : Location) : Prop :=
  ∃ upper, upper <+: path.names ∧ location = tree.resolve ⟨path.start, upper⟩

/-- Plain names from the root pass their own beginnings. -/
theorem prefix_of_passes
    {location place : Location} {tree : Tree} (plain : ∀ name ∈ location, IsPlainName name)
    (passed : tree.Passes (.ofRoot location) place) :
    place <+: location := by
  obtain ⟨upper, before, rfl⟩ := passed
  have upperPlain : ∀ name ∈ upper, IsPlainName name := fun name member =>
    plain name (before.subset member)
  have here := resolve_ofRoot tree upperPlain
  rw [Path.ofRoot] at here ⊢
  rw [here]
  exact before

/-- Where a path leads to a folder, no folder is missing on its way. -/
theorem Grows.of_isFolder
    {written : Location → Prop} {earlier later : Tree} {path : Path}
    (growth : Grows written (earlier.Passes path) earlier later)
    (folder : earlier.isFolder path = .ok true) :
    Grows written (fun _ => False) earlier later where
  toExtends := growth.toExtends
  sound := growth.sound
  contents := growth.contents
  folders location found := by
    rcases growth.folders location found with before | ⟨upper, ⟨lower, whole⟩, rfl⟩
    · exact .inl before
    · refine .inl ?_
      obtain ⟨place, located, kind⟩ := isFolder_eq_true_iff.mp folder
      by_cases last : lower = []
      · rw [last, List.append_nil] at whole
        rw [whole, ← locate_eq_resolve located]
        exact kind
      · have walked := (locate_eq_ok_iff.mp located).2
        rw [← whole] at walked
        obtain ⟨middle, upperWalked, middleKind, _⟩ := walk_upper walked last
        rw [resolve]
        dsimp only
        rw [show earlier.start ⟨path.start, upper⟩ = earlier.start path from rfl,
          ← walk_eq_foldl upperWalked]
        exact middleKind

theorem ensureNames_spec
    {tree : Tree} (sound : tree.IsSound) (start : PathStart) {names : List String}
    (proper : ∀ name ∈ names, name = ".." ∨ IsPlainName name) :
    Grows (fun _ => False) (tree.Passes ⟨start, names.reverse⟩) tree
        (tree.ensureNames start names).1 ∧
      ((tree.ensureNames start names).2 = none →
        (tree.ensureNames start names).1.isFolder ⟨start, names.reverse⟩ = .ok true) := by
  have properPath : (⟨start, names.reverse⟩ : Path).IsProper := fun name member =>
    proper name (List.mem_reverse.mp member)
  have whole (location : Location) (here : location = tree.resolve ⟨start, names.reverse⟩) :
      tree.Passes ⟨start, names.reverse⟩ location :=
    ⟨names.reverse, List.prefix_rfl, here⟩
  induction names with
  | nil =>
      obtain ⟨growth, folder⟩ := allowFolder_spec sound properPath
      exact ⟨growth.mono (fun _ => id) whole, folder⟩
  | cons name above hypothesis =>
      have properAbove : ∀ other ∈ above, other = ".." ∨ IsPlainName other :=
        fun other member => proper other (List.mem_cons_of_mem _ member)
      obtain ⟨upper, upperFolder⟩ := hypothesis properAbove
        (fun other member => properAbove other (List.mem_reverse.mp member))
        fun location here => ⟨above.reverse, List.prefix_rfl, here⟩
      have onTheWay (location : Location) (passed : tree.Passes ⟨start, above.reverse⟩ location) :
          tree.Passes ⟨start, (name :: above).reverse⟩ location := by
        obtain ⟨first, before, here⟩ := passed
        exact ⟨first, before.trans (by simp), here⟩
      rw [ensureNames]
      split
      · rename_i made making
        obtain ⟨growth, folder⟩ := makeFolder_spec sound properPath making
        exact ⟨growth.mono (fun _ => id) whole, fun _ => folder⟩
      · split
        · rename_i made ensured
          rw [ensured] at upper
          obtain ⟨growth, folder⟩ := allowFolder_spec (upper.sound sound) properPath
          rw [upper.resolve] at growth
          exact ⟨(upper.mono (fun _ => id) onTheWay).trans (growth.mono (fun _ => id) whole), folder⟩
        · rename_i made error ensured
          rw [ensured] at upper
          exact ⟨upper.mono (fun _ => id) onTheWay, nofun⟩
      · exact ⟨.refl tree, unlessFolder_eq_none_iff.mp⟩

/-- Making a folder adds folders on the way to it, and it is there unless there was an error. -/
theorem ensureFolder_spec
    {tree : Tree} (sound : tree.IsSound) {path : Path} (proper : path.IsProper) :
    Grows (fun _ => False) (tree.Passes path) tree (tree.ensureFolder path).1 ∧
      ((tree.ensureFolder path).2 = none →
        (tree.ensureFolder path).1.isFolder path = .ok true) := by
  have spec := ensureNames_spec sound path.start fun name member =>
    proper name (List.mem_reverse.mp member)
  rwa [List.reverse_reverse] at spec

/-- A folder that is there is made without any change. -/
theorem ensureFolder_of_isFolder
    {tree : Tree} {path : Path} (there : tree.isFolder path = .ok true) :
    tree.ensureFolder path = (tree, none) := by
  obtain ⟨location, located, folder⟩ := isFolder_eq_true_iff.mp there
  have making : tree.makeFolder path = .error .exists := by
    rw [makeFolder, located]
    simp [folder]
  have allowed (error : DiskError) : tree.unlessFolder path error = none :=
    unlessFolder_eq_none_iff.mpr there
  have whole : (⟨path.start, path.names.reverse.reverse⟩ : Path) = path := by
    rw [List.reverse_reverse]
  rw [ensureFolder]
  generalize path.names.reverse = names at whole
  cases names with
  | nil =>
      rw [ensureNames, allowFolder]
      rw [List.reverse_nil] at whole
      rw [whole, making]
      simp [allowed]
  | cons name above =>
      rw [ensureNames]
      simp only [whole, making, allowed]

/-! ## Files -/

theorem find?_putFile (location other : Location) (content : Content)
    (files : List (Location × Content)) :
    ((putFile location content files).find? (·.1 == other)).map (·.2) =
      if other = location then some content else (files.find? (·.1 == other)).map (·.2) := by
  induction files with
  | nil =>
      by_cases same : other = location
      · simp [putFile, same]
      · simp [putFile, same, Ne.symm same]
  | cons file rest hypothesis =>
      rw [putFile]
      by_cases here : file.1 = location
      · rw [if_pos (by simpa using here)]
        by_cases same : other = location
        · simp [same]
        · have notHere : ¬ file.1 = other := fun there => same (there.symm.trans here)
          simp [same, Ne.symm same, notHere]
      · rw [if_neg (by simpa using here)]
        by_cases there : file.1 = other
        · have different : other ≠ location := fun same => here (there.trans same)
          simp [there, different]
        · simpa [List.find?_cons, there] using hypothesis

/-- A tree with a content at a location. -/
def withFile (tree : Tree) (location : Location) (content : Content) : Tree :=
  { tree with files := putFile location content tree.files }

theorem contentAt?_withFile (tree : Tree) (location other : Location) (content : Content) :
    (tree.withFile location content).contentAt? other =
      if other = location then some content else tree.contentAt? other :=
  find?_putFile location other content tree.files

theorem kindAt?_withFile
    {tree : Tree} {location : Location} (notFolder : tree.kindAt? location ≠ some .folder)
    (other : Location) (content : Content) :
    (tree.withFile location content).kindAt? other =
      if other = location then some .file else tree.kindAt? other := by
  split_ifs with same
  · rw [ne_eq, kindAt?_eq_folder_iff, not_or] at notFolder
    rw [same, kindAt?_eq_file_iff, contentAt?_withFile, if_pos rfl]
    exact ⟨notFolder, rfl⟩
  · rw [kindAt?, kindAt?, contentAt?_withFile, if_neg same]
    rfl

theorem extends_withFile
    {tree : Tree} {location : Location} (notFolder : tree.kindAt? location ≠ some .folder)
    (content : Content) :
    Extends tree (tree.withFile location content) where
  home := rfl
  kinds other kind found := by
    rw [kindAt?_withFile notFolder]
    split_ifs with same
    · rw [same] at found
      cases kind with
      | folder => exact absurd found notFolder
      | file => rfl
    · exact found

theorem grows_withFile
    {tree : Tree} {location above : Location} {name : String} (content : Content)
    (notFolder : tree.kindAt? location ≠ some .folder) (shape : location = above ++ [name])
    (folder : tree.kindAt? above = some .folder) (plain : IsPlainName name) :
    Grows (· = location) (fun _ => False) tree (tree.withFile location content) where
  toExtends := extends_withFile notFolder content
  folders other found := by
    rw [kindAt?_withFile notFolder] at found
    split_ifs at found
    · cases found
    · exact .inl found
  contents other outside := by
    rw [contentAt?_withFile, if_neg outside]
  sound sound := by
    have kept {other : Location} (found : tree.kindAt? other = some .folder) :
        (tree.withFile location content).kindAt? other = some .folder := by
      rw [kindAt?_withFile notFolder, if_neg]
      · exact found
      · rintro rfl
        exact notFolder found
    refine ⟨kept sound.home, ?_, ?_, ?_⟩
    · intro other last found
      rw [kindAt?_withFile notFolder] at found
      split_ifs at found with same
      · obtain ⟨rfl, _⟩ := List.append_inj' (same.trans shape) rfl
        exact kept folder
      · exact kept (sound.above other last found)
    · intro other last found
      rw [kindAt?_withFile notFolder] at found
      split_ifs at found with same
      · obtain ⟨_, lasts⟩ := List.append_inj' (same.trans shape) rfl
        rw [List.cons.inj lasts |>.1]
        exact plain
      · exact sound.plain other last found
    · intro other found
      rw [kindAt?_withFile notFolder] at found
      split_ifs at found with same
      · cases found
      · rw [contentAt?_withFile, if_neg same]
        exact sound.apart other found

/-- A file may be written under its name. -/
def Accepts (mode : WriteMode) (path : Path) : Prop :=
  mode = .atOnce → otherNameError? path = none

theorem replaceFile_eq_ok_iff {tree written : Tree} {mode : WriteMode} {path : Path}
    {content : Content} :
    tree.replaceFile mode path content = .ok written ↔
      Accepts mode path ∧ ∃ location, tree.locate path = .ok location ∧
        tree.kindAt? location ≠ some .folder ∧ written = tree.withFile location content := by
  have refusal :
      (if mode == .atOnce then otherNameError? path else none) = none ↔ Accepts mode path := by
    cases mode <;> simp [Accepts]
  rw [← refusal, replaceFile]
  split
  · rename_i refused
    simp only [refused, reduceCtorEq, false_and]
  · rename_i located
    simp [located]
  · rename_i location accepted located
    simp only [accepted, located, true_and, Except.ok.injEq, exists_eq_left']
    split
    · rename_i folder
      simp [folder]
    · rename_i notFolder
      constructor
      · intro same
        exact ⟨notFolder, (Except.ok.inj same).symm⟩
      · rintro ⟨_, rfl⟩
        rfl

/-- What has become of a path to whose file a content was written. -/
structure Holds (tree : Tree) (mode : WriteMode) (path : Path) : Prop where
  accepts : Accepts mode path
  parent : tree.isFolder path.parent = .ok true
  file : tree.isFile path = .ok true

theorem Extends.holds
    {earlier later : Tree} (growth : Extends earlier later) {mode : WriteMode} {path : Path}
    (holds : earlier.Holds mode path) :
    later.Holds mode path := by
  exact ⟨holds.accepts, growth.isFolder holds.parent, growth.isFile holds.file⟩

theorem Path.IsProper.parent {path : Path} (proper : path.IsProper) : path.parent.IsProper :=
  fun name member => proper name (List.dropLast_subset _ member)

/-- Writing changes one content at most, and the content is there unless there was an error. -/
theorem writeFile_spec
    {tree : Tree} (sound : tree.IsSound) (mode : WriteMode) {path : Path} (proper : path.IsProper)
    (content : Content) :
    Grows (· = tree.resolve path) (tree.Passes path.parent) tree
        (tree.writeFile mode path content).1 ∧
      ((tree.writeFile mode path content).2 = none →
        (tree.writeFile mode path content).1.Holds mode path ∧
          (tree.writeFile mode path content).1.contentAt? (tree.resolve path) = some content) ∧
        ((tree.writeFile mode path content).2 ≠ none →
          Grows (fun _ => False) (tree.Passes path.parent) tree
            (tree.writeFile mode path content).1) := by
  obtain ⟨growth, folder⟩ := ensureFolder_spec sound (Path.IsProper.parent proper)
  have anywhere (written : Location → Prop) {made : Tree}
      (growth : Grows (fun _ => False) (tree.Passes path.parent) tree made) :
      Grows written (tree.Passes path.parent) tree made :=
    growth.mono (fun _ impossible => impossible.elim) fun _ => id
  rw [writeFile]
  split
  · rename_i made error ensured
    rw [ensured] at growth
    exact ⟨anywhere _ growth, nofun, fun _ => growth⟩
  · rename_i made ensured
    rw [ensured] at growth folder
    have parent := folder rfl
    split
    · rename_i written replaced
      obtain ⟨accepts, location, located, notFolder, rfl⟩ := replaceFile_eq_ok_iff.mp replaced
      obtain ⟨above, name, shape, aboveFolder, plain⟩ :=
        place_of_locate (growth.sound sound) proper located notFolder
      have writing := (grows_withFile content notFolder shape aboveFolder plain).mono
        (fun _ => id) fun (other : Location) impossible =>
          (impossible.elim : tree.Passes path.parent other)
      have place : location = tree.resolve path := by
        rw [locate_eq_resolve located, growth.resolve]
      rw [← place]
      refine ⟨(anywhere _ growth).trans writing, fun _ =>
        ⟨⟨accepts, writing.isFolder parent, ?_⟩, ?_⟩, fun failed => absurd rfl failed⟩
      · refine isFile_eq_true_iff.mpr ⟨location, writing.locate located, ?_⟩
        rw [kindAt?_withFile notFolder, if_pos rfl]
      · rw [contentAt?_withFile, if_pos rfl]
    · exact ⟨anywhere _ growth, nofun, fun _ => growth⟩

/-- Writing to a path whose file is there already changes its content only. -/
theorem writeFile_of_holds
    {tree : Tree} {mode : WriteMode} {path : Path} (holds : tree.Holds mode path)
    (content : Content) :
    tree.writeFile mode path content = (tree.withFile (tree.resolve path) content, none) := by
  obtain ⟨location, located, file⟩ := isFile_eq_true_iff.mp holds.file
  have replaced : tree.replaceFile mode path content =
      .ok (tree.withFile (tree.resolve path) content) := by
    rw [← locate_eq_resolve located]
    exact replaceFile_eq_ok_iff.mpr ⟨holds.accepts, location, located, by simp [file], rfl⟩
  rw [writeFile, ensureFolder_of_isFolder holds.parent]
  simp only [replaced]

/-- A file that can be written later could be written before, when its folder was there already. -/
theorem contentAt?_isSome_of_writeFile
    {first later : Tree} (laterSound : later.IsSound) {mode : WriteMode} {start : PathStart}
    {upper lower : List String} {name : String} {content other : Content}
    (proper : Path.IsProper ⟨start, upper ++ [name]⟩) {found : Location}
    (located : first.locate ⟨start, upper ++ lower⟩ = .ok found) (more : lower ≠ [])
    (before : Extends first later)
    (growth : Extends (first.writeFile mode ⟨start, upper ++ [name]⟩ content).1 later)
    (written : ((later.writeFile mode ⟨start, upper ++ [name]⟩ other).1.contentAt?
      (later.resolve ⟨start, upper ++ [name]⟩)).isSome = true) :
    (later.contentAt? (later.resolve ⟨start, upper ++ [name]⟩)).isSome = true := by
  obtain ⟨grown, done, failed⟩ := writeFile_spec laterSound mode proper other
  by_cases succeeded : (later.writeFile mode ⟨start, upper ++ [name]⟩ other).2 = none
  · obtain ⟨holds, _⟩ := done succeeded
    have parentIs : (⟨start, upper ++ [name]⟩ : Path).parent = ⟨start, upper⟩ := by
      simp [Path.parent]
    have folder := isFolder_of_locate located more
    obtain ⟨place, placed, file⟩ := isFile_eq_true_iff.mp holds.file
    have firstPlaced := (before.trans grown.toExtends).locate_of_parent folder placed
    have notFolder : first.kindAt? place ≠ some .folder := by
      intro wrong
      rw [grown.kinds _ _ (before.kinds _ _ wrong)] at file
      cases file
    have replaced : first.replaceFile mode ⟨start, upper ++ [name]⟩ content =
        .ok (first.withFile place content) :=
      replaceFile_eq_ok_iff.mpr ⟨holds.accepts, place, firstPlaced, notFolder, rfl⟩
    have ensured : first.ensureFolder (⟨start, upper ++ [name]⟩ : Path).parent = (first, none) := by
      rw [parentIs]
      exact ensureFolder_of_isFolder folder
    have outcome : (first.writeFile mode ⟨start, upper ++ [name]⟩ content).1 =
        first.withFile place content := by
      rw [writeFile, ensured]
      simp only [replaced]
    rw [outcome] at growth
    have there : later.kindAt? place = some .file :=
      growth.kinds _ _ (by rw [kindAt?_withFile notFolder, if_pos rfl])
    have same : place = later.resolve ⟨start, upper ++ [name]⟩ := by
      rw [locate_eq_resolve firstPlaced, before.resolve]
    rw [← same]
    exact laterSound.isFile_iff.mp there
  · rwa [(failed succeeded).contents _ not_false] at written

end Tree

end Scaffold.Disk
