import Mathlib.Data.List.Basic
import Mathlib.Tactic.SplitIfs
import Scaffold.Disk.Write

/-!
# What lies at a location

A path that can be followed leads to where its names alone say.  Names that a file system accepts
are plain: they are not empty, have no slash and are no dots.
-/

namespace Scaffold.Disk

/-- A name that a folder can list. -/
structure IsPlainName (name : String) : Prop where
  nonempty : name ≠ ""
  slashFree : '/' ∉ name.toList
  notHere : name ≠ "."
  notParent : name ≠ ".."

instance (name : String) : Decidable (IsPlainName name) :=
  decidable_of_iff (name ≠ "" ∧ '/' ∉ name.toList ∧ name ≠ "." ∧ name ≠ "..")
    ⟨fun ⟨nonempty, slashFree, notHere, notParent⟩ => ⟨nonempty, slashFree, notHere, notParent⟩,
      fun plain => ⟨plain.nonempty, plain.slashFree, plain.notHere, plain.notParent⟩⟩

/-! ## Reading paths -/

namespace Path

theorem splitSlash_of_slashFree {text : List Char} (slashFree : '/' ∉ text) :
    splitSlash text = [text] := by
  induction text with
  | nil => rfl
  | cons c rest hypothesis =>
      rw [List.mem_cons, not_or] at slashFree
      have notSlash : (c == '/') = false := by simpa using Ne.symm slashFree.1
      simp [splitSlash, hypothesis slashFree.2, notSlash]

theorem splitSlash_ne_nil (text : List Char) : splitSlash text ≠ [] := by
  cases text with
  | nil => simp [splitSlash]
  | cons c rest =>
      rw [splitSlash]
      split
      · simp
      · split <;> simp

/-- A slash separates the parts of a text. -/
theorem splitSlash_append (before behind : List Char) :
    splitSlash (before ++ '/' :: behind) = splitSlash before ++ splitSlash behind := by
  induction before with
  | nil =>
      obtain ⟨part, parts, shape⟩ := List.exists_cons_of_ne_nil (splitSlash_ne_nil behind)
      simp [splitSlash, shape]
  | cons c rest hypothesis =>
      obtain ⟨part, parts, shape⟩ := List.exists_cons_of_ne_nil (splitSlash_ne_nil rest)
      rw [shape] at hypothesis
      rw [List.cons_append, splitSlash, hypothesis]
      rw [splitSlash, shape, List.cons_append]
      dsimp only
      split_ifs <;> rfl

/-- The names of a text. -/
def namesOf (text : List Char) : List String :=
  ((splitSlash text).filter fun part => !part.isEmpty && part != ['.']).map String.ofList

theorem names_ofText (text : String) : (ofText text).names = namesOf text.toList :=
  rfl

theorem namesOf_append (before behind : List Char) :
    namesOf (before ++ '/' :: behind) = namesOf before ++ namesOf behind := by
  simp [namesOf, splitSlash_append]

theorem namesOf_plain {name : String} (plain : IsPlainName name) : namesOf name.toList = [name] := by
  have nonempty : name.toList ≠ [] := by simpa using plain.nonempty
  have notHere : name.toList ≠ ['.'] := fun same => plain.notHere (String.toList_inj.mp same)
  simp [namesOf, splitSlash_of_slashFree plain.slashFree, nonempty, notHere]

/-- A text that does not start with a slash is a path from here. -/
theorem start_ofText {text : String} (relative : text.toList.head? ≠ some '/') :
    (ofText text).start = .here := by
  rw [ofText]
  generalize text.toList = characters at relative
  match characters, relative with
  | [], _ => rfl
  | c :: rest, relative =>
      have notSlash : c ≠ '/' := by simpa using relative
      simp only [PathStart.ofText]
      split <;> simp_all

/-- Going on from a path by a text. -/
theorem child_eq
    {text : String} (relative : text.toList.head? ≠ some '/') (path : Path) :
    path.child text = ⟨path.start, path.names ++ namesOf text.toList⟩ := by
  simp [child, join, isAbsolute, start_ofText relative, names_ofText]

theorem child_plain {name : String} (plain : IsPlainName name) (path : Path) :
    path.child name = ⟨path.start, path.names ++ [name]⟩ := by
  rw [child_eq, namesOf_plain plain]
  intro slash
  exact plain.slashFree (List.mem_of_mem_head? slash)

end Path

/-! ## Kinds -/

namespace Tree

theorem kindAt?_eq_folder_iff {tree : Tree} {location : Location} :
    tree.kindAt? location = some .folder ↔ location = [] ∨ location ∈ tree.folders := by
  rw [kindAt?]
  split_ifs with isFolder isFile
  · simpa using isFolder
  · simpa using isFolder
  · simpa using isFolder

theorem kindAt?_eq_file_iff {tree : Tree} {location : Location} :
    tree.kindAt? location = some .file ↔
      (location ≠ [] ∧ location ∉ tree.folders) ∧ (tree.contentAt? location).isSome = true := by
  rw [kindAt?]
  split_ifs with isFolder isFile
  · refine ⟨nofun, ?_⟩
    rintro ⟨⟨notRoot, notListed⟩, _⟩
    simp [notRoot, notListed] at isFolder
  · simpa [isFile] using isFolder
  · simp [isFile]

theorem kindAt?_eq_none_iff {tree : Tree} {location : Location} :
    tree.kindAt? location = none ↔
      (location ≠ [] ∧ location ∉ tree.folders) ∧ tree.contentAt? location = none := by
  rw [kindAt?]
  split_ifs with isFolder isFile
  · refine ⟨nofun, ?_⟩
    rintro ⟨⟨notRoot, notListed⟩, _⟩
    simp [notRoot, notListed] at isFolder
  · refine ⟨nofun, ?_⟩
    rintro ⟨_, absent⟩
    simp [absent] at isFile
  · simpa [Option.not_isSome_iff_eq_none.mp isFile] using isFolder

/-! ## Following names -/

theorem walk_append (tree : Tree) (location : Location) (upper lower : List String) :
    tree.walk location (upper ++ lower) =
      (tree.walk location upper).bind fun middle => tree.walk middle lower := by
  induction upper generalizing location with
  | nil => rfl
  | cons name rest hypothesis =>
      simp only [List.cons_append, walk]
      split
      · split_ifs
        · rfl
        · exact hypothesis _
      · rfl
      · rfl

/-- Names that can be followed lead to where they say. -/
theorem walk_eq_foldl
    {tree : Tree} {location found : Location} {names : List String}
    (walked : tree.walk location names = .ok found) :
    found = names.foldl step location := by
  induction names generalizing location with
  | nil =>
      cases walked
      rfl
  | cons name rest hypothesis =>
      rw [walk] at walked
      split at walked
      · split_ifs at walked
        exact hypothesis walked
      · cases walked
      · cases walked

/-- The first of several names that can be followed lead to a folder. -/
theorem walk_upper
    {tree : Tree} {location found : Location} {upper lower : List String}
    (walked : tree.walk location (upper ++ lower) = .ok found) (more : lower ≠ []) :
    ∃ middle, tree.walk location upper = .ok middle ∧ tree.kindAt? middle = some .folder ∧
      tree.walk middle lower = .ok found := by
  rw [walk_append] at walked
  cases first : tree.walk location upper with
  | error error =>
      rw [first] at walked
      cases walked
  | ok middle =>
      rw [first] at walked
      refine ⟨middle, rfl, ?_, walked⟩
      obtain ⟨name, rest, rfl⟩ := List.exists_cons_of_ne_nil more
      simp only [Except.bind, walk] at walked
      split at walked
      · assumption
      · cases walked
      · cases walked

/-- A path is one that can be looked up at all. -/
def Accessible (path : Path) : Prop :=
  hasZero path = false ∧ path.text.utf8ByteSize ≤ pathLimit

theorem locate_eq_ok_iff {tree : Tree} {path : Path} {found : Location} :
    tree.locate path = .ok found ↔
      Accessible path ∧ tree.walk (tree.start path) path.names = .ok found := by
  rw [locate, Accessible]
  split_ifs with zero long
  · simp [zero]
  · simp only [false_iff]
    omega
  · simp [zero, Nat.le_of_not_lt long]

theorem utf8ByteSize_text_le_of_more (start : PathStart) {upper lower : List String}
    (some : upper ≠ []) (more : lower ≠ []) :
    (Path.text ⟨start, upper⟩).utf8ByteSize ≤ (Path.text ⟨start, upper ++ lower⟩).utf8ByteSize := by
  rw [Path.text, Path.text, if_neg (by simp [some]), if_neg (by simp [some]),
    String.intercalate_append_of_ne_nil some more]
  simp only [String.utf8ByteSize_append]
  omega

/-- The first names of a path that can be looked up can be looked up as well. -/
theorem Accessible.upper
    {start : PathStart} {upper lower : List String}
    (accessible : Accessible ⟨start, upper ++ lower⟩) (more : lower ≠ []) :
    Accessible ⟨start, upper⟩ := by
  obtain ⟨noZero, short⟩ := accessible
  rw [hasZero, List.any_append, Bool.or_eq_false_iff] at noZero
  refine ⟨noZero.1, ?_⟩
  rcases eq_or_ne upper [] with rfl | some
  · cases start <;> decide +kernel
  · exact Nat.le_trans (utf8ByteSize_text_le_of_more start some more) short

/-- A path that can be followed leads to where its names say. -/
theorem locate_eq_resolve
    {tree : Tree} {path : Path} {found : Location} (located : tree.locate path = .ok found) :
    found = tree.resolve path := by
  rw [locate] at located
  split_ifs at located
  exact walk_eq_foldl located

/-- The last name of a path that can be followed is a step from a folder. -/
theorem walk_concat
    {tree : Tree} {location found : Location} {names : List String} {name : String}
    (walked : tree.walk location (names ++ [name]) = .ok found) :
    ∃ above, tree.walk location names = .ok above ∧ tree.kindAt? above = some .folder ∧
      found = step above name := by
  obtain ⟨above, first, folder, last⟩ := walk_upper walked (by simp)
  exact ⟨above, first, folder, walk_eq_foldl last⟩

theorem isFolder_eq_true_iff {tree : Tree} {path : Path} :
    tree.isFolder path = .ok true ↔
      ∃ location, tree.locate path = .ok location ∧ tree.kindAt? location = some .folder := by
  rw [isFolder, inspect]
  split
  · simp [Except.map, *]
  · simp [Except.map, *]
  · simp [Except.map, *]

theorem isFile_eq_true_iff {tree : Tree} {path : Path} :
    tree.isFile path = .ok true ↔
      ∃ location, tree.locate path = .ok location ∧ tree.kindAt? location = some .file := by
  rw [isFile, inspect]
  split
  · simp [Except.map, *]
  · simp [Except.map, *]
  · simp [Except.map, *]

end Tree

end Scaffold.Disk
