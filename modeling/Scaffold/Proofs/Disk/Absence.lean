import Scaffold.Proofs.Disk.Writing

/-!
# What a new folder lacks

Making a folder on a steady path makes nothing below it.  So what lies below the path afterwards lay
there before, and a path whose names are short enough gives an answer in every tree.
-/

namespace Scaffold.Disk.Tree

/-! ## Below a steady path -/

/-- The first names of a steady path lead to a folder that is there, or on the way to its end. -/
theorem IsSteady.resolve_upper
    {tree : Tree} (sound : tree.IsSound) {start : PathStart} {upper lower : List String}
    (steady : tree.IsSteady ⟨start, upper ++ lower⟩) :
    tree.kindAt? (tree.resolve ⟨start, upper⟩) = some .folder ∨
      tree.resolve ⟨start, upper⟩ <+: tree.resolve ⟨start, upper ++ lower⟩ := by
  -- A double dot at the end leads back from a folder, and all places above that are folders.
  induction lower using List.reverseRecOn with
  | nil => exact .inr (by rw [List.append_nil])
  | append_singleton more name hypothesis =>
      rw [← List.append_assoc] at steady ⊢
      rcases hypothesis steady.upper with folder | before
      · exact .inl folder
      · have last : tree.resolve ⟨start, upper ++ more ++ [name]⟩ =
            step (tree.resolve ⟨start, upper ++ more⟩) name := by
          rw [resolve, List.foldl_append]
          rfl
        by_cases parent : name = ".."
        · obtain ⟨rest, whole⟩ := before
          have folder := steady (upper ++ more) [] (by rw [parent])
          rw [← whole] at folder
          exact .inl (sound.above_append folder)
        · right
          have notParent : (name == "..") = false := by simpa using parent
          rw [last, step, notParent]
          exact before.trans (List.prefix_append _ _)

/-- A path passes a place below its end only where a folder is. -/
theorem IsSteady.kindAt?_of_passes
    {tree : Tree} (sound : tree.IsSound) {path : Path} (steady : tree.IsSteady path)
    {names : Location} (below : names ≠ [])
    (passed : tree.Passes path (tree.resolve path ++ names)) :
    tree.kindAt? (tree.resolve path ++ names) = some .folder := by
  obtain ⟨upper, ⟨lower, whole⟩, place⟩ := passed
  obtain ⟨start, all⟩ := path
  obtain rfl : upper ++ lower = all := whole
  rw [place]
  rcases steady.resolve_upper sound with folder | before
  · exact folder
  · rw [← place] at before
    have shorter := before.length_le
    rw [List.length_append] at shorter
    exact absurd (List.length_eq_zero_iff.mp (by omega)) below

/-- Below the path of a folder that was not there, no folder is made on the way to it. -/
theorem Grows.not_isFolder_below
    {earlier later : Tree} {written : Location → Prop} {path : Path}
    (growth : Grows written (earlier.Passes path) earlier later) (sound : earlier.IsSound)
    (steady : earlier.IsSteady path) (absent : earlier.isFolder path ≠ .ok true)
    {names : Location} (plain : ∀ name ∈ names, IsPlainName name) (below : names ≠ []) :
    later.isFolder ⟨path.start, path.names ++ names⟩ ≠ .ok true := by
  intro there
  have place : later.resolve ⟨path.start, path.names ++ names⟩ = earlier.resolve path ++ names := by
    rw [growth.resolve, resolve, List.foldl_append, foldl_step plain]
    rfl
  have steadyBelow : earlier.IsSteady ⟨path.start, path.names ++ names⟩ :=
    IsSteady.append steady fun member => (plain ".." member).notParent rfl
  have early : earlier.kindAt? (earlier.resolve path ++ names) = some .folder := by
    obtain ⟨found, located, folder⟩ := isFolder_eq_true_iff.mp there
    rw [locate_eq_resolve located, place] at folder
    exact (growth.folders _ folder).elim id (steady.kindAt?_of_passes sound below)
  rw [← place] at early
  obtain ⟨found, located, _⟩ :=
    isFolder_eq_true_iff.mp (growth.isFolder_of_isSteady sound steadyBelow there early)
  exact absent (isFolder_of_locate located below)

/-! ## Paths that are short enough -/

/-- The same names are followed by shorter ones in a shorter path. -/
theorem utf8ByteSize_text_le_of_le
    (start : PathStart) (upper : List String) {lower other : List String}
    (more : lower ≠ []) (otherMore : other ≠ [])
    (shorter : ("/".intercalate lower).utf8ByteSize ≤ ("/".intercalate other).utf8ByteSize) :
    (Path.text ⟨start, upper ++ lower⟩).utf8ByteSize ≤
      (Path.text ⟨start, upper ++ other⟩).utf8ByteSize := by
  rw [Path.text, Path.text, if_neg (by simp [more]), if_neg (by simp [otherMore])]
  rcases eq_or_ne upper [] with rfl | some
  · simp only [List.nil_append, String.utf8ByteSize_append]
    omega
  · rw [String.intercalate_append_of_ne_nil some more,
      String.intercalate_append_of_ne_nil some otherMore]
    simp only [String.utf8ByteSize_append]
    omega

/-- The first names of a path are short enough when the whole path is. -/
theorem utf8ByteSize_text_upper_le
    (start : PathStart) {upper lower : List String} (more : lower ≠ [])
    (short : (Path.text ⟨start, upper ++ lower⟩).utf8ByteSize ≤ pathLimit) :
    (Path.text ⟨start, upper⟩).utf8ByteSize ≤ pathLimit := by
  rcases eq_or_ne upper [] with rfl | some
  · cases start <;> decide +kernel
  · exact (utf8ByteSize_text_le_of_more start some more).trans short

/-- A path gives an answer when neither its names nor its text are too long. -/
theorem exists_inspect
    (tree : Tree) {path : Path} (names : ∀ name ∈ path.names, name.utf8ByteSize ≤ nameLimit)
    (text : path.text.utf8ByteSize ≤ pathLimit) :
    ∃ found, tree.inspect path = .ok found := by
  have answered : tree.locate path ≠ .error .nameTooLong := by
    rw [locate]
    split_ifs with zero long
    · simp
    · omega
    · exact walk_ne_nameTooLong names
  rw [inspect]
  split
  · exact ⟨_, rfl⟩
  · rename_i tooLong
    exact absurd tooLong answered
  · exact ⟨none, rfl⟩

theorem exists_isFolder
    (tree : Tree) {path : Path} (names : ∀ name ∈ path.names, name.utf8ByteSize ≤ nameLimit)
    (text : path.text.utf8ByteSize ≤ pathLimit) :
    ∃ found, tree.isFolder path = .ok found := by
  obtain ⟨kind, inspected⟩ := tree.exists_inspect names text
  exact ⟨_, by rw [isFolder, inspected]; rfl⟩

theorem exists_isFile
    (tree : Tree) {path : Path} (names : ∀ name ∈ path.names, name.utf8ByteSize ≤ nameLimit)
    (text : path.text.utf8ByteSize ≤ pathLimit) :
    ∃ found, tree.isFile path = .ok found := by
  obtain ⟨kind, inspected⟩ := tree.exists_inspect names text
  exact ⟨_, by rw [isFile, inspected]; rfl⟩

/-! ## Writing that fails -/

/-- A path passes the same places in a tree that grew. -/
theorem Extends.passes {earlier later : Tree} (growth : Extends earlier later) (path : Path) :
    later.Passes path = earlier.Passes path := by
  funext location
  simp only [Tree.Passes, growth.resolve]

/-- Writing that fails in a folder that is there changes nothing. -/
theorem writeFile_of_parent
    {tree : Tree} {mode : WriteMode} {path : Path} {content : Content}
    (parent : tree.isFolder path.parent = .ok true)
    (failed : (tree.writeFile mode path content).2 ≠ none) :
    (tree.writeFile mode path content).1 = tree := by
  rw [writeFile, ensureFolder_of_isFolder parent] at failed ⊢
  dsimp only at failed ⊢
  split at failed
  · exact absurd rfl failed
  · rfl

end Scaffold.Disk.Tree
