import Mathlib.Data.List.Induction
import Scaffold.Proofs.Disk.Growth
import Scaffold.Proofs.Keyed

/-!
# Listings and steady paths

A folder lists the names of what lies in it.  A path is steady in a tree when each of its double dots
leads back from a folder that is there; such a path leads to the same place in every later tree, as
soon as that place is there.
-/

namespace Scaffold.Disk

theorem stem_php {name : String} (nonempty : name ≠ "") : stem (name ++ ".php") = name := by
  have ending : (name ++ ".php").toList.reverse =
      'p' :: 'h' :: 'p' :: '.' :: name.toList.reverse := by
    simp [String.toList_append]
  obtain ⟨last, rest, shape⟩ := List.exists_cons_of_ne_nil
    (by simpa using nonempty : name.toList.reverse ≠ [])
  have extension : extension? (name ++ ".php") = some ['p', 'h', 'p'] := by
    rw [extension?, ending, shape]
    rfl
  rw [stem, extension]
  simp [String.toList_append]

namespace Tree

/-! ## Listings -/

theorem nameIn?_eq_some_iff {folder location : Location} {name : String} :
    nameIn? folder location = some name ↔ location = folder ++ [name] := by
  rw [nameIn?]
  rcases List.eq_nil_or_concat' location with rfl | ⟨above, last, rfl⟩
  · simp
  · rw [List.dropLast_concat, List.getLast?_concat]
    by_cases same : above = folder
    · simp [same]
    · simp [same]

theorem contentAt?_isSome_iff {tree : Tree} {location : Location} :
    (tree.contentAt? location).isSome = true ↔ ∃ file ∈ tree.files, file.1 = location := by
  simp [contentAt?, List.find?_isSome]

/-- A folder lists what lies in it. -/
theorem mem_names_iff {tree : Tree} {path : Path} {name : String} :
    name ∈ tree.names path ↔
      ∃ folder, tree.locate path = .ok folder ∧ tree.kindAt? (folder ++ [name]) ≠ none := by
  rw [names]
  split
  · simp [*]
  · rename_i folder located
    have listed : tree.kindAt? (folder ++ [name]) ≠ none ↔
        folder ++ [name] ∈ tree.folders ∨ (tree.contentAt? (folder ++ [name])).isSome = true := by
      rw [ne_eq, kindAt?_eq_none_iff, Option.isSome_iff_ne_none]
      simp only [ne_eq, List.append_eq_nil_iff, List.cons_ne_self, and_false, not_false_eq_true,
        true_and, not_and_or, not_not]
    simp only [located, Except.ok.injEq, exists_eq_left', mem_sortedTexts, List.mem_append,
      List.mem_filterMap, nameIn?_eq_some_iff, listed, contentAt?_isSome_iff, exists_eq_right]

theorem names_pairwise (tree : Tree) (path : Path) : (tree.names path).Pairwise (· ≤ ·) := by
  rw [names]
  split
  · exact .nil
  · exact sortedTexts_pairwise _

/-- What is no folder lists nothing. -/
theorem names_eq_nil
    {tree : Tree} (sound : tree.IsSound) {path : Path} (notFolder : tree.isFolder path = .ok false) :
    tree.names path = [] := by
  refine List.eq_nil_iff_forall_not_mem.mpr fun name listed => ?_
  obtain ⟨location, located, there⟩ := mem_names_iff.mp listed
  have folder :=
    isFolder_eq_true_iff.mpr ⟨location, located, sound.above location name there⟩
  rw [notFolder] at folder
  cases folder

theorem resolve_child (tree : Tree) (path : Path) {name : String} (plain : IsPlainName name) :
    tree.resolve (path.child name) = tree.resolve path ++ [name] := by
  rw [Path.child_plain plain, resolve, List.foldl_append, List.foldl_cons, List.foldl_nil,
    step_plain plain]
  rfl

theorem IsSound.above_append
    {tree : Tree} (sound : tree.IsSound) {location names : Location}
    (folder : tree.kindAt? (location ++ names) = some .folder) :
    tree.kindAt? location = some .folder := by
  by_contra notFolder
  by_cases none : names = []
  · rw [none, List.append_nil] at folder
    exact notFolder folder
  · rw [sound.kindAt?_append notFolder none] at folder
    cases folder

/-- Plain names lead down to what is there, unless one of them is too long. -/
theorem walk_down
    {tree : Tree} (sound : tree.IsSound) {location names : Location}
    (plain : ∀ name ∈ names, IsPlainName name) (there : tree.kindAt? (location ++ names) ≠ none) :
    tree.walk location names = .ok (location ++ names) ∨
      tree.walk location names = .error .nameTooLong := by
  induction names generalizing location with
  | nil => simp [walk]
  | cons name rest hypothesis =>
      have folder : tree.kindAt? location = some .folder := by
        by_contra notFolder
        exact there (sound.kindAt?_append notFolder (by simp))
      have whole : location ++ name :: rest = location ++ [name] ++ rest := by simp
      rw [walk, folder, step_plain (plain name (by simp))]
      dsimp only
      split_ifs
      · exact .inr rfl
      · rw [whole] at there ⊢
        exact hypothesis (fun other member => plain other (by simp [member])) there

/-- A folder below a folder that can be followed can be followed, unless the way is too long. -/
theorem isFolder_of_answer
    {tree : Tree} (sound : tree.IsSound) {path : Path} {names : Location}
    (above : tree.isFolder path = .ok true) (plain : ∀ name ∈ names, IsPlainName name)
    (zeroFree : ∀ name ∈ names, '\x00' ∉ name.toList)
    (folder : tree.kindAt? (tree.resolve path ++ names) = some .folder) {answer : Bool}
    (answered : tree.isFolder ⟨path.start, path.names ++ names⟩ = .ok answer) :
    tree.isFolder ⟨path.start, path.names ++ names⟩ = .ok true := by
  obtain ⟨place, located, _⟩ := isFolder_eq_true_iff.mp above
  obtain ⟨⟨noZero, _⟩, walked⟩ := locate_eq_ok_iff.mp located
  have stillNoZero : hasZero ⟨path.start, path.names ++ names⟩ = false := by
    rw [hasZero] at noZero ⊢
    rw [List.any_append, noZero, Bool.false_or, List.any_eq_false]
    exact fun name member => by simpa using zeroFree name member
  rw [← locate_eq_resolve located] at folder
  have outcome : tree.walk (tree.start path) (path.names ++ names) = .ok (place ++ names) ∨
      tree.walk (tree.start path) (path.names ++ names) = .error .nameTooLong := by
    rw [walk_append, walked]
    exact walk_down sound plain (by simp [folder])
  by_cases long : pathLimit < (⟨path.start, path.names ++ names⟩ : Path).text.utf8ByteSize
  · have tooLong : tree.locate ⟨path.start, path.names ++ names⟩ = .error .nameTooLong := by
      rw [locate, stillNoZero]
      simp [long]
    rw [isFolder, inspect, tooLong] at answered
    cases answered
  · have whole : tree.locate ⟨path.start, path.names ++ names⟩ =
        tree.walk (tree.start path) (path.names ++ names) := by
      rw [locate, stillNoZero]
      simp only [Bool.false_eq_true, if_false, if_neg long]
      rfl
    rcases outcome with found | tooLong
    · exact isFolder_eq_true_iff.mpr ⟨place ++ names, whole.trans found, folder⟩
    · rw [isFolder, inspect, whole, tooLong] at answered
      cases answered

/-! ## Steady paths -/

/-- Every double dot of a path leads back from a folder that is there. -/
def IsSteady (tree : Tree) (path : Path) : Prop :=
  ∀ upper lower, path.names = upper ++ ".." :: lower →
    tree.kindAt? (tree.resolve ⟨path.start, upper⟩) = some .folder

theorem IsSteady.of_not_mem {tree : Tree} {path : Path} (none : ".." ∉ path.names) :
    tree.IsSteady path := by
  intro upper lower shape
  exact absurd (by rw [shape]; simp) none

theorem IsSteady.upper
    {tree : Tree} {start : PathStart} {upper lower : List String}
    (steady : tree.IsSteady ⟨start, upper ++ lower⟩) :
    tree.IsSteady ⟨start, upper⟩ := by
  intro before behind shape
  refine steady before (behind ++ lower) ?_
  dsimp only at shape ⊢
  rw [shape, List.append_assoc, List.cons_append]

/-- Plain names go on steadily. -/
theorem IsSteady.append
    {tree : Tree} {start : PathStart} {upper lower : List String}
    (steady : tree.IsSteady ⟨start, upper⟩) (plain : ".." ∉ lower) :
    tree.IsSteady ⟨start, upper ++ lower⟩ := by
  intro before behind shape
  rcases List.append_eq_append_iff.mp shape with ⟨more, whole, rest⟩ | ⟨more, whole, rest⟩
  · exact absurd (by rw [rest]; simp) plain
  · cases more with
    | nil => exact absurd (by rw [← List.nil_append lower, ← rest]; simp) plain
    | cons name more =>
        rw [List.cons_append] at rest
        rw [← (List.cons.inj rest).1] at whole
        exact steady before more whole

theorem IsSteady.child
    {tree : Tree} {path : Path} (steady : tree.IsSteady path) {name : String}
    (plain : IsPlainName name) :
    tree.IsSteady (path.child name) := by
  rw [Path.child_plain plain]
  exact IsSteady.append steady (by simpa using Ne.symm plain.notParent)

theorem walk_of_isSteady
    {earlier later : Tree} (sound : earlier.IsSound) {start : PathStart} {names : List String}
    (steady : earlier.IsSteady ⟨start, names⟩) {found : Location}
    (walked : later.walk (earlier.start ⟨start, names⟩) names = .ok found)
    (there : earlier.kindAt? found ≠ none) :
    earlier.walk (earlier.start ⟨start, names⟩) names = .ok found := by
  induction names using List.reverseRecOn generalizing found with
  | nil => exact walked
  | append_singleton upper name hypothesis =>
      obtain ⟨middle, upperWalked, upperFolder, last⟩ := walk_upper walked (by simp)
      have place : found = step middle name := walk_eq_foldl last
      have folder : earlier.kindAt? middle = some .folder := by
        by_cases parent : name = ".."
        · have resolved : middle = earlier.resolve ⟨start, upper⟩ := walk_eq_foldl upperWalked
          rw [resolved]
          exact steady upper [] (by rw [parent])
        · have notParent : (name == "..") = false := by simpa using parent
          rw [place, step, notParent] at there
          exact sound.above middle name there
      have upperThere := hypothesis steady.upper upperWalked (by simp [folder])
      simp only [walk, upperFolder] at last
      rw [walk_append]
      change (earlier.walk (earlier.start ⟨start, upper⟩) upper).bind _ = _
      rw [upperThere]
      simp only [Except.bind, walk, folder]
      exact last

namespace Extends

variable {earlier later : Tree}

/-- A path that is steady stays so. -/
theorem isSteady
    (growth : Extends earlier later) {path : Path} (steady : earlier.IsSteady path) :
    later.IsSteady path := by
  intro upper lower shape
  rw [growth.resolve]
  exact growth.kinds _ _ (steady upper lower shape)

/-- A steady path led to a place already when the place was there. -/
theorem locate_of_isSteady
    (growth : Extends earlier later) (sound : earlier.IsSound) {path : Path}
    (steady : earlier.IsSteady path) {found : Location} (located : later.locate path = .ok found)
    (there : earlier.kindAt? found ≠ none) :
    earlier.locate path = .ok found := by
  obtain ⟨accessible, walked⟩ := locate_eq_ok_iff.mp located
  rw [growth.start] at walked
  exact locate_eq_ok_iff.mpr ⟨accessible, walk_of_isSteady sound steady walked there⟩

theorem isFolder_of_isSteady
    (growth : Extends earlier later) (sound : earlier.IsSound) {path : Path}
    (steady : earlier.IsSteady path) (folder : later.isFolder path = .ok true)
    (there : earlier.kindAt? (later.resolve path) = some .folder) :
    earlier.isFolder path = .ok true := by
  obtain ⟨found, located, _⟩ := isFolder_eq_true_iff.mp folder
  rw [← locate_eq_resolve located] at there
  exact isFolder_eq_true_iff.mpr
    ⟨found, growth.locate_of_isSteady sound steady located (by simp [there]), there⟩

theorem isFile_of_isSteady
    (growth : Extends earlier later) (sound : earlier.IsSound) {path : Path}
    (steady : earlier.IsSteady path) (file : later.isFile path = .ok true)
    (there : (earlier.contentAt? (later.resolve path)).isSome = true) :
    earlier.isFile path = .ok true := by
  obtain ⟨found, located, _⟩ := isFile_eq_true_iff.mp file
  rw [← locate_eq_resolve located, ← sound.isFile_iff] at there
  exact isFile_eq_true_iff.mpr
    ⟨found, growth.locate_of_isSteady sound steady located (by simp [there]), there⟩

/-- A name in a steady folder was there already, or it is new. -/
theorem mem_names_or_new
    (growth : Extends earlier later) (sound : earlier.IsSound) {path : Path}
    (steady : earlier.IsSteady path) {name : String} (listed : name ∈ later.names path) :
    name ∈ earlier.names path ∨
      later.kindAt? (later.resolve path ++ [name]) ≠ none ∧
        earlier.kindAt? (later.resolve path ++ [name]) = none := by
  obtain ⟨folder, located, there⟩ := mem_names_iff.mp listed
  obtain rfl := locate_eq_resolve located
  by_cases new : earlier.kindAt? (later.resolve path ++ [name]) = none
  · exact .inr ⟨there, new⟩
  · have folderThere := sound.above _ name new
    have earlierLocated := growth.locate_of_isSteady sound steady located (by simp [folderThere])
    exact .inl (mem_names_iff.mpr ⟨_, earlierLocated, new⟩)

theorem names_subset (growth : Extends earlier later) (path : Path) :
    earlier.names path ⊆ later.names path := by
  intro name listed
  obtain ⟨folder, located, there⟩ := mem_names_iff.mp listed
  obtain ⟨kind, found⟩ := Option.ne_none_iff_exists'.mp there
  refine mem_names_iff.mpr ⟨folder, growth.locate located, ?_⟩
  rw [growth.kinds _ kind found]
  simp

theorem walk_error
    (growth : Extends earlier later) {location : Location} {names : List String}
    (walked : earlier.walk location names = .error .nameTooLong) :
    later.walk location names = .error .nameTooLong := by
  induction names generalizing location with
  | nil => cases walked
  | cons name rest hypothesis =>
      rw [Tree.walk] at walked ⊢
      cases kind : earlier.kindAt? location with
      | none => simp [kind] at walked
      | some found =>
          rw [growth.kinds _ _ kind]
          cases found with
          | file => simp [kind] at walked
          | folder =>
              simp only [kind] at walked ⊢
              split_ifs at walked ⊢
              · rfl
              · exact hypothesis walked

theorem inspect_error
    (growth : Extends earlier later) {path : Path} {error : DiskError}
    (inspected : earlier.inspect path = .error error) :
    error = .nameTooLong ∧ later.inspect path = .error .nameTooLong := by
  have located : error = .nameTooLong ∧ earlier.locate path = .error .nameTooLong := by
    rw [Tree.inspect] at inspected
    split at inspected
    · cases inspected
    · rename_i tooLong
      cases inspected
      exact ⟨rfl, tooLong⟩
    · cases inspected
  refine ⟨located.1, ?_⟩
  have laterLocated : later.locate path = .error .nameTooLong := by
    have before := located.2
    rw [Tree.locate] at before ⊢
    split_ifs at before ⊢
    · cases before
    · rfl
    · rw [growth.start]
      exact growth.walk_error before
  rw [Tree.inspect, laterLocated]

/-- Whether a steady path leads to a file does not change with the content there. -/
theorem isFile_eq_of_isSteady
    (growth : Extends earlier later) (sound : earlier.IsSound) (laterSound : later.IsSound)
    {path : Path} (steady : earlier.IsSteady path)
    (same : later.contentAt? (later.resolve path) = earlier.contentAt? (later.resolve path)) :
    later.isFile path = .error .nameTooLong ∨ later.isFile path = earlier.isFile path := by
  cases answer : later.isFile path with
  | error error =>
      refine .inl ?_
      cases inspected : later.inspect path with
      | ok found => simp [Tree.isFile, inspected, Except.map] at answer
      | error other =>
          obtain ⟨rfl, _⟩ := (Extends.refl later).inspect_error inspected
          simpa [Tree.isFile, inspected, Except.map] using answer.symm
  | ok found =>
      refine .inr ?_
      cases found with
      | true =>
          obtain ⟨place, located, kind⟩ := isFile_eq_true_iff.mp answer
          rw [locate_eq_resolve located] at kind
          refine (growth.isFile_of_isSteady sound steady answer ?_).symm
          rw [← same]
          exact laterSound.isFile_iff.mp kind
      | false =>
          cases before : earlier.isFile path with
          | ok wasFile =>
              cases wasFile with
              | false => rfl
              | true =>
                  rw [growth.isFile before] at answer
                  cases answer
          | error error =>
              cases inspected : earlier.inspect path with
              | ok found => simp [Tree.isFile, inspected, Except.map] at before
              | error other =>
                  rw [Tree.isFile, (growth.inspect_error inspected).2] at answer
                  cases answer

theorem readText_eq_of_isFile
    (growth : Extends earlier later) (sound : earlier.IsSound) {path : Path}
    (file : earlier.isFile path = .ok true)
    (same : later.contentAt? (later.resolve path) = earlier.contentAt? (later.resolve path)) :
    later.readText path = earlier.readText path := by
  obtain ⟨place, located, kind⟩ := isFile_eq_true_iff.mp file
  have content := sound.isFile_iff.mp kind
  rw [growth.resolve, ← locate_eq_resolve located] at same
  obtain ⟨value, found⟩ := Option.isSome_iff_exists.mp content
  simp only [Tree.readText, located, growth.locate located, same, found]
  cases value <;> rfl

/-- The first file of steady paths is the same, unless a name is too long. -/
theorem firstFile?_eq_of_isSteady
    (growth : Extends earlier later) (sound : earlier.IsSound) (laterSound : later.IsSound)
    {paths : List Path} (steady : ∀ path ∈ paths, earlier.IsSteady path)
    (same : ∀ path ∈ paths,
      later.contentAt? (later.resolve path) = earlier.contentAt? (later.resolve path)) :
    later.firstFile? paths = .error .nameTooLong ∨
      later.firstFile? paths = earlier.firstFile? paths := by
  induction paths with
  | nil => exact .inr rfl
  | cons path rest hypothesis =>
      have others := hypothesis (fun other member => steady other (by simp [member]))
        fun other member => same other (by simp [member])
      rw [Tree.firstFile?, Tree.firstFile?]
      rcases growth.isFile_eq_of_isSteady sound laterSound (steady path (by simp))
        (same path (by simp)) with tooLong | equal
      · rw [tooLong]
        exact .inl rfl
      · rw [equal]
        cases earlier.isFile path with
        | error error => exact .inr rfl
        | ok found =>
            cases found with
            | true => exact .inr rfl
            | false => exact others

end Extends

theorem isFile_of_firstFile?
    {tree : Tree} {paths : List Path} {path : Path} (found : tree.firstFile? paths = .ok (some path)) :
    path ∈ paths ∧ tree.isFile path = .ok true := by
  induction paths with
  | nil => cases found
  | cons first rest hypothesis =>
      rw [firstFile?] at found
      cases answer : tree.isFile first with
      | error error =>
          rw [answer] at found
          cases found
      | ok isFile =>
          rw [answer] at found
          cases isFile with
          | true =>
              cases found
              exact ⟨List.mem_cons_self, answer⟩
          | false =>
              obtain ⟨member, isFile⟩ := hypothesis found
              exact ⟨List.mem_cons_of_mem _ member, isFile⟩

end Tree

end Scaffold.Disk
