import Mathlib.Data.List.Infix
import Scaffold.Proofs.Disk.Listing

/-!
# When a file can be written

A location given by plain names from the root is reached unless a name is too long or has the
character with the code zero, or a file stands where a folder is needed.  What lies at the location
itself decides only whether a file can be written there.
-/

namespace Scaffold.Disk.Tree

/-- A location can be looked up, as far as its names go. -/
structure Fits (location : Location) : Prop where
  accessible : Accessible (.ofRoot location)
  names : ∀ name ∈ location, name.utf8ByteSize ≤ nameLimit

/-- No file stands at a location or above it. -/
def IsOpen (tree : Tree) (location : Location) : Prop :=
  ∀ upper ∈ location.inits, tree.kindAt? upper ≠ some .file

/-- A file can be written at a location. -/
structure CanWrite (tree : Tree) (mode : WriteMode) (location : Location) : Prop where
  fits : Fits location
  accepts : Accepts mode (.ofRoot location)
  above : tree.IsOpen location.dropLast
  notFolder : tree.kindAt? location ≠ some .folder

instance (path : Path) : Decidable (Accessible path) :=
  inferInstanceAs (Decidable (_ ∧ _))

instance (location : Location) : Decidable (Fits location) :=
  decidable_of_iff
    (Accessible (.ofRoot location) ∧ ∀ name ∈ location, name.utf8ByteSize ≤ nameLimit)
    ⟨fun ⟨accessible, names⟩ => ⟨accessible, names⟩, fun fits => ⟨fits.accessible, fits.names⟩⟩

instance (tree : Tree) (location : Location) : Decidable (tree.IsOpen location) :=
  inferInstanceAs (Decidable (∀ upper ∈ location.inits, tree.kindAt? upper ≠ some .file))

instance (mode : WriteMode) (path : Path) : Decidable (Accepts mode path) :=
  inferInstanceAs (Decidable (_ → _))

instance (tree : Tree) (mode : WriteMode) (location : Location) :
    Decidable (tree.CanWrite mode location) :=
  decidable_of_iff
    (Fits location ∧ Accepts mode (.ofRoot location) ∧ tree.IsOpen location.dropLast ∧
      tree.kindAt? location ≠ some .folder)
    ⟨fun ⟨fits, accepts, above, notFolder⟩ => ⟨fits, accepts, above, notFolder⟩,
      fun can => ⟨can.fits, can.accepts, can.above, can.notFolder⟩⟩

theorem isOpen_iff {tree : Tree} {location : Location} :
    tree.IsOpen location ↔ ∀ upper, upper <+: location → tree.kindAt? upper ≠ some .file := by
  simp only [IsOpen, List.mem_inits]

theorem IsOpen.upper
    {tree : Tree} {location upper : Location} (isOpen : tree.IsOpen location)
    (before : upper <+: location) :
    tree.IsOpen upper := by
  rw [isOpen_iff] at isOpen ⊢
  intro first above
  exact isOpen first (above.trans before)

theorem isOpen_congr
    {tree other : Tree} {location : Location}
    (same : ∀ upper, upper <+: location →
      (other.kindAt? upper = some .file ↔ tree.kindAt? upper = some .file)) :
    other.IsOpen location ↔ tree.IsOpen location := by
  rw [isOpen_iff, isOpen_iff]
  exact forall₂_congr fun upper before => not_congr (same upper before)

theorem Fits.upper
    {location upper : Location} (fits : Fits location) (before : upper <+: location) :
    Fits upper := by
  obtain ⟨lower, rfl⟩ := before
  constructor
  · by_cases none : lower = []
    · rw [none, List.append_nil] at fits
      exact fits.accessible
    · exact fits.accessible.upper none
  · intro name member
    exact fits.names name (List.mem_append_left lower member)

/-- Where nothing is written, nothing becomes a file. -/
theorem Grows.kindAt?_eq_file_iff
    {written made : Location → Prop} {earlier later : Tree}
    (growth : Grows written made earlier later) (sound : earlier.IsSound) {location : Location}
    (outside : ¬ written location) :
    later.kindAt? location = some .file ↔ earlier.kindAt? location = some .file := by
  rw [(growth.sound sound).isFile_iff, sound.isFile_iff, growth.contents location outside]

/-! ## Looking up -/

/-- Names that are followed are not too long. -/
theorem names_le_of_walk
    {tree : Tree} {location found : Location} {names : List String}
    (walked : tree.walk location names = .ok found) :
    ∀ name ∈ names, name.utf8ByteSize ≤ nameLimit := by
  induction names generalizing location with
  | nil => simp
  | cons name rest hypothesis =>
      rw [walk] at walked
      split at walked
      · split_ifs at walked with long
        rw [List.forall_mem_cons]
        exact ⟨Nat.le_of_not_lt long, hypothesis walked⟩
      · cases walked
      · cases walked

/-- Names that fit are followed unless a folder is missing on the way. -/
theorem walk_of_fits
    {tree : Tree} {location : Location} {names : List String}
    (plain : ∀ name ∈ names, IsPlainName name)
    (short : ∀ name ∈ names, name.utf8ByteSize ≤ nameLimit)
    (isOpen : ∀ upper, upper <+: names.dropLast → tree.kindAt? (location ++ upper) ≠ some .file) :
    tree.walk location names = .ok (location ++ names) ∨
      tree.walk location names = .error .missing ∧
        ∃ upper, upper <+: names.dropLast ∧ tree.kindAt? (location ++ upper) = none := by
  induction names generalizing location with
  | nil => simp [walk]
  | cons name rest hypothesis =>
      have here := isOpen [] List.nil_prefix
      rw [List.append_nil] at here
      rw [walk]
      cases kind : tree.kindAt? location with
      | none =>
          right
          exact ⟨rfl, [], List.nil_prefix, by rw [List.append_nil, kind]⟩
      | some found =>
          cases found with
          | file => exact absurd kind here
          | folder =>
              dsimp only
              rw [if_neg (Nat.not_lt.mpr (short name (by simp))), step_plain (plain name (by simp))]
              rcases rest with _ | ⟨other, others⟩
              · exact .inl rfl
              · have shift (names : List String) :
                    location ++ [name] ++ names = location ++ name :: names := by simp
                have openRest : ∀ upper, upper <+: (other :: others).dropLast →
                    tree.kindAt? (location ++ [name] ++ upper) ≠ some .file := by
                  intro upper before
                  rw [shift]
                  exact isOpen _ (List.cons_prefix_cons.mpr ⟨rfl, before⟩)
                have later := hypothesis
                  (fun last member => plain last (List.mem_cons_of_mem _ member))
                  (fun last member => short last (List.mem_cons_of_mem _ member)) openRest
                simp only [shift] at later
                refine later.imp_right ?_
                · rintro ⟨missing, upper, before, absent⟩
                  exact ⟨missing, name :: upper, List.cons_prefix_cons.mpr ⟨rfl, before⟩, absent⟩

section

variable {tree : Tree} {location : Location}

/-- A location that fits is looked up unless a folder is missing on the way. -/
theorem locate_of_fits
    (plain : ∀ name ∈ location, IsPlainName name) (fits : Fits location)
    (isOpen : tree.IsOpen location.dropLast) :
    tree.locate (.ofRoot location) = .ok location ∨
      tree.locate (.ofRoot location) = .error .missing ∧
        ∃ upper, upper <+: location.dropLast ∧ tree.kindAt? upper = none := by
  obtain ⟨zeroFree, short⟩ := fits.accessible
  have located : tree.locate (.ofRoot location) = tree.walk [] location := by
    rw [locate, zeroFree, if_neg Bool.false_ne_true, if_neg (Nat.not_lt.mpr short)]
    rfl
  have openUpper : ∀ upper, upper <+: location.dropLast →
      tree.kindAt? ([] ++ upper) ≠ some .file :=
    isOpen_iff.mp isOpen
  rw [located]
  exact walk_of_fits plain fits.names openUpper

theorem fits_of_locate
    (plain : ∀ name ∈ location, IsPlainName name) {found : Location}
    (located : tree.locate (.ofRoot location) = .ok found) :
    found = location ∧ Fits location := by
  obtain ⟨accessible, walked⟩ := locate_eq_ok_iff.mp located
  constructor
  · rw [locate_eq_resolve located, resolve_ofRoot tree plain]
  · exact ⟨accessible, names_le_of_walk walked⟩

/-- A location below a folder that is found is found itself. -/
theorem locate_of_folder
    (plain : ∀ name ∈ location, IsPlainName name) (fits : Fits location)
    (folder : tree.isFolder (.ofRoot location.dropLast) = .ok true) :
    tree.locate (.ofRoot location) = .ok location := by
  rcases List.eq_nil_or_concat' location with rfl | ⟨above, name, rfl⟩
  · exact locate_eq_ok_iff.mpr ⟨fits.accessible, rfl⟩
  · rw [List.dropLast_concat] at folder
    obtain ⟨found, located, kind⟩ := isFolder_eq_true_iff.mp folder
    obtain ⟨rfl, _⟩ := fits_of_locate (fun name member => plain name (by simp [member])) located
    refine locate_eq_ok_iff.mpr ⟨fits.accessible, ?_⟩
    have walked : tree.walk [] found = .ok found := (locate_eq_ok_iff.mp located).2
    have last := fits.names name (by simp)
    change tree.walk [] (found ++ [name]) = _
    rw [walk_append, walked, Except.bind, walk, kind]
    dsimp only
    rw [if_neg (Nat.not_lt.mpr last), step_plain (plain name (by simp))]
    rfl

/-! ## Folders -/

/-- A location that can be looked up and holds no file is made a folder unless it is one. -/
theorem makeFolder_of_locate
    (located : tree.locate (.ofRoot location) = .ok location)
    (notFile : tree.kindAt? location ≠ some .file) :
    (∃ made, tree.makeFolder (.ofRoot location) = .ok made) ∨
      tree.makeFolder (.ofRoot location) = .error .exists ∧
        ∀ error, tree.unlessFolder (.ofRoot location) error = none := by
  rw [makeFolder, located]
  cases kind : tree.kindAt? location with
  | none => simp [kind]
  | some found =>
      cases found with
      | file => exact absurd kind notFile
      | folder =>
          right
          simp only [kind, true_and]
          intro error
          exact unlessFolder_eq_none_iff.mpr (isFolder_eq_true_iff.mpr ⟨_, located, kind⟩)

theorem allowFolder_of_locate
    (located : tree.locate (.ofRoot location) = .ok location)
    (notFile : tree.kindAt? location ≠ some .file) :
    (tree.allowFolder (.ofRoot location)).2 = none := by
  rw [allowFolder]
  rcases makeFolder_of_locate located notFile with ⟨made, making⟩ | ⟨making, folder⟩
  · rw [making]
  · rw [making]
    exact folder .exists

/-- A folder whose location is open is made together with the folders above it. -/
theorem ensureNames_of_fits
    (sound : tree.IsSound) {names : List String} (plain : ∀ name ∈ names, IsPlainName name)
    (fits : Fits names.reverse) (isOpen : tree.IsOpen names.reverse) :
    (tree.ensureNames .root names).2 = none := by
  -- The recursion drops the last name, so the induction runs along the names from the end.
  induction names with
  | nil =>
      have located : tree.locate (.ofRoot []) = .ok [] :=
        locate_eq_ok_iff.mpr ⟨fits.accessible, rfl⟩
      exact allowFolder_of_locate located (isOpen_iff.mp isOpen [] List.nil_prefix)
  | cons name above hypothesis =>
      have whole : (name :: above).reverse = above.reverse ++ [name] := by simp
      have before : above.reverse <+: (name :: above).reverse := by
        rw [whole]
        exact List.prefix_append _ _
      have dropped : (name :: above).reverse.dropLast = above.reverse := by
        rw [whole, List.dropLast_concat]
      have plainWhole : ∀ other ∈ (name :: above).reverse, IsPlainName other := by
        intro other member
        exact plain other (List.mem_reverse.mp member)
      have plainAbove : ∀ other ∈ above, IsPlainName other := by
        intro other member
        exact plain other (List.mem_cons_of_mem _ member)
      have notFile := isOpen_iff.mp isOpen _ List.prefix_rfl
      have upper := hypothesis plainAbove (fits.upper before) (isOpen.upper before)
      obtain ⟨growth, folder⟩ := ensureNames_spec sound .root fun other member =>
        .inr (plainAbove other member)
      have openAbove : tree.IsOpen (name :: above).reverse.dropLast := by
        rw [dropped]
        exact isOpen.upper before
      rw [ensureNames]
      rcases locate_of_fits plainWhole fits openAbove with located | ⟨missing, _⟩
      · rcases makeFolder_of_locate located notFile with ⟨made, making⟩ | ⟨making, folder⟩
        · rw [Path.ofRoot] at making
          simp only [making]
        · rw [Path.ofRoot] at making folder
          simp only [making, folder]
      · have making : tree.makeFolder ⟨.root, (name :: above).reverse⟩ = .error .missing := by
          rw [makeFolder, ← Path.ofRoot, missing]
        simp only [making]
        cases ensured : tree.ensureNames .root above with
        | mk made outcome =>
            rw [ensured] at upper growth folder
            obtain rfl : outcome = none := upper
            have laterFolder := folder rfl
            rw [← dropped] at laterFolder
            have laterNotFile : made.kindAt? (name :: above).reverse ≠ some .file := by
              rw [ne_eq, growth.kindAt?_eq_file_iff sound not_false]
              exact notFile
            exact allowFolder_of_locate (locate_of_folder plainWhole fits laterFolder) laterNotFile

/-- Making a folder succeeds just when its location fits and no file stands there or above. -/
theorem ensureFolder_eq_none_iff
    (sound : tree.IsSound) (plain : ∀ name ∈ location, IsPlainName name) :
    (tree.ensureFolder (.ofRoot location)).2 = none ↔ Fits location ∧ tree.IsOpen location := by
  obtain ⟨growth, folder⟩ := ensureFolder_spec sound (Path.isProper_ofRoot plain)
  constructor
  · intro succeeded
    obtain ⟨found, located, kind⟩ := isFolder_eq_true_iff.mp (folder succeeded)
    obtain ⟨rfl, fits⟩ := fits_of_locate plain located
    refine ⟨fits, isOpen_iff.mpr ?_⟩
    rintro upper ⟨lower, rfl⟩ file
    have laterFolder := (growth.sound sound).above_append kind
    rw [growth.kinds _ _ file] at laterFolder
    cases laterFolder
  · rintro ⟨fits, isOpen⟩
    rw [ensureFolder]
    apply ensureNames_of_fits sound
    · intro name member
      exact plain name (List.mem_reverse.mp member)
    · rwa [Path.ofRoot, List.reverse_reverse]
    · rwa [Path.ofRoot, List.reverse_reverse]

/-! ## Files -/

/-- Writing a file succeeds just when its location can be written. -/
theorem writeFile_eq_none_iff
    (sound : tree.IsSound) (plain : ∀ name ∈ location, IsPlainName name) (mode : WriteMode)
    (content : Content) :
    (tree.writeFile mode (.ofRoot location) content).2 = none ↔ tree.CanWrite mode location := by
  have plainAbove : ∀ name ∈ location.dropLast, IsPlainName name := by
    intro name member
    exact plain name (List.dropLast_subset _ member)
  have ensures := ensureFolder_eq_none_iff sound plainAbove
  obtain ⟨growth, folder⟩ := ensureFolder_spec sound (Path.isProper_ofRoot plainAbove)
  have parent : (Path.ofRoot location).parent = .ofRoot location.dropLast := rfl
  rw [writeFile, parent]
  cases ensured : tree.ensureFolder (.ofRoot location.dropLast) with
  | mk made outcome =>
      rw [ensured] at ensures growth folder
      dsimp only at ensures growth folder
      cases outcome with
      | some error =>
          constructor
          · intro never
            cases never
          · intro can
            have before : location.dropLast <+: location := List.dropLast_prefix _
            cases ensures.mpr ⟨can.fits.upper before, can.above⟩
      | none =>
          have isOpen := (ensures.mp rfl).2
          -- A place is never on the way to its own folder, so making that folder leaves its kind.
          have sameFolder : made.kindAt? location = some .folder ↔
              tree.kindAt? location = some .folder := by
            constructor
            · intro later
              rcases growth.folders location later with before | passed
              · exact before
              · have short := (prefix_of_passes plainAbove passed).length_le
                rw [List.length_dropLast] at short
                have root : location = [] := List.length_eq_zero_iff.mp (by omega)
                exact kindAt?_eq_folder_iff.mpr (.inl root)
            · exact growth.kinds location .folder
          have replaces : (∃ written, made.replaceFile mode (.ofRoot location) content = .ok written) ↔
              tree.CanWrite mode location := by
            constructor
            · rintro ⟨written, replaced⟩
              obtain ⟨accepts, found, located, notFolder, _⟩ := replaceFile_eq_ok_iff.mp replaced
              obtain ⟨rfl, fits⟩ := fits_of_locate plain located
              exact ⟨fits, accepts, isOpen, fun wrong => notFolder (sameFolder.mpr wrong)⟩
            · intro can
              refine ⟨_, replaceFile_eq_ok_iff.mpr ⟨can.accepts, location, ?_, ?_, rfl⟩⟩
              · exact locate_of_folder plain can.fits (folder rfl)
              · exact fun wrong => can.notFolder (sameFolder.mp wrong)
          rw [← replaces]
          dsimp only
          cases made.replaceFile mode (.ofRoot location) content with
          | ok written => simp
          | error error => simp

end

/-! ## Questions that fail -/

theorem walk_ne_zeroInName (tree : Tree) (location : Location) (names : List String) :
    tree.walk location names ≠ .error .zeroInName := by
  induction names generalizing location with
  | nil => simp [walk]
  | cons name rest hypothesis =>
      rw [walk]
      split
      · split_ifs
        · simp
        · exact hypothesis _
      · simp
      · simp

theorem walk_ne_nameTooLong
    {tree : Tree} {location : Location} {names : List String}
    (short : ∀ name ∈ names, name.utf8ByteSize ≤ nameLimit) :
    tree.walk location names ≠ .error .nameTooLong := by
  induction names generalizing location with
  | nil => simp [walk]
  | cons name rest hypothesis =>
      rw [walk]
      split
      · rw [if_neg (Nat.not_lt.mpr (short name (by simp)))]
        exact hypothesis fun other member => short other (List.mem_cons_of_mem _ member)
      · simp
      · simp

theorem locate_ne_zeroInName {tree : Tree} {path : Path} (zeroFree : hasZero path = false) :
    tree.locate path ≠ .error .zeroInName := by
  rw [locate, zeroFree, if_neg Bool.false_ne_true]
  split_ifs
  · simp
  · exact walk_ne_zeroInName tree _ _

theorem makeFolder_ne_zeroInName {tree : Tree} {path : Path} (zeroFree : hasZero path = false) :
    tree.makeFolder path ≠ .error .zeroInName := by
  rw [makeFolder]
  split
  · rename_i error located
    intro wrong
    cases wrong
    exact locate_ne_zeroInName zeroFree located
  · split <;> simp

theorem unlessFolder_ne_zeroInName
    {tree : Tree} {path : Path} {error : DiskError} (other : error ≠ .zeroInName) :
    tree.unlessFolder path error ≠ some .zeroInName := by
  rw [unlessFolder]
  split
  · split_ifs
    · simp
    · simpa using other
  · rename_i unanswered answer
    cases inspected : tree.inspect path with
    | ok found => simp [isFolder, inspected, Except.map] at answer
    | error wrong =>
        obtain ⟨rfl, _⟩ := (Extends.refl tree).inspect_error inspected
        obtain rfl : DiskError.nameTooLong = unanswered := by
          simpa [isFolder, inspected, Except.map] using answer
        simp

theorem allowFolder_ne_zeroInName {tree : Tree} {path : Path} (zeroFree : hasZero path = false) :
    (tree.allowFolder path).2 ≠ some .zeroInName := by
  rw [allowFolder]
  split
  · simp
  · rename_i error making
    apply unlessFolder_ne_zeroInName
    rintro rfl
    exact makeFolder_ne_zeroInName zeroFree making

theorem hasZero_upper
    {start : PathStart} {upper lower : List String}
    (zeroFree : hasZero ⟨start, upper ++ lower⟩ = false) :
    hasZero ⟨start, upper⟩ = false := by
  rw [hasZero, List.any_append, Bool.or_eq_false_iff] at zeroFree
  exact zeroFree.1

theorem ensureNames_ne_zeroInName
    {tree : Tree} {start : PathStart} {names : List String}
    (zeroFree : hasZero ⟨start, names.reverse⟩ = false) :
    (tree.ensureNames start names).2 ≠ some .zeroInName := by
  induction names with
  | nil => exact allowFolder_ne_zeroInName zeroFree
  | cons name above hypothesis =>
      rw [ensureNames]
      split
      · simp
      · rw [List.reverse_cons] at zeroFree
        have upper := hypothesis (hasZero_upper zeroFree)
        split
        · rw [← List.reverse_cons] at zeroFree
          exact allowFolder_ne_zeroInName zeroFree
        · rename_i made error ensured
          rw [ensured] at upper
          exact upper
      · rename_i error _ making
        apply unlessFolder_ne_zeroInName
        rintro rfl
        exact makeFolder_ne_zeroInName zeroFree making

theorem ensureFolder_ne_zeroInName (tree : Tree) {path : Path} (zeroFree : hasZero path = false) :
    (tree.ensureFolder path).2 ≠ some .zeroInName := by
  apply ensureNames_ne_zeroInName
  rwa [List.reverse_reverse]

theorem replaceFile_ne_zeroInName
    (tree : Tree) (mode : WriteMode) {path : Path} (content : Content)
    (zeroFree : hasZero path = false) :
    tree.replaceFile mode path content ≠ .error .zeroInName := by
  have otherName : otherNameError? path ≠ some .zeroInName := by
    rw [otherNameError?, zeroFree, if_neg Bool.false_ne_true]
    split_ifs <;> simp
  rw [replaceFile]
  split
  · rename_i error refused
    intro wrong
    cases wrong
    split_ifs at refused
    exact otherName refused
  · rename_i error _ located
    intro wrong
    cases wrong
    exact locate_ne_zeroInName zeroFree located
  · split <;> simp

/-- Writing a file complains of the character with the code zero only where there is one. -/
theorem writeFile_ne_zeroInName
    (tree : Tree) (mode : WriteMode) {path : Path} (content : Content)
    (zeroFree : hasZero path = false) :
    (tree.writeFile mode path content).2 ≠ some .zeroInName := by
  have zeroFreeParent : hasZero path.parent = false := by
    have whole : hasZero ⟨path.start, path.names.dropLast ++ path.names.drop (path.names.length - 1)⟩ =
        false := by
      rwa [List.dropLast_eq_take, List.take_append_drop]
    exact hasZero_upper whole
  have ensured := ensureFolder_ne_zeroInName tree zeroFreeParent
  rw [writeFile]
  split
  · rename_i made error failed
    rw [failed] at ensured
    exact ensured
  · rename_i made _
    have replaced := replaceFile_ne_zeroInName made mode content zeroFree
    split
    · simp
    · rename_i error failed
      rw [failed] at replaced
      simpa using replaced

/-! ## Questions that are answered -/

section

variable {tree : Tree} {location : Location} (sound : tree.IsSound)
  (plain : ∀ name ∈ location, IsPlainName name)

include sound plain

/-- What is asked of a location without the character zero is what it holds, unless it is too long. -/
theorem inspect_ofRoot (zeroFree : hasZero (.ofRoot location) = false) :
    tree.inspect (.ofRoot location) = .ok (tree.kindAt? location) ∨
      tree.inspect (.ofRoot location) = .error .nameTooLong := by
  by_cases long : pathLimit < (Path.ofRoot location).text.utf8ByteSize
  · right
    rw [inspect, locate, zeroFree, if_neg Bool.false_ne_true, if_pos long]
  · have located : tree.locate (.ofRoot location) = tree.walk [] location := by
      rw [locate, zeroFree, if_neg Bool.false_ne_true, if_neg long]
      rfl
    rw [inspect, located]
    cases walked : tree.walk [] location with
    | ok found =>
        left
        rw [walked] at located
        obtain ⟨rfl, _⟩ := fits_of_locate plain located
        rfl
    | error error =>
        by_cases tooLong : error = .nameTooLong
        · right
          rw [tooLong]
        · left
          have absent : tree.kindAt? location = none := by
            by_contra there
            have thereFromRoot : tree.kindAt? ([] ++ location) ≠ none := there
            rcases walk_down sound plain thereFromRoot with found | wrong
            · rw [walked] at found
              cases found
            · rw [walked] at wrong
              exact tooLong (Except.error.inj wrong)
          rw [absent]
          cases error <;> first | rfl | exact absurd rfl tooLong

theorem has_eq_ok
    (zeroFree : hasZero (.ofRoot location) = false) {found : Bool}
    (answered : tree.has (.ofRoot location) = .ok found) :
    found = (tree.kindAt? location).isSome := by
  rw [has] at answered
  rcases inspect_ofRoot sound plain zeroFree with inspected | inspected
  · rw [inspected] at answered
    exact (Except.ok.inj answered).symm
  · rw [inspected] at answered
    cases answered

/-- Whether anything lies at a location that fits is answered. -/
theorem has_of_fits (fits : Fits location) :
    tree.has (.ofRoot location) = .ok (tree.kindAt? location).isSome := by
  obtain ⟨zeroFree, short⟩ := fits.accessible
  rcases inspect_ofRoot sound plain zeroFree with inspected | inspected
  · rw [has, inspected]
    rfl
  · have located : tree.locate (.ofRoot location) = .error .nameTooLong := by
      rw [inspect] at inspected
      split at inspected
      · cases inspected
      · assumption
      · cases inspected
    rw [locate, zeroFree, if_neg Bool.false_ne_true, if_neg (Nat.not_lt.mpr short)] at located
    exact absurd located (walk_ne_nameTooLong fits.names)

end

/-- A name that is too long cannot even be asked for in a folder that is there. -/
theorem has_of_long
    {tree : Tree} {above : Location} {name : String} (plain : ∀ other ∈ above, IsPlainName other)
    (folder : tree.isFolder (.ofRoot above) = .ok true) (zeroFree : '\x00' ∉ name.toList)
    (long : nameLimit < name.utf8ByteSize) :
    tree.has (.ofRoot (above ++ [name])) = .error .nameTooLong := by
  obtain ⟨found, located, kind⟩ := isFolder_eq_true_iff.mp folder
  obtain ⟨rfl, fits⟩ := fits_of_locate plain located
  have noZero : hasZero (.ofRoot (found ++ [name])) = false := by
    have before : found.any (fun other => other.toList.contains '\x00') = false := fits.accessible.1
    rw [hasZero, Path.ofRoot, List.any_append, before]
    simpa using zeroFree
  have walked : tree.walk [] found = .ok found := (locate_eq_ok_iff.mp located).2
  have unanswered : tree.locate (.ofRoot (found ++ [name])) = .error .nameTooLong := by
    rw [locate, noZero, if_neg Bool.false_ne_true]
    split_ifs
    · rfl
    · change tree.walk [] (found ++ [name]) = _
      rw [walk_append, walked, Except.bind, walk, kind]
      exact if_pos long
  rw [has, inspect, unanswered]
  rfl

end Scaffold.Disk.Tree
