import Scaffold.Proofs.Disk.Listing
import Scaffold.Proofs.Migration.ExistingKeys
import Scaffold.Proofs.Module.Naming
import Scaffold.Proofs.Text.ClassName
import Scaffold.Run.Rendering

/-!
# The file names of migrations

A file name is read as a key and a table if it is spelled by them, and there is one way to spell
it.  So in a folder whose migrations were named by keys and by tables of entities, every table has
the key of its last file.
-/

namespace Scaffold.Migration

/-! ## Spellings of keys -/

/-- A text of a number of digits. -/
def IsDigits (digit : Char → Bool) (count : Nat) (text : List Char) : Prop :=
  text.length = count ∧ ∀ c ∈ text, digit c = true

instance (digit : Char → Bool) (count : Nat) (text : List Char) :
    Decidable (IsDigits digit count text) :=
  @instDecidableAnd _ _ (instDecidableEqNat _ _) (List.decidableBAll _ text)

/-- A moment as keys spell it: the year, the month, the day and the time, with low lines between. -/
inductive IsMomentSpelling (digit : Char → Bool) : List Char → Prop where
  | intro {year month day time : List Char} (years : IsDigits digit 4 year)
      (months : IsDigits digit 2 month) (days : IsDigits digit 2 day)
      (times : IsDigits digit 6 time) :
      IsMomentSpelling digit (year ++ '_' :: (month ++ '_' :: (day ++ '_' :: time)))

/-- A key is spelled by a moment, behind which a counter may stand. -/
inductive IsKeySpelling (digit : Char → Bool) : List Char → Prop where
  | plain {moment : List Char} (spelled : IsMomentSpelling digit moment) :
      IsKeySpelling digit moment
  | counted {moment counter : List Char} (spelled : IsMomentSpelling digit moment)
      (digits : IsDigits digit 2 counter) : IsKeySpelling digit (moment ++ '_' :: counter)

section

variable {digit : Char → Bool}

theorem IsDigits.mono {other : Char → Bool} (more : ∀ c, digit c = true → other c = true)
    {count : Nat} {text : List Char} (digits : IsDigits digit count text) :
    IsDigits other count text :=
  ⟨digits.1, fun c member => more c (digits.2 c member)⟩

theorem IsMomentSpelling.mono {other : Char → Bool} (more : ∀ c, digit c = true → other c = true)
    {text : List Char} (spelled : IsMomentSpelling digit text) : IsMomentSpelling other text := by
  obtain ⟨year, month, day, time⟩ := spelled
  exact .intro (year.mono more) (month.mono more) (day.mono more) (time.mono more)

theorem IsKeySpelling.mono {other : Char → Bool} (more : ∀ c, digit c = true → other c = true)
    {text : List Char} (spelled : IsKeySpelling digit text) : IsKeySpelling other text := by
  cases spelled with
  | plain moment => exact .plain (moment.mono more)
  | counted moment counter => exact .counted (moment.mono more) (counter.mono more)

theorem IsMomentSpelling.length_eq {text : List Char} (spelled : IsMomentSpelling digit text) :
    text.length = momentPattern.length := by
  obtain ⟨year, month, day, time⟩ := spelled
  simp only [List.length_append, List.length_cons, year.1, month.1, day.1, time.1, momentPattern_eq]
  rfl

end

/-! ## Patterns -/

theorem matchesPattern_cons_iff {mark : Char} (notDigit : mark ≠ 'd') {pattern text : List Char} :
    matchesPattern (mark :: pattern) text = true ↔
      ∃ rest, text = mark :: rest ∧ matchesPattern pattern rest = true := by
  cases text with
  | nil => simp [matchesPattern]
  | cons c rest => simp [matchesPattern, notDigit]

theorem matchesPattern_digits_iff (count : Nat) {pattern text : List Char} :
    matchesPattern (List.replicate count 'd' ++ pattern) text = true ↔
      ∃ digits rest, text = digits ++ rest ∧ IsDigits Text.isDecimalDigit count digits ∧
        matchesPattern pattern rest = true := by
  induction count generalizing text with
  | zero =>
      constructor
      · exact fun matched => ⟨[], text, rfl, ⟨rfl, List.forall_mem_nil _⟩, matched⟩
      · rintro ⟨digits, rest, rfl, ⟨none, -⟩, matched⟩
        rwa [List.eq_nil_of_length_eq_zero none]
  | succ count hypothesis =>
      cases text with
      | nil =>
          refine iff_of_false (by simp [List.replicate_succ, matchesPattern]) ?_
          rintro ⟨digits, rest, whole, ⟨some, -⟩, -⟩
          rw [(List.append_eq_nil_iff.mp whole.symm).1] at some
          cases some
      | cons c text =>
          rw [List.replicate_succ, List.cons_append, matchesPattern, Bool.and_eq_true,
            hypothesis]
          constructor
          · rintro ⟨first, digits, rest, rfl, ⟨length, decimal⟩, matched⟩
            refine ⟨c :: digits, rest, rfl, ⟨congrArg Nat.succ length, ?_⟩, matched⟩
            exact List.forall_mem_cons.mpr ⟨by simpa using first, decimal⟩
          · rintro ⟨digits, rest, whole, ⟨length, decimal⟩, matched⟩
            cases digits with
            | nil => cases length
            | cons first others =>
                obtain ⟨rfl, rfl⟩ := List.cons.inj whole
                obtain ⟨here, later⟩ := List.forall_mem_cons.mp decimal
                exact ⟨by simpa using here, others, rest, rfl, ⟨Nat.succ.inj length, later⟩, matched⟩

theorem matchesPattern_nil_iff {text : List Char} : matchesPattern [] text = true ↔ text = [] := by
  cases text <;> simp [matchesPattern]

theorem matchesPattern_counter_iff {text : List Char} :
    matchesPattern "_dd".toList text = true ↔
      ∃ counter, text = '_' :: counter ∧ IsDigits Text.isDecimalDigit 2 counter := by
  have pattern : "_dd".toList = '_' :: (List.replicate 2 'd' ++ []) := rfl
  rw [pattern, matchesPattern_cons_iff (by decide)]
  simp only [matchesPattern_digits_iff, matchesPattern_nil_iff]
  constructor
  · rintro ⟨_, rfl, counter, _, rfl, digits, rfl⟩
    exact ⟨counter, by rw [List.append_nil], digits⟩
  · rintro ⟨counter, rfl, digits⟩
    exact ⟨counter, rfl, counter, [], by rw [List.append_nil], digits, rfl⟩

theorem matchesPattern_moment_iff {text : List Char} :
    matchesPattern momentPattern text = true ↔ IsMomentSpelling Text.isDecimalDigit text := by
  have pattern : momentPattern = List.replicate 4 'd' ++ '_' :: (List.replicate 2 'd' ++ '_' ::
      (List.replicate 2 'd' ++ '_' :: (List.replicate 6 'd' ++ []))) := by
    rw [momentPattern_eq]
    rfl
  have mark : '_' ≠ 'd' := by decide
  simp only [pattern, matchesPattern_digits_iff, matchesPattern_cons_iff mark,
    matchesPattern_nil_iff]
  constructor
  · rintro ⟨year, _, rfl, yearDigits, _, rfl, month, _, rfl, monthDigits, _, rfl, day, _, rfl,
      dayDigits, _, rfl, time, _, rfl, timeDigits, rfl⟩
    rw [List.append_nil]
    exact .intro yearDigits monthDigits dayDigits timeDigits
  · rintro ⟨yearDigits, monthDigits, dayDigits, timeDigits⟩
    exact ⟨_, _, rfl, yearDigits, _, rfl, _, _, rfl, monthDigits, _, rfl, _, _, rfl, dayDigits, _,
      rfl, _, [], (List.append_nil _).symm, timeDigits, rfl⟩

/-- A text splits into a moment and a counter where it is spelled by them. -/
theorem splitKey?_eq_some_iff {text moment : List Char} {counter : Option (List Char)} :
    splitKey? text = some (moment, counter) ↔
      IsMomentSpelling Text.isDecimalDigit moment ∧
        (counter = none ∧ text = moment ∨
          ∃ digits, counter = some digits ∧ IsDigits Text.isDecimalDigit 2 digits ∧
            text = moment ++ '_' :: digits) := by
  constructor
  · intro found
    obtain ⟨shape, rest⟩ := splitKey?_spec found
    refine ⟨matchesPattern_moment_iff.mp shape, ?_⟩
    rcases rest with plain | ⟨c, d, rfl, rfl, first, second⟩
    · exact .inl plain
    · exact .inr ⟨[c, d], rfl, ⟨rfl, by simp [first, second]⟩, rfl⟩
  · rintro ⟨spelled, ⟨rfl, rfl⟩ | ⟨digits, rfl, counted, rfl⟩⟩
    all_goals have shape := matchesPattern_moment_iff.mpr spelled
    · rw [splitKey?, ← spelled.length_eq, List.take_length, List.drop_length]
      simp only [shape]
      rfl
    · have counter := matchesPattern_counter_iff.mpr ⟨digits, rfl, counted⟩
      rw [splitKey?, ← spelled.length_eq, List.take_left, List.drop_left]
      simp only [shape, counter]
      rfl

theorem exists_splitKey?_iff {text : List Char} :
    (∃ parts, splitKey? text = some parts) ↔ IsKeySpelling Text.isDecimalDigit text := by
  constructor
  · rintro ⟨⟨moment, counter⟩, found⟩
    obtain ⟨spelled, ⟨-, rfl⟩ | ⟨digits, -, counted, rfl⟩⟩ := splitKey?_eq_some_iff.mp found
    · exact .plain spelled
    · exact .counted spelled counted
  · intro spelled
    cases spelled with
    | plain moment => exact ⟨_, splitKey?_eq_some_iff.mpr ⟨moment, .inl ⟨rfl, rfl⟩⟩⟩
    | counted moment counter =>
        exact ⟨_, splitKey?_eq_some_iff.mpr ⟨moment, .inr ⟨_, rfl, counter, rfl⟩⟩⟩

/-! ## File names -/

/--
A file name is spelled by a table and a key, with digits of any script.  A line feed may stand
behind it.
-/
structure IsCreation (name table key : String) : Prop where
  keyed : IsKeySpelling Text.isDecimalDigit key.toList
  nonempty : table ≠ ""
  word : ∀ c ∈ table.toList, Text.isUnicodeWordCharacter c = true
  spelled : name = fileName key table ∨ name = fileName key table ++ "\n"

/-- The text of a file name without a line feed at its end. -/
theorem withoutLineEnd_eq_iff {name : String} {key table : String} :
    Text.withoutLineEnd name.toList = (fileName key table).toList ↔
      name = fileName key table ∨ name = fileName key table ++ "\n" := by
  constructor
  · intro same
    rw [Text.withoutLineEnd] at same
    split_ifs at same with ended
    · have nonempty : name.toList ≠ [] := by
        intro empty
        simp [empty] at ended
      have last : name.toList.getLast nonempty = '\n' := by
        rw [List.getLast?_eq_getLast_of_ne_nil nonempty] at ended
        simpa using ended
      right
      have ending : "\n".toList = ['\n'] := rfl
      rw [← String.toList_inj, String.toList_append, ← same, ending, ← last]
      exact (List.dropLast_concat_getLast nonempty).symm
    · exact .inl (String.toList_inj.mp same)
  · rintro (rfl | rfl)
    · exact withoutLineEnd_fileName key table
    · simp [Text.withoutLineEnd]

/-- A file name is read as the table and the key that spell it. -/
theorem ofFileName?_eq_some_iff {name table key : String} :
    ofFileName? name = some (table, key) ↔ IsCreation name table key := by
  constructor
  · intro read
    obtain ⟨split, nonempty, word, same⟩ := spec_of_ofFileName? read
    refine ⟨exists_splitKey?_iff.mp split, ?_, word, withoutLineEnd_eq_iff.mp same⟩
    rintro rfl
    exact nonempty rfl
  · rintro ⟨keyed, nonempty, word, spelled⟩
    have whole := (withoutLineEnd_eq_iff.mpr spelled).trans (toList_fileName key table)
    have read {length : Nat} (long : key.toList.length = length) :
        readAt? length (Text.withoutLineEnd name.toList) = some (table, key) := by
      rw [whole, ← long, readAt?_eq_some_iff, List.take_left, List.drop_left]
      refine ⟨exists_splitKey?_iff.mpr keyed, rfl, tableOf?_eq_some_iff.mpr ⟨rfl, ?_, word⟩⟩
      simpa using nonempty
    rw [ofFileName?_eq_some_iff_readAt?]
    generalize split : key.toList = characters at keyed
    cases keyed with
    | counted moment counter =>
        refine .inl (read ?_)
        rw [split, List.length_append, moment.length_eq, List.length_cons, counter.1]
    | plain moment =>
        refine .inr ⟨?_, read (by rw [split, moment.length_eq])⟩
        -- Where the counter would stand, the mark behind the key has letters.
        rw [Option.eq_none_iff_forall_ne_some]
        rintro ⟨other, counted⟩ readCounted
        obtain ⟨spelledCounted, front, -⟩ := readAt?_eq_some_iff.mp readCounted
        have letters : counted.toList = characters ++ ['_', 'c', 'r'] := by
          rw [← front, whole, split, ← moment.length_eq, List.take_length_add_append]
          rfl
        obtain ⟨⟨start, counter⟩, found⟩ := spelledCounted
        rw [letters] at found
        obtain ⟨spelledStart, ⟨-, same⟩ | ⟨digits, -, decimal, same⟩⟩ :=
          splitKey?_eq_some_iff.mp found
        · have lengths := congrArg List.length same
          rw [List.length_append, moment.length_eq, spelledStart.length_eq] at lengths
          simp at lengths
        · obtain ⟨-, rest⟩ := List.append_inj same (moment.length_eq.trans spelledStart.length_eq.symm)
          obtain rfl := (List.cons.inj rest).2
          exact absurd (decimal.2 'c' List.mem_cons_self) (by decide)

/-! ## Folders of migrations -/

/-- A key in ASCII digits, with or without a counter. -/
def IsAsciiKey (key : String) : Prop :=
  IsKeySpelling Char.isDigit key.toList

/-- The table of an entity of a module whose names were accepted. -/
def IsEntityTable (table : String) : Prop :=
  ∃ (definition : ModuleDefinition) (component : Component),
    Review.errors definition.reviewNames = [] ∧ component ∈ definition.components ∧
      component.table = table

theorem IsEntityTable.spec {table : String} (isTable : IsEntityTable table) :
    table ≠ "" ∧ ∀ c ∈ table.toList, Text.isUnicodeWordCharacter c = true := by
  obtain ⟨definition, component, accepted, member, rfl⟩ := isTable
  have named : isClassName component.entity = true := by
    rw [ModuleDefinition.reviewNames] at accepted
    split_ifs at accepted with none
    · simp [Review.errors] at accepted
    · exact ((ModuleDefinition.reviewEntities_spec accepted).1 component member).1
  obtain ⟨nonempty, characters⟩ := Text.tableName_spec named
  exact ⟨nonempty, fun c member => (characters c member).isUnicodeWordCharacter⟩

/-- The migration of a table of an entity is among file names. -/
structure IsWritten (names : List String) (key table : String) : Prop where
  isKey : IsAsciiKey key
  isTable : IsEntityTable table
  member : fileName key table ∈ names

/-- What was written is read, however the table is spelled. -/
theorem IsWritten.ofFileName? {names : List String} {key table : String}
    (written : IsWritten names key table) :
    ofFileName? (fileName key table) = some (table, key) := by
  obtain ⟨nonempty, word⟩ := written.isTable.spec
  exact ofFileName?_eq_some_iff.mpr
    ⟨written.isKey.mono fun _ => isDecimalDigit_of_isDigit, nonempty, word, .inl rfl⟩

/-- All that is read among file names was written. -/
theorem isWritten_of_ofFileName? {names : List String}
    (named : ∀ name ∈ names,
      (∃ key table, IsAsciiKey key ∧ IsEntityTable table ∧ name = fileName key table) ∨
        ∀ table key, ¬ IsCreation name table key)
    {name table key : String} (member : name ∈ names)
    (read : ofFileName? name = some (table, key)) :
    IsWritten names key table ∧ name = fileName key table := by
  rcases named name member with ⟨other, otherTable, isKey, isTable, rfl⟩ | foreign
  · have written : IsWritten names other otherTable := ⟨isKey, isTable, member⟩
    rw [written.ofFileName?] at read
    obtain ⟨rfl, rfl⟩ := Prod.mk.inj (Option.some.inj read)
    exact ⟨written, rfl⟩
  · exact absurd (ofFileName?_eq_some_iff.mp read) (foreign table key)

/--
In a folder whose migrations were named by keys and tables of entities, these names are read as they
were written.  Every table has one key, which is that of its last file, and nothing else has one.
-/
theorem keysIn_of_written
    {tree : Disk.Tree} {folder : Disk.Path} (isFolder : tree.isFolder folder = .ok true)
    (named : ∀ name ∈ tree.names folder,
      (∃ key table, IsAsciiKey key ∧ IsEntityTable table ∧ name = fileName key table) ∨
        ∀ table key, ¬ IsCreation name table key) :
    (∀ key table, IsWritten (tree.names folder) key table →
      ofFileName? (fileName key table) = some (table, key)) ∧
    ∃ keys, keysIn tree folder = .ok keys ∧ (Keyed.keys keys).Nodup ∧
      (∀ table, table ∈ Keyed.keys keys ↔ ∃ key, IsWritten (tree.names folder) key table) ∧
      ∀ table key, (table, key) ∈ keys ↔
        IsWritten (tree.names folder) key table ∧
          ∀ other, IsWritten (tree.names folder) other table →
            fileName other table ≤ fileName key table := by
  have found : keysIn tree folder = .ok (Sequence.existingKeys (tree.names folder)) := by
    rw [keysIn, isFolder]
    rfl
  have nodup : (Keyed.keys (Sequence.existingKeys (tree.names folder))).Nodup :=
    Keyed.nodup_keys_ofList _
  refine ⟨fun key table => IsWritten.ofFileName?, _, found, nodup, fun table => ?_,
    fun table key => ?_⟩
  · rw [← not_iff_not, ← Keyed.get?_eq_none_iff, Sequence.get?_existingKeys_eq_none_iff,
      not_exists]
    constructor
    · exact fun unread key written => unread _ written.member key written.ofFileName?
    · exact fun unwritten name member key read =>
        unwritten key (isWritten_of_ofFileName? named member read).1
  · rw [← Keyed.get?_eq_some_iff nodup,
      Sequence.get?_existingKeys_eq_some_iff (Disk.Tree.names_pairwise tree folder)]
    constructor
    · rintro ⟨name, member, read, greatest⟩
      obtain ⟨written, rfl⟩ := isWritten_of_ofFileName? named member read
      exact ⟨written, fun other again => greatest _ again.member other again.ofFileName?⟩
    · rintro ⟨written, greatest⟩
      refine ⟨_, written.member, written.ofFileName?, fun name member other read => ?_⟩
      obtain ⟨again, rfl⟩ := isWritten_of_ofFileName? named member read
      exact greatest other again

/-- Entities whose tables spell the marks of file names and digits. -/
def markedDefinition : ModuleDefinition where
  name := "Blog"
  components := [{ name := "Post" }, { name := "CreateTable" }, { name := "create_01_table" }]

/-- A folder of migrations with keys of one second, and of other files. -/
def markedTree : Disk.Tree where
  folders := [["migrations"]]
  files := [
    (["migrations", "2024_01_15_103000_07_create_posts_table.php"], .text ""),
    (["migrations", "2024_01_15_103000_create_posts_table.php"], .text ""),
    (["migrations", "2023_12_31_235959_create_create_tables_table.php"], .text ""),
    (["migrations", "2024_01_15_103000_99_create_create01_tables_table.php"], .text ""),
    (["migrations", "2024_01_15_103000_create_posts_table.txt"], .text ""),
    (["migrations", "notes"], .text "")]

theorem isEntityTable_marked : ∀ table ∈ ["posts", "create_tables", "create01_tables"],
    IsEntityTable table := by
  have accepted : Review.errors markedDefinition.reviewNames = [] := by decide +kernel
  have tables : markedDefinition.components.map (·.table) =
      ["posts", "create_tables", "create01_tables"] := by
    decide +kernel
  intro table member
  rw [← tables] at member
  obtain ⟨component, among, rfl⟩ := List.mem_map.mp member
  exact ⟨markedDefinition, component, accepted, among, rfl⟩

/-- A key without a counter comes last, and marks within a table are part of the table. -/
theorem keysIn_of_written_marked :
    keysIn markedTree (.ofText "migrations") =
        .ok [("create_tables", "2023_12_31_235959"), ("posts", "2024_01_15_103000"),
          ("create01_tables", "2024_01_15_103000_99")] ∧
      ∀ other, IsWritten (markedTree.names (.ofText "migrations")) other "posts" →
        fileName other "posts" ≤ "2024_01_15_103000_create_posts_table.php" := by
  have isFolder : markedTree.isFolder (.ofText "migrations") = .ok true := by decide +kernel
  have names : markedTree.names (.ofText "migrations") =
      ["2023_12_31_235959_create_create_tables_table.php",
        "2024_01_15_103000_07_create_posts_table.php",
        "2024_01_15_103000_99_create_create01_tables_table.php",
        "2024_01_15_103000_create_posts_table.php", "2024_01_15_103000_create_posts_table.txt",
        "notes"] :=
    sortedTexts_eq_of_perm (by decide) (by decide)
  have noon : IsMomentSpelling Char.isDigit "2024_01_15_103000".toList :=
    @IsMomentSpelling.intro _ "2024".toList "01".toList "15".toList "103000".toList
      (by decide) (by decide) (by decide) (by decide)
  have eve : IsMomentSpelling Char.isDigit "2023_12_31_235959".toList :=
    @IsMomentSpelling.intro _ "2023".toList "12".toList "31".toList "235959".toList
      (by decide) (by decide) (by decide) (by decide)
  have foreign {name : String} (unread : ofFileName? name = none) (table key : String) :
      ¬ IsCreation name table key := by
    rw [← ofFileName?_eq_some_iff, unread]
    exact nofun
  have isTable := isEntityTable_marked
  simp only [List.forall_mem_cons] at isTable
  obtain ⟨posts, createTables, createdTables, -⟩ := isTable
  have named : ∀ name ∈ markedTree.names (.ofText "migrations"),
      (∃ key table, IsAsciiKey key ∧ IsEntityTable table ∧ name = fileName key table) ∨
        ∀ table key, ¬ IsCreation name table key := by
    rw [names]
    simp only [List.forall_mem_cons]
    refine ⟨.inl ⟨"2023_12_31_235959", _, .plain eve, createTables, rfl⟩,
      .inl ⟨"2024_01_15_103000_07", _, @IsKeySpelling.counted _ _ "07".toList noon (by decide),
        posts, rfl⟩,
      .inl ⟨"2024_01_15_103000_99", _, @IsKeySpelling.counted _ _ "99".toList noon (by decide),
        createdTables, rfl⟩,
      .inl ⟨"2024_01_15_103000", _, .plain noon, posts, rfl⟩,
      .inr (foreign (by decide +kernel)), .inr (foreign (by decide +kernel)),
      List.forall_mem_nil _⟩
  have listed : keysIn markedTree (.ofText "migrations") =
      .ok [("create_tables", "2023_12_31_235959"), ("posts", "2024_01_15_103000"),
        ("create01_tables", "2024_01_15_103000_99")] := by
    rw [keysIn, isFolder, names]
    decide +kernel
  obtain ⟨-, keys, found, -, -, latest⟩ := keysIn_of_written isFolder named
  obtain rfl := Except.ok.inj (found.symm.trans listed)
  exact ⟨listed, ((latest "posts" "2024_01_15_103000").mp (by simp)).2⟩

end Scaffold.Migration
