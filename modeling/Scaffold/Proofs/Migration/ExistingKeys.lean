import Scaffold.Proofs.Keyed
import Scaffold.Proofs.Migration.KeyReading

/-!
# The keys of existing migrations

Of several migrations of a table the last file name gives the key.  Files that are added later do not
change the key of a table as long as they have the name that this key gives.
-/

namespace Scaffold.Migration

/-- The table of a text stands between the marks of a migration that creates one. -/
theorem tableOf?_eq_some_iff {text table : List Char} :
    tableOf? text = some table ↔
      text = createMark ++ (table ++ tableMark) ∧ table ≠ [] ∧
        ∀ c ∈ table, Text.isUnicodeWordCharacter c = true := by
  constructor
  · intro read
    rw [tableOf?] at read
    dsimp only at read
    split_ifs at read with noCreate noTable word
    simp only [Bool.not_eq_true', Bool.not_eq_false, List.isPrefixOf_iff_prefix,
      List.isSuffixOf_iff_suffix] at noCreate noTable
    obtain ⟨rest, rfl⟩ := noCreate
    rw [List.drop_left] at noTable read word
    obtain ⟨before, rfl⟩ := noTable
    rw [List.length_append, Nat.add_sub_cancel, List.take_left] at read word
    obtain rfl := Option.some.inj read
    simpa using word
  · rintro ⟨rfl, nonempty, word⟩
    simpa [tableOf?, nonempty] using word

/-- The table and the key of a file name whose key has a number of characters. -/
def readAt? (length : Nat) (characters : List Char) : Option (String × String) :=
  match splitKey? (characters.take length), tableOf? (characters.drop length) with
  | some _, some table => some (String.ofList table, String.ofList (characters.take length))
  | _, _ => none

theorem readAt?_eq_some_iff {length : Nat} {characters : List Char} {table key : String} :
    readAt? length characters = some (table, key) ↔
      (∃ parts, splitKey? key.toList = some parts) ∧ characters.take length = key.toList ∧
        tableOf? (characters.drop length) = some table.toList := by
  constructor
  · intro read
    rw [readAt?] at read
    split at read
    · rename_i split tableRead
      obtain ⟨rfl, rfl⟩ := Prod.mk.inj (Option.some.inj read)
      rw [String.toList_ofList, String.toList_ofList]
      exact ⟨⟨_, split⟩, rfl, tableRead⟩
    · cases read
  · rintro ⟨⟨parts, split⟩, front, tableRead⟩
    rw [← front] at split
    rw [readAt?, split, tableRead, front]
    simp

/-- The key of a file name is looked for with a counter first. -/
theorem ofFileName?_eq_some_iff_readAt? {name table key : String} :
    ofFileName? name = some (table, key) ↔
      readAt? (momentPattern.length + 3) (Text.withoutLineEnd name.toList) = some (table, key) ∨
        readAt? (momentPattern.length + 3) (Text.withoutLineEnd name.toList) = none ∧
          readAt? momentPattern.length (Text.withoutLineEnd name.toList) = some (table, key) :=
  Option.orElse_eq_some (readAt? (momentPattern.length + 3) (Text.withoutLineEnd name.toList))
    (readAt? momentPattern.length (Text.withoutLineEnd name.toList)) (table, key)

/-- What is read of a file name gives the name back, apart from a line end behind it. -/
theorem spec_of_ofFileName?
    {name table key : String} (read : ofFileName? name = some (table, key)) :
    (∃ parts, splitKey? key.toList = some parts) ∧ table.toList ≠ [] ∧
      (∀ c ∈ table.toList, Text.isUnicodeWordCharacter c = true) ∧
        Text.withoutLineEnd name.toList = (fileName key table).toList := by
  have spec {length : Nat}
      (read : readAt? length (Text.withoutLineEnd name.toList) = some (table, key)) :
      (∃ parts, splitKey? key.toList = some parts) ∧ table.toList ≠ [] ∧
        (∀ c ∈ table.toList, Text.isUnicodeWordCharacter c = true) ∧
          Text.withoutLineEnd name.toList = (fileName key table).toList := by
    obtain ⟨split, front, tableRead⟩ := readAt?_eq_some_iff.mp read
    obtain ⟨behind, nonempty, word⟩ := tableOf?_eq_some_iff.mp tableRead
    refine ⟨split, nonempty, word, ?_⟩
    rw [toList_fileName, ← behind, ← front, List.take_append_drop]
  rcases ofFileName?_eq_some_iff_readAt?.mp read with first | ⟨-, second⟩
  · exact spec first
  · exact spec second

theorem withoutLineEnd_of_ofFileName?
    {name table key : String} (read : ofFileName? name = some (table, key)) :
    Text.withoutLineEnd name.toList = (fileName key table).toList :=
  (spec_of_ofFileName? read).2.2.2

theorem withoutLineEnd_fileName (key table : String) :
    Text.withoutLineEnd (fileName key table).toList = (fileName key table).toList := by
  have lastOfMark : tableMark.getLast? = some 'p' := rfl
  refine withoutLineEnd_of_getLast? ?_
  simp [toList_fileName, List.getLast?_append, lastOfMark]

/-- The key of a file name is read from the name that it gives. -/
theorem ofFileName?_of_ofFileName?
    {name table key : String} (read : ofFileName? name = some (table, key)) :
    ofFileName? (fileName key table) = some (table, key) := by
  rw [← read, ofFileName?, ofFileName?, withoutLineEnd_fileName, withoutLineEnd_of_ofFileName? read]

/-! ## The characters of keys -/

/-- A decimal digit of any script, or an underscore. -/
def IsKeyCharacter (c : Char) : Prop :=
  Text.isDecimalDigit c = true ∨ c = '_'

instance (c : Char) : Decidable (IsKeyCharacter c) :=
  inferInstanceAs (Decidable (_ ∨ _))

theorem isKeyCharacter_of_isDigit {c : Char} (digit : c.isDigit = true) : IsKeyCharacter c :=
  .inl (isDecimalDigit_of_isDigit digit)

theorem isKeyCharacter_of_mem_naturalDigits {n : Nat} {c : Char}
    (member : c ∈ Decimal.naturalDigits n) : IsKeyCharacter c :=
  isKeyCharacter_of_isDigit (Nat.isDigit_of_mem_toDigits (by omega) (by omega) member)

theorem isKeyCharacter_of_mem_paddedNatural {width n : Nat} {c : Char}
    (member : c ∈ Decimal.paddedNatural width n) : IsKeyCharacter c := by
  rw [Decimal.paddedNatural, List.mem_append] at member
  rcases member with zero | digit
  · rw [List.eq_of_mem_replicate zero]
    exact isKeyCharacter_of_isDigit rfl
  · exact isKeyCharacter_of_mem_naturalDigits digit

theorem Key.isKeyCharacter_of_text (key : Key) : ∀ c ∈ key.text.toList, IsKeyCharacter c := by
  have year : ¬ (key.moment.year : Int) < 0 := by omega
  have counter : ¬ (key.counter : Int) < 0 := by omega
  have mark : ∀ c ∈ "_".toList, IsKeyCharacter c := by simp [IsKeyCharacter]
  have natural (n : Nat) : ∀ c ∈ Decimal.naturalDigits n, IsKeyCharacter c :=
    fun _ => isKeyCharacter_of_mem_naturalDigits
  have padded (n : Nat) : ∀ c ∈ Decimal.paddedNatural 2 n, IsKeyCharacter c :=
    fun _ => isKeyCharacter_of_mem_paddedNatural
  simp only [Key.text, keyText, Decimal.writtenInt, Decimal.paddedInt, Moment.padded, year, counter,
    if_false, List.nil_append, Int.natAbs_natCast, String.toList_append, String.toList_ofList,
    List.forall_mem_append, and_assoc]
  exact ⟨natural _, mark, padded _, mark, padded _, mark, padded _, padded _, padded _, mark,
    padded _⟩

theorem isKeyCharacter_of_matchesPattern
    {pattern text : List Char} (marks : ∀ p ∈ pattern, p = 'd' ∨ p = '_')
    (matched : matchesPattern pattern text = true) :
    ∀ c ∈ text, IsKeyCharacter c := by
  induction pattern generalizing text with
  | nil =>
      cases text with
      | nil => exact List.forall_mem_nil _
      | cons c rest => cases matched
  | cons p others hypothesis =>
      cases text with
      | nil => cases matched
      | cons c rest =>
          rw [matchesPattern, Bool.and_eq_true] at matched
          rw [List.forall_mem_cons] at marks ⊢
          refine ⟨?_, hypothesis marks.2 matched.2⟩
          rcases marks.1 with rfl | rfl
          · exact .inl (by simpa using matched.1)
          · exact .inr (by simpa using matched.1)

theorem isKeyCharacter_of_splitKey?
    {text moment : List Char} {counter : Option (List Char)}
    (found : splitKey? text = some (moment, counter)) :
    ∀ c ∈ text, IsKeyCharacter c := by
  obtain ⟨shape, rest⟩ := splitKey?_spec found
  have marks : ∀ p ∈ momentPattern, p = 'd' ∨ p = '_' := by
    have all : momentPattern.all (fun p => p == 'd' || p == '_') = true := by decide
    simpa using all
  have inMoment := isKeyCharacter_of_matchesPattern marks shape
  rcases rest with ⟨_, rfl⟩ | ⟨first, second, _, rfl, firstDigit, secondDigit⟩
  · exact inMoment
  · rw [List.forall_mem_append]
    refine ⟨inMoment, ?_⟩
    simp [IsKeyCharacter, firstDigit, secondDigit]

/-- What splits as a key has no line end. -/
theorem withoutLineEnd_of_splitKey?
    {text moment : List Char} {counter : Option (List Char)}
    (found : splitKey? text = some (moment, counter)) : Text.withoutLineEnd text = text := by
  refine withoutLineEnd_of_getLast? fun ended => ?_
  have character := isKeyCharacter_of_splitKey? found '\n' (List.mem_of_getLast? ended)
  exact absurd character (by decide)

theorem isKeyCharacter_of_ofFileName?
    {name table key : String} (read : ofFileName? name = some (table, key)) :
    ∀ c ∈ key.toList, IsKeyCharacter c := by
  obtain ⟨⟨⟨moment, counter⟩, split⟩, -⟩ := spec_of_ofFileName? read
  exact isKeyCharacter_of_splitKey? split

/-! ## Keys of tables -/

namespace Sequence

theorem existingKeys_concat (names : List String) (name : String) :
    existingKeys (names ++ [name]) =
      match ofFileName? name with
      | some (table, key) => Keyed.put (existingKeys names) table key
      | none => existingKeys names := by
  rw [existingKeys, existingKeys, List.filterMap_append, Keyed.ofList, Keyed.ofList,
    List.foldl_append]
  cases read : ofFileName? name with
  | none => simp [read]
  | some pair => simp [read]

/-- The last of the names that are migrations of a table gives a key. -/
def IsLatest (names : List String) (table key : String) : Prop :=
  ∃ name ∈ names, ofFileName? name = some (table, key) ∧
    ∀ other ∈ names, ∀ another, ofFileName? other = some (table, another) → other ≤ name

theorem IsLatest.unique
    {names : List String} {table first second : String} (latest : IsLatest names table first)
    (again : IsLatest names table second) : first = second := by
  obtain ⟨name, member, read, greatest⟩ := latest
  obtain ⟨other, otherMember, otherRead, otherGreatest⟩ := again
  have same : name = other :=
    le_antisymm (otherGreatest name member first read) (greatest other otherMember second otherRead)
  subst same
  rw [read] at otherRead
  exact (Prod.mk.inj (Option.some.inj otherRead)).2

theorem get?_existingKeys_eq_none_iff {names : List String} {table : String} :
    Keyed.get? (existingKeys names) table = none ↔
      ∀ name ∈ names, ∀ key, ofFileName? name ≠ some (table, key) := by
  induction names using List.reverseRecOn with
  | nil => simp [existingKeys, Keyed.ofList, Keyed.get?]
  | append_singleton names name hypothesis =>
      rw [existingKeys_concat, List.forall_mem_append, List.forall_mem_singleton, ← hypothesis]
      cases read : ofFileName? name with
      | none => simp
      | some pair =>
          obtain ⟨other, key⟩ := pair
          simp only [Keyed.get?_put, ne_eq, Option.some.injEq, Prod.mk.injEq, not_and]
          split_ifs with same
          · simp [same]
          · simp [same]

theorem isLatest_of_get?
    {names : List String} (sorted : names.Pairwise (· ≤ ·)) {table key : String}
    (found : Keyed.get? (existingKeys names) table = some key) :
    IsLatest names table key := by
  induction names using List.reverseRecOn with
  | nil => cases found
  | append_singleton names name hypothesis =>
      rw [List.pairwise_append] at sorted
      obtain ⟨sortedNames, _, below⟩ := sorted
      rw [existingKeys_concat] at found
      have earlier (found : Keyed.get? (existingKeys names) table = some key)
          (notLast : ∀ another, ofFileName? name ≠ some (table, another)) :
          IsLatest (names ++ [name]) table key := by
        obtain ⟨first, member, read, greatest⟩ := hypothesis sortedNames found
        refine ⟨first, List.mem_append_left _ member, read, fun other among another otherRead => ?_⟩
        rcases List.mem_append.mp among with old | last
        · exact greatest other old another otherRead
        · rw [List.mem_singleton.mp last] at otherRead
          exact absurd otherRead (notLast another)
      cases read : ofFileName? name with
      | none =>
          rw [read] at found
          exact earlier found (by simp [read])
      | some pair =>
          obtain ⟨other, last⟩ := pair
          simp only [read, Keyed.get?_put] at found
          split_ifs at found with same
          · cases found
            refine ⟨name, by simp, by rw [read, same], fun another among _ _ => ?_⟩
            rcases List.mem_append.mp among with old | here
            · exact below another old name (by simp)
            · exact (List.mem_singleton.mp here).le
          · exact earlier found (by simp [read, same])

/-- The last migration of a table gives its key. -/
theorem get?_existingKeys_eq_some_iff
    {names : List String} (sorted : names.Pairwise (· ≤ ·)) {table key : String} :
    Keyed.get? (existingKeys names) table = some key ↔ IsLatest names table key := by
  refine ⟨isLatest_of_get? sorted, fun latest => ?_⟩
  cases found : Keyed.get? (existingKeys names) table with
  | none =>
      obtain ⟨name, member, read, _⟩ := latest
      exact absurd read (get?_existingKeys_eq_none_iff.mp found name member key)
  | some other => rw [(isLatest_of_get? sorted found).unique latest]

/-- A table keeps its key when only the file that the key names is added. -/
theorem get?_existingKeys_of_added
    {earlier later : List String} (earlierSorted : earlier.Pairwise (· ≤ ·))
    (laterSorted : later.Pairwise (· ≤ ·)) (more : earlier ⊆ later) {table key : String}
    (kept : ∀ known, Keyed.get? (existingKeys earlier) table = some known → known = key)
    (named : fileName key table ∈ later)
    (read : ofFileName? (fileName key table) = some (table, key))
    (added : ∀ name ∈ later, name ∉ earlier → ∀ other, ofFileName? name = some (table, other) →
      other = key) :
    Keyed.get? (existingKeys later) table = some key := by
  cases found : Keyed.get? (existingKeys later) table with
  | none => exact absurd read (get?_existingKeys_eq_none_iff.mp found _ named key)
  | some other =>
      obtain ⟨name, member, nameRead, greatest⟩ := isLatest_of_get? laterSorted found
      by_cases old : name ∈ earlier
      · rw [kept other]
        refine (get?_existingKeys_eq_some_iff earlierSorted).mpr ⟨name, old, nameRead, ?_⟩
        exact fun another among => greatest another (more among)
      · rw [added name member old other nameRead]

end Sequence

end Scaffold.Migration
