import Scaffold.Proofs.Migration.FileNames
import Scaffold.Proofs.Migration.KeySupply

/-!
# Keys that name no date

What spells a key need not name a date, so the key of a migration file may not be readable.  The
keys of a folder are observed to their end exactly if each of them names a date.
-/

namespace Scaffold.Migration

/-! ## Spellings of dates -/

/--
Two digits that spell a number as dates are read: the first digit is an ASCII one, and the second
one may be of another script only behind certain first digits.
-/
def IsField (leading : List Char) (value : Nat) (text : List Char) : Prop :=
  ∃ first second, text = [first, second] ∧ first.isDigit = true ∧
    Text.isDecimalDigit second = true ∧ (second.isDigit = true ∨ first ∈ leading) ∧
      numberOf text = value

/--
A text spells a moment.  Where every second digit is possible it may be of any script: in the year,
in a day behind `1` or `2`, in an hour behind `0` or `1`, in a minute and in a second.
-/
inductive Moment.IsSpelledBy (moment : Moment) : List Char → Prop where
  | intro {year month day hour minute second : List Char}
      (years : IsDigits Text.isDecimalDigit 4 year) (spelled : numberOf year = moment.year)
      (months : IsField [] moment.month month) (days : IsField ['1', '2'] moment.day day)
      (hours : IsField ['0', '1'] moment.hour hour)
      (minutes : IsField ['0', '1', '2', '3', '4', '5'] moment.minute minute)
      (seconds : IsField ['0', '1', '2', '3', '4', '5'] moment.second second) :
      IsSpelledBy moment
        (year ++ '_' :: (month ++ '_' :: (day ++ '_' :: (hour ++ (minute ++ second)))))

/-- A key names a moment that the calendar has. -/
def NamesDate (key : String) : Prop :=
  ∃ (moment : Moment) (text : List Char),
    moment.IsReal ∧ moment.IsSpelledBy text ∧ text <+: key.toList

theorem plainDigits_iff {first second : Char} :
    plainDigits [first, second] = true ↔
      first ∈ ['0', '1', '2', '3', '4', '5'] ∧ Text.isDecimalDigit second = true := by
  unfold plainDigits
  split <;> simp_all

theorem numberOf_pair (first second : Char) :
    numberOf [first, second] =
      (Text.digitValue? first).getD 0 * 10 + (Text.digitValue? second).getD 0 := by
  simp [numberOf]

/-- An ASCII digit in the first place of a number below sixty is at most five. -/
theorem mem_of_numberOf_lt {first second : Char} (digit : first.isDigit = true)
    (small : numberOf [first, second] < 60) : first ∈ ['0', '1', '2', '3', '4', '5'] := by
  rw [numberOf_pair] at small
  have spelled := digitChar_value digit
  have tens : (Text.digitValue? first).getD 0 < 6 := by omega
  -- The value determines the digit, so there are six cases.
  generalize (Text.digitValue? first).getD 0 = value at spelled tens
  interval_cases value <;> (rw [← spelled]; decide)

theorem isDigit_of_mem {first : Char} (member : first ∈ ['0', '1', '2', '3', '4', '5']) :
    first.isDigit = true := by
  simp only [List.mem_cons, List.not_mem_nil, or_false] at member
  rcases member with rfl | rfl | rfl | rfl | rfl | rfl <;> rfl

theorem isField_iff {leading : List Char} {value : Nat} {first second : Char} (small : value < 60) :
    IsField leading value [first, second] ↔
      plainDigits [first, second] = true ∧
        (first ∈ leading ∨ asciiDigits [first, second] = true) ∧
          numberOf [first, second] = value := by
  rw [plainDigits_iff]
  constructor
  · rintro ⟨_, _, ⟨⟩, digit, decimal, ascii | among, rfl⟩
    · exact ⟨⟨mem_of_numberOf_lt digit small, decimal⟩, .inr (by simp [asciiDigits, digit, ascii]),
        rfl⟩
    · exact ⟨⟨mem_of_numberOf_lt digit small, decimal⟩, .inl among, rfl⟩
  · rintro ⟨⟨member, decimal⟩, among | ascii, rfl⟩
    · exact ⟨first, second, rfl, isDigit_of_mem member, decimal, .inr among, rfl⟩
    · simp only [asciiDigits, List.all_cons, List.all_nil, Bool.and_true, Bool.and_eq_true] at ascii
      exact ⟨first, second, rfl, ascii.1, decimal, .inl ascii.2, rfl⟩

theorem isField_nil_iff {value : Nat} {first second : Char} :
    IsField [] value [first, second] ↔
      asciiDigits [first, second] = true ∧ numberOf [first, second] = value := by
  simp only [asciiDigits, List.all_cons, List.all_nil, Bool.and_true, Bool.and_eq_true]
  constructor
  · rintro ⟨_, _, ⟨⟩, digit, decimal, ascii | none, rfl⟩
    · exact ⟨⟨digit, ascii⟩, rfl⟩
    · cases none
  · rintro ⟨⟨digit, ascii⟩, rfl⟩
    exact ⟨first, second, rfl, digit, isDecimalDigit_of_isDigit ascii, .inl ascii, rfl⟩

theorem isField_all_iff {value : Nat} {first second : Char} (small : value < 60) :
    IsField ['0', '1', '2', '3', '4', '5'] value [first, second] ↔
      plainDigits [first, second] = true ∧ numberOf [first, second] = value := by
  rw [isField_iff small]
  constructor
  · exact fun ⟨plain, _, spelled⟩ => ⟨plain, spelled⟩
  · exact fun ⟨plain, spelled⟩ => ⟨plain, .inl (plainDigits_iff.mp plain).1, spelled⟩

/-- What a moment is read from, field by field. -/
theorem momentOf?_fields_eq_some_iff {y₁ y₂ y₃ y₄ m₁ m₂ d₁ d₂ h₁ h₂ n₁ n₂ s₁ s₂ : Char}
    {moment : Moment} :
    momentOf? [y₁, y₂, y₃, y₄, '_', m₁, m₂, '_', d₁, d₂, '_', h₁, h₂, n₁, n₂, s₁, s₂] =
        some moment ↔
      moment.IsReal ∧ numberOf [y₁, y₂, y₃, y₄] = moment.year ∧
        IsField [] moment.month [m₁, m₂] ∧ IsField ['1', '2'] moment.day [d₁, d₂] ∧
          IsField ['0', '1'] moment.hour [h₁, h₂] ∧
            IsField ['0', '1', '2', '3', '4', '5'] moment.minute [n₁, n₂] ∧
              IsField ['0', '1', '2', '3', '4', '5'] moment.second [s₁, s₂] := by
  have small (real : moment.IsReal) :
      moment.day < 60 ∧ moment.hour < 60 ∧ moment.minute < 60 ∧ moment.second < 60 := by
    have days := daysInMonth_le moment.year moment.month
    obtain ⟨-, -, ⟨_, _⟩, _, _, _⟩ := real
    omega
  unfold momentOf?
  simp only [List.take, List.drop, List.head?_cons, Option.any_some, Option.ite_none_right_eq_some,
    Bool.and_eq_true, Bool.or_eq_true, List.contains_iff_mem, decide_eq_true_eq, Option.some.injEq]
  constructor
  · rintro ⟨⟨⟨⟨⟨⟨⟨⟨month, day⟩, hour⟩, minute⟩, second⟩, openDay⟩, openHour⟩, real⟩, rfl⟩
    obtain ⟨smallDay, smallHour, smallMinute, smallSecond⟩ := small real
    exact ⟨real, rfl, isField_nil_iff.mpr ⟨month, rfl⟩,
      (isField_iff smallDay).mpr ⟨day, openDay, rfl⟩,
      (isField_iff smallHour).mpr ⟨hour, openHour, rfl⟩,
      (isField_all_iff smallMinute).mpr ⟨minute, rfl⟩,
      (isField_all_iff smallSecond).mpr ⟨second, rfl⟩⟩
  · rintro ⟨real, year, months, days, hours, minutes, seconds⟩
    obtain ⟨smallDay, smallHour, smallMinute, smallSecond⟩ := small real
    obtain ⟨month, monthValue⟩ := isField_nil_iff.mp months
    obtain ⟨day, openDay, dayValue⟩ := (isField_iff smallDay).mp days
    obtain ⟨hour, openHour, hourValue⟩ := (isField_iff smallHour).mp hours
    obtain ⟨minute, minuteValue⟩ := (isField_all_iff smallMinute).mp minutes
    obtain ⟨second, secondValue⟩ := (isField_all_iff smallSecond).mp seconds
    rw [year, monthValue, dayValue, hourValue, minuteValue, secondValue]
    exact ⟨⟨⟨⟨⟨⟨⟨⟨month, day⟩, hour⟩, minute⟩, second⟩, openDay⟩, openHour⟩, real⟩, rfl⟩

theorem IsDigits.exists_four {digit : Char → Bool} {text : List Char}
    (digits : IsDigits digit 4 text) : ∃ a b c d, text = [a, b, c, d] := by
  obtain ⟨length, -⟩ := digits
  rcases text with _ | ⟨a, _ | ⟨b, _ | ⟨c, _ | ⟨d, _ | ⟨_, _⟩⟩⟩⟩⟩ <;> simp at length
  exact ⟨a, b, c, d, rfl⟩

theorem Moment.IsSpelledBy.length_eq {moment : Moment} {text : List Char}
    (spelled : moment.IsSpelledBy text) : text.length = momentPattern.length := by
  obtain ⟨years, -, ⟨_, _, rfl, -⟩, ⟨_, _, rfl, -⟩, ⟨_, _, rfl, -⟩, ⟨_, _, rfl, -⟩,
    ⟨_, _, rfl, -⟩⟩ := spelled
  simp only [List.length_append, List.length_cons, years.1, List.length_nil, momentPattern_eq]

/-- A moment is read from the texts that spell it. -/
theorem momentOf?_eq_some_iff {text : List Char} {moment : Moment}
    (shape : IsMomentSpelling Text.isDecimalDigit text) :
    momentOf? text = some moment ↔ moment.IsReal ∧ moment.IsSpelledBy text := by
  constructor
  · intro found
    obtain ⟨y₁, y₂, y₃, y₄, m₁, m₂, d₁, d₂, h₁, h₂, n₁, n₂, s₁, s₂, rfl, decimal⟩ :=
      exists_of_matchesPattern_moment (matchesPattern_moment_iff.mpr shape)
    obtain ⟨real, year, fields⟩ := momentOf?_fields_eq_some_iff.mp found
    have years : IsDigits Text.isDecimalDigit 4 [y₁, y₂, y₃, y₄] :=
      ⟨rfl, fun c member => decimal c (by simp at member ⊢; tauto)⟩
    exact ⟨real, .intro years year fields.1 fields.2.1 fields.2.2.1 fields.2.2.2.1
      fields.2.2.2.2⟩
  · rintro ⟨real, spelled⟩
    obtain ⟨years, year, months, days, hours, minutes, seconds⟩ := spelled
    obtain ⟨y₁, y₂, y₃, y₄, rfl⟩ := years.exists_four
    have ⟨m₁, m₂, sameMonth, _⟩ := months
    have ⟨d₁, d₂, sameDay, _⟩ := days
    have ⟨h₁, h₂, sameHour, _⟩ := hours
    have ⟨n₁, n₂, sameMinute, _⟩ := minutes
    have ⟨s₁, s₂, sameSecond, _⟩ := seconds
    subst sameMonth sameDay sameHour sameMinute sameSecond
    exact momentOf?_fields_eq_some_iff.mpr ⟨real, year, months, days, hours, minutes, seconds⟩

/-! ## Reading the keys of files -/

/-- What spells a key is read if it names a date, and refused for the date alone otherwise. -/
theorem Key.read_of_isKeySpelling {key : String}
    (spelled : IsKeySpelling Text.isDecimalDigit key.toList) :
    (NamesDate key ∧ ∃ read, Key.read key = .ok read) ∨
      ¬ NamesDate key ∧ Key.read key = .error .noSuchDate := by
  obtain ⟨⟨moment, counter⟩, split⟩ := exists_splitKey?_iff.mpr spelled
  obtain ⟨shape, parts⟩ := splitKey?_eq_some_iff.mp split
  have front : moment <+: key.toList := by
    rcases parts with ⟨-, same⟩ | ⟨digits, -, -, same⟩
    · exact same ▸ List.prefix_refl _
    · exact same ▸ List.prefix_append _ _
  have names : NamesDate key ↔ ∃ found, momentOf? moment = some found := by
    simp only [momentOf?_eq_some_iff shape]
    constructor
    · rintro ⟨found, text, real, spelledBy, starts⟩
      have same : text = moment := by
        refine List.IsPrefix.eq_of_length
          (List.prefix_of_prefix_length_le starts front ?_) ?_
        · exact (spelledBy.length_eq.trans shape.length_eq.symm).le
        · exact spelledBy.length_eq.trans shape.length_eq.symm
      exact ⟨found, real, same ▸ spelledBy⟩
    · rintro ⟨found, real, spelledBy⟩
      exact ⟨found, moment, real, spelledBy, front⟩
  rw [Key.read, withoutLineEnd_of_splitKey? split, split]
  dsimp only
  cases found : momentOf? moment with
  | none => exact .inr ⟨by simp [names, found], rfl⟩
  | some real => exact .inl ⟨names.mpr ⟨real, found⟩, _, rfl⟩

/-- The keys of existing migrations are spelled by decimal digits. -/
theorem isKeySpelling_of_mem_existingKeys {names : List String} {table key : String}
    (member : (table, key) ∈ Sequence.existingKeys names) :
    IsKeySpelling Text.isDecimalDigit key.toList := by
  rw [Sequence.existingKeys, Keyed.mem_ofList_iff, Option.map_eq_some_iff] at member
  obtain ⟨⟨other, _⟩, found, rfl⟩ := member
  obtain ⟨name, -, read⟩ :=
    List.mem_filterMap.mp (List.mem_reverse.mp (List.mem_of_find?_eq_some found))
  exact (ofFileName?_eq_some_iff.mp read).keyed

theorem isKeySpelling_of_keysIn {tree : Disk.Tree} {folder : Disk.Path} {existing : Keyed String}
    (found : keysIn tree folder = .ok existing) :
    ∀ text ∈ existing.map (·.2), IsKeySpelling Text.isDecimalDigit text.toList := by
  intro text member
  obtain ⟨⟨table, key⟩, among, rfl⟩ := List.mem_map.mp member
  rw [keysIn] at found
  cases isFolder : tree.isFolder folder with
  | error error =>
      rw [isFolder] at found
      cases found
  | ok isThere =>
      rw [isFolder] at found
      cases isThere with
      | false =>
          obtain rfl := Except.ok.inj found
          cases among
      | true =>
          obtain rfl := Except.ok.inj found
          exact isKeySpelling_of_mem_existingKeys among

/-! ## Observing the keys of files -/

namespace Sequence

/-- What a sequence is after the keys of texts were observed for a module. -/
structure Follows (sequence : Sequence) (module : String) (texts : List String)
    (observed : Sequence) : Prop where
  clock : observed.clock = sequence.clock
  others : ∀ other, other ≠ module → Keyed.get? observed.last other = Keyed.get? sequence.last other
  real : observed.HasRealKeys
  /-- Later keys come after every key that was observed. -/
  reached : ∀ text ∈ texts, observed.Reached module text
  kept : ∀ known ∈ Keyed.get? sequence.last module, ∃ last,
    Keyed.get? observed.last module = some last ∧ known.number ≤ last.number
  /-- The last key is one of the observed keys, or they were all ignored. -/
  last : Keyed.get? observed.last module = Keyed.get? sequence.last module ∨
    ∃ text ∈ texts, ∃ key, Key.read text = .ok key ∧ Keyed.get? observed.last module = some key

theorem Follows.cons {sequence observed : Sequence} {module text : String}
    {texts : List String} {key : Key} (realKeys : sequence.HasRealKeys)
    (read : Key.read text = .ok key)
    (follows : (sequence.observeKey module key).Follows module texts observed) :
    sequence.Follows module (text :: texts) observed := by
  obtain ⟨-, ⟨last, found, reached, kept, either⟩, others⟩ :=
    observeKey_of_hasRealKeys module realKeys (Key.read_spec read).1
  obtain ⟨final, finalFound, finalKept⟩ := follows.kept last found
  refine ⟨follows.clock.trans (clock_observeKey _ _ _), fun other apart => ?_, follows.real,
    List.forall_mem_cons.mpr ⟨?_, follows.reached⟩, fun known member => ?_, ?_⟩
  · exact (follows.others other apart).trans (others other apart)
  · exact ⟨key, final, read, finalFound, reached.trans finalKept⟩
  · exact ⟨final, finalFound, (kept known member).trans finalKept⟩
  · rcases follows.last with same | ⟨other, among, rest⟩
    · rw [found] at same
      rcases either with rfl | old
      · exact .inr ⟨text, List.mem_cons_self, last, read, same⟩
      · exact .inl (same.trans old.symm)
    · exact .inr ⟨other, List.mem_cons_of_mem _ among, rest⟩

/-- The keys of texts are observed to the end if each of them names a date. -/
theorem observeAll_of_namesDate (module : String) {texts : List String}
    (spelled : ∀ text ∈ texts, IsKeySpelling Text.isDecimalDigit text.toList)
    (named : ∀ text ∈ texts, NamesDate text) {sequence : Sequence}
    (realKeys : sequence.HasRealKeys) :
    ∃ observed, sequence.observeAll module texts = (none, observed) ∧
      sequence.Follows module texts observed := by
  induction texts generalizing sequence with
  | nil =>
      refine ⟨sequence, rfl, rfl, fun _ _ => rfl, realKeys, List.forall_mem_nil _,
        fun known member => ⟨known, member, le_refl _⟩, .inl rfl⟩
  | cons text rest hypothesis =>
      obtain ⟨here, later⟩ := List.forall_mem_cons.mp spelled
      obtain ⟨namedHere, namedLater⟩ := List.forall_mem_cons.mp named
      rcases Key.read_of_isKeySpelling here with ⟨-, key, read⟩ | ⟨unnamed, -⟩
      · have real := (observeKey_of_hasRealKeys module realKeys (Key.read_spec read).1).1
        obtain ⟨observed, run, follows⟩ := hypothesis later namedLater real
        refine ⟨observed, ?_, follows.cons realKeys read⟩
        rw [observeAll_cons, observe, read]
        exact run
      · exact absurd namedHere unnamed

/-- Observing the keys of texts stops at one that names no date, and at nothing else. -/
theorem observeAll_of_not_namesDate (module : String) {texts : List String}
    (spelled : ∀ text ∈ texts, IsKeySpelling Text.isDecimalDigit text.toList)
    (unnamed : ∃ text ∈ texts, ¬ NamesDate text) (sequence : Sequence) :
    (sequence.observeAll module texts).1 = some .noSuchDate := by
  induction texts generalizing sequence with
  | nil =>
      obtain ⟨text, member, -⟩ := unnamed
      cases member
  | cons text rest hypothesis =>
      obtain ⟨here, later⟩ := List.forall_mem_cons.mp spelled
      rw [observeAll_cons, observe]
      rcases Key.read_of_isKeySpelling here with ⟨named, key, read⟩ | ⟨-, refused⟩
      · rw [read]
        refine hypothesis later ?_ _
        obtain ⟨other, member, otherUnnamed⟩ := unnamed
        rcases List.mem_cons.mp member with rfl | among
        · exact absurd named otherUnnamed
        · exact ⟨other, among, otherUnnamed⟩
      · rw [refused]
        rfl

end Sequence

end Scaffold.Migration
