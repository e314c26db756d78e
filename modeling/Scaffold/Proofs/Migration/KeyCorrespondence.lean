import Mathlib.Data.Bool.AllAny
import Scaffold.Proofs.Migration.FileNames

/-!
# Keys and their texts correspond

The text of a key gives the key back, and texts come in the order of the keys.  In the other
direction, digits in the places of a key are read exactly if they spell a real date and time of day,
and every text with a counter that is read in this way is the text of the key that it gives.
-/

namespace Scaffold.Migration

/-! ## The order of texts -/

/-- Printed keys come in the order of their texts. -/
theorem Key.text_lt_text_iff {left right : Key} (leftPrinted : left.IsPrinted)
    (rightPrinted : right.IsPrinted) : left.text < right.text ↔ left.before right = true := by
  have increases {earlier later : Key} (earlierPrinted : earlier.IsPrinted)
      (laterPrinted : later.IsPrinted) (less : earlier.number < later.number) :
      earlier.text < later.text := by
    have texts := Key.toList_append_lt_of_read (Key.read_text earlierPrinted)
      (Key.asciiDigits_text earlierPrinted) laterPrinted less [] []
    rw [List.append_nil, List.append_nil] at texts
    exact String.lt_iff.mpr texts
  rw [Key.before_iff leftPrinted.toIsReal rightPrinted.toIsReal]
  constructor
  · intro less
    by_contra notLess
    rcases Nat.lt_or_eq_of_le (Nat.not_lt.mp notLess) with greater | equal
    · exact lt_asymm less (increases rightPrinted leftPrinted greater)
    · rw [Key.eq_of_number_eq rightPrinted.toIsReal leftPrinted.toIsReal equal] at less
      exact lt_irrefl _ less
  · exact increases leftPrinted rightPrinted

/-! ## Digits in the places of a key -/

/-- A number of a fixed width in ASCII digits. -/
def Digits (width : Nat) : Type :=
  { digits : List Char // IsDigits Char.isDigit width digits }

/-- The number that digits spell. -/
def Digits.value {width : Nat} (digits : Digits width) : Nat :=
  Nat.ofDigitChars 10 digits.val 0

/-- Digits in the places of a key: a date, a time of day and a counter. -/
structure KeyDigits where
  year : Digits 4
  month : Digits 2
  day : Digits 2
  hour : Digits 2
  minute : Digits 2
  second : Digits 2
  counter : Digits 2

theorem numberOf_eq_ofDigitChars {digits : List Char} (ascii : ∀ c ∈ digits, c.isDigit = true) :
    numberOf digits = Nat.ofDigitChars 10 digits 0 := by
  rw [numberOf, Nat.ofDigitChars]
  refine List.foldl_ext _ _ _ fun value c member => ?_
  rw [digitValue?_of_isDigit (ascii c member), Nat.mul_comm]
  rfl

namespace Digits

variable {width : Nat} (digits : Digits width)

theorem numberOf_val : numberOf digits.val = digits.value :=
  numberOf_eq_ofDigitChars digits.property.2

theorem lastDigits_value : lastDigits width digits.value = digits.val := by
  have spelled := lastDigits_numberOf digits.property.2
  rw [digits.property.1, numberOf_val] at spelled
  exact spelled

theorem value_lt : digits.value < 10 ^ width := by
  have bound := numberOf_lt digits.val
  rw [digits.property.1, numberOf_val] at bound
  exact bound

theorem numberOf_lastDigits_value : numberOf (lastDigits width digits.value) = digits.value := by
  rw [lastDigits_value, numberOf_val]

end Digits

namespace KeyDigits

/-- The moment that digits spell, which the calendar need not have. -/
def moment (digits : KeyDigits) : Moment where
  year := digits.year.value
  month := digits.month.value
  day := digits.day.value
  hour := digits.hour.value
  minute := digits.minute.value
  second := digits.second.value

/-- The key that digits spell. -/
def key (digits : KeyDigits) : Key :=
  ⟨digits.moment, digits.counter.value⟩

/-- The digits of the moment with the marks between them. -/
def stamp (digits : KeyDigits) : List Char :=
  digits.year.val ++ '_' :: (digits.month.val ++ '_' :: (digits.day.val ++ '_' ::
    (digits.hour.val ++ (digits.minute.val ++ digits.second.val))))

/-- The text of the digits, with a mark before the counter. -/
def text (digits : KeyDigits) : String :=
  String.ofList (digits.stamp ++ '_' :: digits.counter.val)

variable (digits : KeyDigits)

theorem stamp_moment : digits.moment.stamp = digits.stamp := by
  simp only [Moment.stamp, moment, Digits.lastDigits_value, stamp]

/-- The digits of a moment are read if the calendar has the moment. -/
theorem momentOf?_stamp :
    momentOf? digits.stamp = if digits.moment.IsReal then some digits.moment else none := by
  rw [← stamp_moment]
  split_ifs with real
  · exact Migration.momentOf?_stamp real
  · rw [Option.eq_none_iff_forall_ne_some]
    intro found reads
    obtain ⟨foundReal, fields⟩ := momentOf?_spec reads
    have same : found = digits.moment := by
      rw [fields]
      change Moment.mk (numberOf (lastDigits 4 digits.year.value))
        (numberOf (lastDigits 2 digits.month.value)) (numberOf (lastDigits 2 digits.day.value))
        (numberOf (lastDigits 2 digits.hour.value)) (numberOf (lastDigits 2 digits.minute.value))
        (numberOf (lastDigits 2 digits.second.value)) = _
      simp only [Digits.numberOf_lastDigits_value, moment]
    exact real (same ▸ foundReal)

theorem splitKey?_text :
    splitKey? digits.text.toList = some (digits.stamp, some digits.counter.val) := by
  have shape : IsMomentSpelling Text.isDecimalDigit digits.stamp := by
    rw [← matchesPattern_moment_iff, ← stamp_moment]
    exact Moment.matchesPattern_stamp _
  have counter : IsDigits Text.isDecimalDigit 2 digits.counter.val :=
    digits.counter.property.mono fun _ => isDecimalDigit_of_isDigit
  rw [text, String.toList_ofList, splitKey?_eq_some_iff]
  exact ⟨shape, .inr ⟨_, rfl, counter, rfl⟩⟩

/-- Digits are read if they spell a date and a time of day, and refused for the date otherwise. -/
theorem read_text :
    Key.read digits.text =
      if digits.moment.IsReal then .ok digits.key else .error .noSuchDate := by
  rw [Key.read, withoutLineEnd_of_splitKey? digits.splitKey?_text, splitKey?_text]
  dsimp only
  rw [momentOf?_stamp]
  split_ifs with real
  · dsimp only
    rw [Option.map_some, Option.getD_some, Digits.numberOf_val, key]
  · rfl

/-- The text of the key that digits spell is the text of the digits. -/
theorem text_key (real : digits.moment.IsReal) (year : 1000 ≤ digits.moment.year) :
    digits.key.text = digits.text := by
  have counter : digits.counter.value ≤ maxCounter := Nat.le_of_lt_succ digits.counter.value_lt
  have printed : digits.key.IsPrinted := ⟨⟨real, counter⟩, year⟩
  rw [← String.toList_inj, Key.toList_text printed, text, String.toList_ofList, key, stamp_moment,
    Digits.lastDigits_value]

end KeyDigits

/-! ## Texts that are read -/

theorem IsDigits.split {digit : Char → Bool} {text : List Char} (first second : Nat)
    (digits : IsDigits digit (first + second) text) :
    IsDigits digit first (text.take first) ∧ IsDigits digit second (text.drop first) := by
  obtain ⟨length, each⟩ := digits
  refine ⟨⟨?_, fun c member => each c (List.mem_of_mem_take member)⟩,
    ⟨?_, fun c member => each c (List.mem_of_mem_drop member)⟩⟩
  · rw [List.length_take, length]
    omega
  · rw [List.length_drop, length]
    omega

/-- A text with a counter that is read as a key has ASCII digits in the places of a key. -/
theorem exists_text_eq_of_read {text : String} {key : Key} (reads : Key.read text = .ok key)
    (ascii : AsciiDigits text.toList) (noLineEnd : text.toList.getLast? ≠ some '\n')
    (counted : momentPattern.length < text.toList.length) :
    ∃ digits : KeyDigits, digits.text = text := by
  rw [Key.read, withoutLineEnd_of_getLast? noLineEnd] at reads
  cases split : splitKey? text.toList with
  | none =>
      rw [split] at reads
      cases reads
  | some parts =>
      obtain ⟨moment, counter⟩ := parts
      obtain ⟨shape, ⟨-, plain⟩ | ⟨digits, -, isCounter, spelled⟩⟩ := splitKey?_eq_some_iff.mp split
      · rw [plain, shape.length_eq] at counted
        exact absurd counted (lt_irrefl _)
      · obtain ⟨years, months, days, times⟩ := shape
        have plain {count : Nat} {part : List Char}
            (decimal : IsDigits Text.isDecimalDigit count part)
            (within : part ⊆ text.toList) : IsDigits Char.isDigit count part :=
          ⟨decimal.1, fun c member => ascii c (within member) (decimal.2 c member)⟩
        rw [spelled] at plain
        obtain ⟨hours, rest⟩ := IsDigits.split 2 4 (plain times (by intro c member; simp [member]))
        obtain ⟨minutes, seconds⟩ := IsDigits.split 2 2 rest
        refine ⟨⟨⟨_, plain years ?_⟩, ⟨_, plain months ?_⟩, ⟨_, plain days ?_⟩, ⟨_, hours⟩,
          ⟨_, minutes⟩, ⟨_, seconds⟩, ⟨_, plain isCounter ?_⟩⟩, ?_⟩
        on_goal 5 =>
          rw [← String.toList_inj, KeyDigits.text, String.toList_ofList, spelled]
          simp only [KeyDigits.stamp, List.take_append_drop]
        all_goals
          intro c member
          simp [member]

/--
Keys correspond to their texts.  A printed key is read back from its text, and printed keys come in
the order of their texts.  A text in ASCII digits with a counter and without a line end is the text
of the key that is read from it, unless the year has zeros in front.  Digits in the places of a key
are read exactly if they spell a moment of the calendar, and give the key that they spell.
-/
theorem keys_correspond :
    (∀ key : Key, key.IsPrinted → Key.read key.text = .ok key) ∧
    (∀ left right : Key, left.IsPrinted → right.IsPrinted →
      (left.text < right.text ↔ left.before right = true)) ∧
    (∀ text key, Key.read text = .ok key → AsciiDigits text.toList →
      text.toList.getLast? ≠ some '\n' → momentPattern.length < text.toList.length →
        1000 ≤ key.moment.year → key.text = text) ∧
    ∀ digits : KeyDigits, ((∃ key, Key.read digits.text = .ok key) ↔ digits.moment.IsReal) ∧
      ∀ key, Key.read digits.text = .ok key → key = digits.key := by
  refine ⟨fun key => Key.read_text, fun left right => Key.text_lt_text_iff, ?_, ?_⟩
  · intro text key reads ascii noLineEnd counted year
    obtain ⟨digits, rfl⟩ := exists_text_eq_of_read reads ascii noLineEnd counted
    rw [KeyDigits.read_text] at reads
    split_ifs at reads with real
    cases reads
    exact digits.text_key real year
  · intro digits
    rw [KeyDigits.read_text]
    split_ifs with real
    · exact ⟨iff_of_true ⟨_, rfl⟩ real, fun key reads => (Except.ok.inj reads).symm⟩
    · exact ⟨iff_of_false nofun real, nofun⟩

theorem keys_correspond_on_leap_day :
    let last : Key := ⟨⟨2024, 2, 29, 23, 59, 59⟩, 99⟩
    let next : Key := ⟨⟨2024, 3, 1, 0, 0, 0⟩, 0⟩
    Key.read last.text = .ok last ∧ last.text < next.text ∧ last.text = "2024_02_29_235959_99" := by
  have lastPrinted : Key.IsPrinted ⟨⟨2024, 2, 29, 23, 59, 59⟩, 99⟩ :=
    ⟨⟨by decide, by decide⟩, by decide⟩
  have nextPrinted : Key.IsPrinted ⟨⟨2024, 3, 1, 0, 0, 0⟩, 0⟩ := ⟨⟨by decide, by decide⟩, by decide⟩
  refine ⟨keys_correspond.1 _ lastPrinted, ?_, ?_⟩
  · exact (keys_correspond.2.1 _ _ lastPrinted nextPrinted).mpr (by decide)
  · apply keys_correspond.2.2.1 _ _ rfl _ (by decide) (by decide) (by decide)
    exact List.all_iff_forall_prop.mp (by decide)

end Scaffold.Migration
