import Mathlib.Data.List.Induction
import Scaffold.Proofs.Migration.KeyText

/-!
# Reading migration keys

Whatever text is read as a key gives a real key.  A text with ASCII digits is spelled by the fields
of the key that it gives, so it stands before the text of every later printed key.  The text and the
file name of a printed key are read back.
-/

namespace Scaffold.Migration

/-! ## Numbers spelled by digits -/

theorem numberOf_append_singleton (digits : List Char) (c : Char) :
    numberOf (digits ++ [c]) = numberOf digits * 10 + (Text.digitValue? c).getD 0 := by
  simp [numberOf]

/-- The value of an ASCII digit is its distance from zero. -/
theorem digitValue?_of_isDigit {c : Char} (digit : c.isDigit = true) :
    Text.digitValue? c = some (c.toNat - 48) := by
  have bounds : 48 ≤ c.toNat ∧ c.toNat ≤ 57 := by
    simpa [Char.isDigit, UInt32.le_iff_toNat_le] using digit
  have small : (c.toNat - 48) % 10 = c.toNat - 48 := Nat.mod_eq_of_lt (by omega)
  simp [Text.digitValue?, Text.decimalDigitRanges, bounds.1, bounds.2, small]

theorem digitValue?_lt {c : Char} {value : Nat} (found : Text.digitValue? c = some value) :
    value < 10 := by
  obtain ⟨range, _, rfl⟩ := Option.map_eq_some_iff.mp found
  exact Nat.mod_lt _ (by omega)

theorem digitValue_lt (c : Char) : (Text.digitValue? c).getD 0 < 10 := by
  cases found : Text.digitValue? c with
  | none => simp
  | some value => exact digitValue?_lt found

theorem digitChar_value {c : Char} (digit : c.isDigit = true) :
    Nat.digitChar ((Text.digitValue? c).getD 0) = c := by
  have bounds : 48 ≤ c.toNat ∧ c.toNat ≤ 57 := by
    simpa [Char.isDigit, UInt32.le_iff_toNat_le] using digit
  have spelled (value : Nat) (small : value ≤ 9) :
      Nat.digitChar value = Char.ofNat (value + 48) := by
    interval_cases value <;> rfl
  rw [digitValue?_of_isDigit digit, Option.getD_some, spelled _ (by omega),
    Nat.sub_add_cancel bounds.1, Char.ofNat_toNat]

theorem numberOf_lt (digits : List Char) : numberOf digits < 10 ^ digits.length := by
  induction digits using List.reverseRecOn with
  | nil => simp [numberOf]
  | append_singleton digits c hypothesis =>
      have value := digitValue_lt c
      rw [numberOf_append_singleton, List.length_append, List.length_singleton, Nat.pow_succ]
      omega

/-- ASCII digits are the last digits of the number that they spell. -/
theorem lastDigits_numberOf {digits : List Char} (ascii : ∀ c ∈ digits, c.isDigit = true) :
    lastDigits digits.length (numberOf digits) = digits := by
  induction digits using List.reverseRecOn with
  | nil => rfl
  | append_singleton digits c hypothesis =>
      have value := digitValue_lt c
      have tens : (numberOf digits * 10 + (Text.digitValue? c).getD 0) / 10 = numberOf digits := by
        omega
      have ones : (numberOf digits * 10 + (Text.digitValue? c).getD 0) % 10 =
          (Text.digitValue? c).getD 0 := by
        omega
      rw [List.length_append, List.length_singleton, lastDigits, numberOf_append_singleton, tens,
        ones, hypothesis fun d member => ascii d (by simp [member]),
        digitChar_value (ascii c (by simp))]

/-- The last digits of a number that fits their width spell it. -/
theorem numberOf_lastDigits (width : Nat) {n : Nat} (fits : n < 10 ^ width) :
    numberOf (lastDigits width n) = n := by
  induction width generalizing n with
  | zero =>
      simp at fits
      simp [lastDigits, numberOf, fits]
  | succ width hypothesis =>
      rw [Nat.pow_succ] at fits
      have ones : (Text.digitValue? (Nat.digitChar (n % 10))).getD 0 = n % 10 := by
        have small : n % 10 < 10 := Nat.mod_lt n (by omega)
        generalize n % 10 = digit at small
        interval_cases digit <;> rfl
      rw [lastDigits, numberOf_append_singleton, hypothesis (by omega), ones]
      omega

/-! ## What is read -/

/-- The digits of a text are ASCII digits. -/
def AsciiDigits (text : List Char) : Prop :=
  ∀ c ∈ text, Text.isDecimalDigit c = true → c.isDigit = true

/-- A text of the shape of a moment has digits and low lines at fixed places. -/
theorem exists_of_matchesPattern_moment
    {text : List Char} (shape : matchesPattern momentPattern text = true) :
    ∃ y₁ y₂ y₃ y₄ m₁ m₂ d₁ d₂ h₁ h₂ n₁ n₂ s₁ s₂,
      text = [y₁, y₂, y₃, y₄, '_', m₁, m₂, '_', d₁, d₂, '_', h₁, h₂, n₁, n₂, s₁, s₂] ∧
        ∀ c ∈ [y₁, y₂, y₃, y₄, m₁, m₂, d₁, d₂, h₁, h₂, n₁, n₂, s₁, s₂],
          Text.isDecimalDigit c = true := by
  rw [momentPattern_eq] at shape
  rcases text with _ | ⟨y₁, _ | ⟨y₂, _ | ⟨y₃, _ | ⟨y₄, _ | ⟨u₁, _ | ⟨m₁, _ | ⟨m₂, _ | ⟨u₂, _ |
    ⟨d₁, _ | ⟨d₂, _ | ⟨u₃, _ | ⟨h₁, _ | ⟨h₂, _ | ⟨n₁, _ | ⟨n₂, _ | ⟨s₁, _ | ⟨s₂, _ |
    ⟨_, _⟩⟩⟩⟩⟩⟩⟩⟩⟩⟩⟩⟩⟩⟩⟩⟩⟩⟩ <;>
    simp [matchesPattern] at shape
  obtain ⟨hy₁, hy₂, hy₃, hy₄, rfl, hm₁, hm₂, rfl, hd₁, hd₂, rfl, hh₁, hh₂, hn₁, hn₂, hs₁, hs₂⟩ :=
    shape
  refine ⟨y₁, y₂, y₃, y₄, m₁, m₂, d₁, d₂, h₁, h₂, n₁, n₂, s₁, s₂, rfl, ?_⟩
  simp [*]

/-- The moment that is read is real, and its fields are spelled by the parts of the text. -/
theorem momentOf?_spec
    {text : List Char} {moment : Moment} (found : momentOf? text = some moment) :
    moment.IsReal ∧
      moment =
        ⟨numberOf (text.take 4), numberOf ((text.drop 5).take 2), numberOf ((text.drop 8).take 2),
          numberOf ((text.drop 11).take 2), numberOf ((text.drop 13).take 2),
          numberOf ((text.drop 15).take 2)⟩ := by
  unfold momentOf? at found
  simp only [Option.ite_none_right_eq_some, Bool.and_eq_true, decide_eq_true_eq,
    Option.some.injEq] at found
  obtain ⟨⟨_, real⟩, rfl⟩ := found
  exact ⟨real, rfl⟩

/-- A text of ASCII digits is the text of the moment that it gives. -/
theorem stamp_of_momentOf?
    {text : List Char} {moment : Moment} (shape : matchesPattern momentPattern text = true)
    (ascii : AsciiDigits text) (found : momentOf? text = some moment) :
    moment.stamp = text := by
  obtain ⟨_, rfl⟩ := momentOf?_spec found
  obtain ⟨y₁, y₂, y₃, y₄, m₁, m₂, d₁, d₂, h₁, h₂, n₁, n₂, s₁, s₂, rfl, decimal⟩ :=
    exists_of_matchesPattern_moment shape
  have spelled (digits : List Char)
      (among : ∀ c ∈ digits, c ∈ [y₁, y₂, y₃, y₄, m₁, m₂, d₁, d₂, h₁, h₂, n₁, n₂, s₁, s₂]) :
      lastDigits digits.length (numberOf digits) = digits := by
    refine lastDigits_numberOf fun c member => ascii c ?_ (decimal c (among c member))
    have present := among c member
    simp only [List.mem_cons, List.not_mem_nil, or_false] at present ⊢
    tauto
  have year := spelled [y₁, y₂, y₃, y₄] (by simp)
  have month := spelled [m₁, m₂] (by simp)
  have day := spelled [d₁, d₂] (by simp)
  have hour := spelled [h₁, h₂] (by simp)
  have minute := spelled [n₁, n₂] (by simp)
  have second := spelled [s₁, s₂] (by simp)
  simp only [List.length_cons, List.length_nil] at year month day hour minute second
  simp [Moment.stamp, year, month, day, hour, minute, second]

/-- A split text is a moment, and either nothing or a low line and a counter of two digits. -/
theorem splitKey?_spec
    {text moment : List Char} {counter : Option (List Char)}
    (found : splitKey? text = some (moment, counter)) :
    matchesPattern momentPattern moment = true ∧
      (counter = none ∧ text = moment ∨
        ∃ c d, counter = some [c, d] ∧ text = moment ++ ['_', c, d] ∧
          Text.isDecimalDigit c = true ∧ Text.isDecimalDigit d = true) := by
  unfold splitKey? at found
  simp only [Bool.not_eq_true'] at found
  split at found
  · cases found
  · rename_i shape
    have parts := List.take_append_drop momentPattern.length text
    split at found
    · rename_i noRest
      cases found
      rw [noRest, List.append_nil] at parts
      exact ⟨by simpa using shape, .inl ⟨rfl, parts.symm⟩⟩
    · rename_i rest _
      split at found
      · rename_i counterShape
        cases found
        refine ⟨by simpa using shape, .inr ?_⟩
        have pattern : "_dd".toList = ['_', 'd', 'd'] := rfl
        rw [pattern] at counterShape
        generalize text.drop momentPattern.length = rest at parts counterShape
        rcases rest with _ | ⟨u, _ | ⟨c, _ | ⟨d, _ | ⟨_, _⟩⟩⟩⟩ <;>
          simp [matchesPattern] at counterShape
        obtain ⟨rfl, first, second⟩ := counterShape
        exact ⟨c, d, rfl, parts.symm, first, second⟩
      · cases found

/-- How a text that is read as a key is made up. -/
theorem Key.read_spec
    {text : String} {key : Key} (read : Key.read text = .ok key) :
    key.IsReal ∧
      (AsciiDigits text.toList → ∃ lineEnd,
        text.toList = key.moment.stamp ++ lineEnd ∧ key.counter = maxCounter ∨
          text.toList = (key.moment.stamp ++ '_' :: lastDigits 2 key.counter) ++ lineEnd) := by
  unfold Key.read at read
  split at read
  · cases read
  · rename_i momentText counter split
    cases found : momentOf? momentText with
    | none => simp [found] at read
    | some moment =>
        rw [found] at read
        cases read
        obtain ⟨shape, parts⟩ := splitKey?_spec split
        obtain ⟨real, _⟩ := momentOf?_spec found
        have whole : ∃ lineEnd, text.toList = Text.withoutLineEnd text.toList ++ lineEnd := by
          rw [Text.withoutLineEnd]
          split
          · rename_i ended
            have nonempty : text.toList ≠ [] := by
              rintro empty
              simp [empty] at ended
            exact ⟨_, (List.dropLast_concat_getLast nonempty).symm⟩
          · exact ⟨[], by simp⟩
        obtain ⟨lineEnd, whole⟩ := whole
        rcases parts with ⟨rfl, bare⟩ | ⟨c, d, rfl, counted, cDigit, dDigit⟩
        · refine ⟨⟨real, le_refl _⟩, fun ascii => ⟨lineEnd, .inl ⟨?_, rfl⟩⟩⟩
          rw [bare] at whole
          have momentAscii : AsciiDigits momentText := fun c member =>
            ascii c (by rw [whole]; exact List.mem_append_left _ member)
          rw [stamp_of_momentOf? shape momentAscii found, ← whole]
        · have counterBound : numberOf [c, d] ≤ maxCounter := by
            have bound := numberOf_lt [c, d]
            simp only [List.length_cons, List.length_nil] at bound
            rw [maxCounter]
            omega
          refine ⟨⟨real, counterBound⟩, fun ascii => ⟨lineEnd, .inr ?_⟩⟩
          rw [counted] at whole
          have momentAscii : AsciiDigits momentText := fun c member =>
            ascii c (by rw [whole]; simp [member])
          have counterAscii : ∀ e ∈ [c, d], e.isDigit = true := by
            intro e member
            refine ascii e (by rw [whole]; simp at member ⊢; tauto) ?_
            rcases (by simpa using member : e = c ∨ e = d) with rfl | rfl
            · exact cDigit
            · exact dDigit
          have counterDigits := lastDigits_numberOf counterAscii
          simp only [List.length_cons, List.length_nil] at counterDigits
          rw [stamp_of_momentOf? shape momentAscii found]
          simpa [counterDigits] using whole

/-- A text that reads as an earlier key stands before the text of a later one, whatever follows. -/
theorem Key.toList_append_lt_of_read
    {text : String} {earlier later : Key} (read : Key.read text = .ok earlier)
    (ascii : AsciiDigits text.toList) (printed : later.IsPrinted)
    (less : earlier.number < later.number) (textRest laterRest : List Char) :
    text.toList ++ textRest < later.text.toList ++ laterRest := by
  obtain ⟨real, spelled⟩ := Key.read_spec read
  obtain ⟨lineEnd, bare | counted⟩ := spelled ascii
  · obtain ⟨bare, lastCounter⟩ := bare
    have counterBound := printed.counter
    have moments : earlier.moment.number < later.moment.number := by
      simp only [Key.number, lastCounter] at less
      omega
    rw [bare, Key.toList_text printed, List.append_assoc, List.append_assoc]
    exact append_lt_append (by simp) (Moment.stamp_lt_stamp real.moment printed.moment moments) _ _
  · have earlierCounter := real.counter
    have laterCounter := printed.counter
    simp only [Key.number, maxCounter] at less earlierCounter laterCounter
    rw [counted, Key.toList_text printed, List.append_assoc _ lineEnd]
    refine append_lt_append (by simp) ?_ _ _
    rcases Nat.lt_or_ge earlier.moment.number later.moment.number with moments | sameOrLater
    · exact append_lt_append (by simp)
        (Moment.stamp_lt_stamp real.moment printed.moment moments) _ _
    · have same : earlier.moment = later.moment :=
        Moment.eq_of_number_eq real.moment printed.moment (by omega)
      rw [same] at less ⊢
      refine List.append_left_lt (List.cons_lt_cons_iff.mpr (.inr ⟨rfl, ?_⟩))
      exact lastDigits_lt_lastDigits (by omega) (by omega)

/-! ## Reading back -/

theorem isDecimalDigit_of_isDigit {c : Char} (digit : c.isDigit = true) :
    Text.isDecimalDigit c = true := by
  have bounds : 48 ≤ c.toNat ∧ c.toNat ≤ 57 := by
    simpa [Char.isDigit, UInt32.le_iff_toNat_le] using digit
  simp [Text.isDecimalDigit, Text.inRanges, Text.decimalDigitRanges, bounds.1, bounds.2]

theorem isDecimalDigit_digitChar (n : Nat) : Text.isDecimalDigit (Nat.digitChar (n % 10)) = true :=
  isDecimalDigit_of_isDigit (isDigit_digitChar (Nat.mod_lt n (by omega)))

theorem lastDigits_two (n : Nat) :
    lastDigits 2 n = [Nat.digitChar (n / 10 % 10), Nat.digitChar (n % 10)] :=
  rfl

theorem lastDigits_four (n : Nat) :
    lastDigits 4 n =
      [Nat.digitChar (n / 10 / 10 / 10 % 10), Nat.digitChar (n / 10 / 10 % 10),
        Nat.digitChar (n / 10 % 10), Nat.digitChar (n % 10)] :=
  rfl

theorem Moment.matchesPattern_stamp (moment : Moment) :
    matchesPattern momentPattern moment.stamp = true := by
  simp [momentPattern_eq, Moment.stamp, lastDigits_four, lastDigits_two, matchesPattern,
    isDecimalDigit_digitChar]

theorem plainDigits_lastDigits {n : Nat} (fits : n < 60) : plainDigits (lastDigits 2 n) = true := by
  have tens : n / 10 < 6 := by omega
  have ones := isDecimalDigit_digitChar n
  rw [lastDigits_two, Nat.mod_eq_of_lt (by omega : n / 10 < 10)]
  generalize n / 10 = first at tens
  interval_cases first <;> simpa [plainDigits, Nat.digitChar] using ones

theorem asciiDigits_lastDigits (width n : Nat) : asciiDigits (lastDigits width n) = true := by
  simpa [asciiDigits] using fun c member => isDigit_of_mem_lastDigits member

/-- The text of a real moment is read back. -/
theorem momentOf?_stamp {moment : Moment} (real : moment.IsReal) :
    momentOf? moment.stamp = some moment := by
  have bounds := real.fields_lt
  have days := daysInMonth_le moment.year moment.month
  have realFields := real
  obtain ⟨⟨_, _⟩, ⟨_, _⟩, ⟨_, _⟩, hourFits, minuteFits, secondFits⟩ := realFields
  have year : moment.stamp.take 4 = lastDigits 4 moment.year := rfl
  have month : (moment.stamp.drop 5).take 2 = lastDigits 2 moment.month := rfl
  have day : (moment.stamp.drop 8).take 2 = lastDigits 2 moment.day := rfl
  have hour : (moment.stamp.drop 11).take 2 = lastDigits 2 moment.hour := rfl
  have minute : (moment.stamp.drop 13).take 2 = lastDigits 2 moment.minute := rfl
  have second : (moment.stamp.drop 15).take 2 = lastDigits 2 moment.second := rfl
  simp only [momentOf?, year, month, day, hour, minute, second,
    numberOf_lastDigits 4 bounds.1, numberOf_lastDigits 2 bounds.2.1,
    numberOf_lastDigits 2 bounds.2.2.1, numberOf_lastDigits 2 bounds.2.2.2.1,
    numberOf_lastDigits 2 bounds.2.2.2.2.1,
    numberOf_lastDigits 2 bounds.2.2.2.2.2, asciiDigits_lastDigits,
    plainDigits_lastDigits (by omega : moment.day < 60),
    plainDigits_lastDigits (by omega : moment.hour < 60), plainDigits_lastDigits minuteFits,
    plainDigits_lastDigits secondFits, real]
  simp

/-- The text of a printed key splits into its moment and its counter. -/
theorem Key.splitKey?_text {key : Key} (printed : key.IsPrinted) :
    splitKey? key.text.toList = some (key.moment.stamp, some (lastDigits 2 key.counter)) := by
  have length := key.moment.length_stamp
  have counterMatches : matchesPattern "_dd".toList ('_' :: lastDigits 2 key.counter) = true := by
    have pattern : "_dd".toList = ['_', 'd', 'd'] := rfl
    simp [pattern, lastDigits_two, matchesPattern, isDecimalDigit_digitChar]
  rw [Key.toList_text printed, splitKey?, ← length, List.take_left, List.drop_left]
  simp only [key.moment.matchesPattern_stamp, counterMatches]
  rfl

theorem withoutLineEnd_of_getLast? {text : List Char} (ended : text.getLast? ≠ some '\n') :
    Text.withoutLineEnd text = text := by
  simp [Text.withoutLineEnd, ended]

/-- The text of a printed key is read back. -/
theorem Key.read_text {key : Key} (printed : key.IsPrinted) : Key.read key.text = .ok key := by
  have counterFits : key.counter < 10 ^ 2 := by
    have counter := printed.counter
    rw [maxCounter] at counter
    omega
  have noLineEnd : Text.withoutLineEnd key.text.toList = key.text.toList := by
    refine withoutLineEnd_of_getLast? ?_
    rw [Key.toList_text printed, lastDigits_two]
    intro ended
    have lineFeed : Nat.digitChar (key.counter % 10) = '\n' := by
      simpa only [List.getLast?_append, List.getLast?_cons_cons, List.getLast?_singleton,
        Option.some_or, Option.some.injEq] using ended
    have digit := isDigit_digitChar (Nat.mod_lt key.counter (by omega : 10 > 0))
    rw [lineFeed] at digit
    exact absurd digit (by decide)
  rw [Key.read, noLineEnd, Key.splitKey?_text printed]
  simp only [momentOf?_stamp printed.moment, Option.map_some, numberOf_lastDigits 2 counterFits,
    Option.getD_some]

theorem Key.asciiDigits_text {key : Key} (printed : key.IsPrinted) :
    AsciiDigits key.text.toList := by
  intro c member decimal
  rw [Key.toList_text printed, Moment.stamp] at member
  simp only [List.mem_append, List.mem_cons] at member
  have lowLine : Text.isDecimalDigit '_' = false := by decide
  rcases member with (_ | rfl | _ | rfl | _ | rfl | _ | _ | _) | rfl | _ <;>
    first
    | exact isDigit_of_mem_lastDigits ‹_›
    | simp [lowLine] at decimal

/-- The file name of a printed key and a table of word characters gives both back. -/
theorem ofFileName?_fileName
    {key : Key} {table : String} (printed : key.IsPrinted) (nonempty : table ≠ "")
    (wordCharacters : table.toList.all Text.isUnicodeWordCharacter = true) :
    ofFileName? (fileName key.text table) = some (table, key.text) := by
  have characters := toList_fileName key.text table
  have noLineEnd :
      Text.withoutLineEnd (fileName key.text table).toList = (fileName key.text table).toList := by
    have lastOfMark : tableMark.getLast? = some 'p' := rfl
    refine withoutLineEnd_of_getLast? ?_
    simp [characters, List.getLast?_append, lastOfMark]
  have length : momentPattern.length + 3 = key.text.toList.length := by
    simp [Key.toList_text printed]
  have someTable : table.toList.isEmpty = false := by
    simpa using nonempty
  have tableRead : tableOf? (createMark ++ (table.toList ++ tableMark)) = some table.toList := by
    simp [tableOf?, someTable, wordCharacters]
  unfold ofFileName?
  rw [noLineEnd, characters, length]
  simp only [List.take_left, List.drop_left, Key.splitKey?_text printed, tableRead,
    String.ofList_toList, Option.orElse_eq_orElse, Option.orElse_some]

end Scaffold.Migration
