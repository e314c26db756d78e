import Mathlib.Tactic.IntervalCases
import Mathlib.Tactic.SplitIfs
import Scaffold.Migration.Sequence

/-!
# The order and the texts of migration keys

The fields of a key, each below a hundred but the year, are the digits of one number.  That number
orders keys as `Key.before` does and grows from a moment to the next one.  The text of a key of a
four-digit year consists of digits at fixed places, so texts are ordered as keys are, whatever
follows them in a file name.
-/

namespace Scaffold.Migration

/-! ## Keys as numbers -/

/-- The fields of a moment as the digits of one number. -/
def Moment.number (moment : Moment) : Nat :=
  ((((moment.year * 100 + moment.month) * 100 + moment.day) * 100 + moment.hour) * 100 +
    moment.minute) * 100 + moment.second

/-- The fields of a key as the digits of one number. -/
def Key.number (key : Key) : Nat :=
  key.moment.number * 100 + key.counter

/-- A key of a real moment with a counter of at most two digits. -/
structure Key.IsReal (key : Key) : Prop where
  moment : key.moment.IsReal
  counter : key.counter ≤ maxCounter

theorem daysInMonth_le (year month : Nat) : Calendar.daysInMonth year month ≤ 31 := by
  rw [Calendar.daysInMonth]
  split_ifs <;> omega

theorem daysInMonth_pos (year month : Nat) : 0 < Calendar.daysInMonth year month := by
  rw [Calendar.daysInMonth]
  split_ifs <;> omega

/-- The fields of a real moment have two digits, its year at most four. -/
theorem Moment.IsReal.fields_lt
    {moment : Moment} (real : moment.IsReal) :
    moment.year < 10000 ∧ moment.month < 100 ∧ moment.day < 100 ∧ moment.hour < 100 ∧
      moment.minute < 100 ∧ moment.second < 100 := by
  have days := daysInMonth_le moment.year moment.month
  obtain ⟨⟨_, _⟩, ⟨_, _⟩, ⟨_, _⟩, _, _, _⟩ := real
  omega

/-- Comparing two lists of equal length by their first difference. -/
theorem compareLex_cons_eq_lt_iff (left right : Nat) (lefts rights : List Nat) :
    List.compareLex compare (left :: lefts) (right :: rights) = .lt ↔
      left < right ∨ left = right ∧ List.compareLex compare lefts rights = .lt := by
  rw [List.compareLex_cons_cons, Ordering.then_eq_lt, Nat.compare_eq_lt, Nat.compare_eq_eq]

/-- Real moments are ordered as their numbers are. -/
theorem Moment.before_iff
    {left right : Moment} (leftReal : left.IsReal) (rightReal : right.IsReal) :
    left.before right = true ↔ left.number < right.number := by
  have leftBounds := leftReal.fields_lt
  have rightBounds := rightReal.fields_lt
  have byFields :
      left.before right = true ↔
        List.compareLex compare left.fields right.fields = .lt := by
    simp [Moment.before, compare]
  have noneLeft : ¬ List.compareLex (compare (α := Nat)) [] [] = .lt := by
    simp [List.compareLex]
  rw [byFields]
  simp only [Moment.fields, compareLex_cons_eq_lt_iff, noneLeft, Moment.number, and_false, or_false]
  omega

/-- Real moments of one number are equal. -/
theorem Moment.eq_of_number_eq
    {left right : Moment} (leftReal : left.IsReal) (rightReal : right.IsReal)
    (equal : left.number = right.number) :
    left = right := by
  have leftBounds := leftReal.fields_lt
  have rightBounds := rightReal.fields_lt
  cases left
  cases right
  simp only [Moment.number, Moment.mk.injEq] at *
  omega

theorem Moment.year_le_of_number_le
    {left right : Moment} (leftReal : left.IsReal) (rightReal : right.IsReal)
    (ordered : left.number ≤ right.number) :
    left.year ≤ right.year := by
  have leftBounds := leftReal.fields_lt
  have rightBounds := rightReal.fields_lt
  simp only [Moment.number] at ordered
  omega

/-- Real keys are ordered as their numbers are. -/
theorem Key.before_iff
    {left right : Key} (leftReal : left.IsReal) (rightReal : right.IsReal) :
    left.before right = true ↔ left.number < right.number := by
  have leftCounter := leftReal.counter
  have rightCounter := rightReal.counter
  have byMoment := Moment.before_iff leftReal.moment rightReal.moment
  simp only [Key.before, Bool.or_eq_true, Bool.and_eq_true, beq_iff_eq, decide_eq_true_eq,
    byMoment, Key.number, maxCounter] at *
  constructor
  · rintro (earlier | ⟨same, lower⟩)
    · omega
    · rw [same]
      omega
  · intro less
    rcases Nat.lt_trichotomy left.moment.number right.moment.number with earlier | same | later
    · exact .inl earlier
    · exact .inr ⟨Moment.eq_of_number_eq leftReal.moment rightReal.moment same, by omega⟩
    · omega

/-- Real keys of one number are equal. -/
theorem Key.eq_of_number_eq {left right : Key} (leftReal : left.IsReal) (rightReal : right.IsReal)
    (equal : left.number = right.number) : left = right := by
  have leftCounter := leftReal.counter
  have rightCounter := rightReal.counter
  simp only [Key.number, maxCounter] at equal leftCounter rightCounter
  have sameMoment : left.moment = right.moment :=
    Moment.eq_of_number_eq leftReal.moment rightReal.moment (by omega)
  have sameCounter : left.counter = right.counter := by
    rw [sameMoment] at equal
    omega
  cases left
  cases right
  exact congr (congrArg _ sameMoment) sameCounter

/-! ## The next moment -/

/-- The next moment of a real one is real, and its number is greater. -/
theorem Moment.next?_spec
    {moment later : Moment} (real : moment.IsReal) (next : moment.next? = some later) :
    later.IsReal ∧ moment.number < later.number ∧ moment.year ≤ later.year := by
  have days := daysInMonth_le moment.year moment.month
  have newDays := daysInMonth_pos moment.year (moment.month + 1)
  have januaryDays := daysInMonth_pos (moment.year + 1) 1
  obtain ⟨⟨_, _⟩, ⟨_, _⟩, ⟨_, _⟩, _, _, _⟩ := real
  unfold Moment.next? at next
  split_ifs at next <;>
    (cases next; simp only [Moment.IsReal, Moment.number]; omega)

/-- Only the last second of the year 9999 has no next moment. -/
theorem Moment.next?_eq_none_iff
    {moment : Moment} (real : moment.IsReal) :
    moment.next? = none ↔ moment = ⟨9999, 12, 31, 23, 59, 59⟩ := by
  obtain ⟨⟨_, _⟩, ⟨_, _⟩, ⟨_, _⟩, _, _, _⟩ := real
  constructor
  · intro exhausted
    unfold Moment.next? at exhausted
    split_ifs at exhausted with _ _ _ dayLeft monthLeft
    have december : moment.month = 12 := by omega
    have lastDay : Calendar.daysInMonth moment.year moment.month = 31 := by
      simp [Calendar.daysInMonth, december]
    cases moment
    simp only [Moment.mk.injEq] at *
    omega
  · rintro rfl
    rfl

/-! ## Digits of a fixed width -/

/-- The last decimal digits of a number, as many as `width`. -/
def lastDigits : Nat → Nat → List Char
  | 0, _ => []
  | width + 1, n => lastDigits width (n / 10) ++ [Nat.digitChar (n % 10)]

@[simp]
theorem length_lastDigits (width n : Nat) : (lastDigits width n).length = width := by
  induction width generalizing n with
  | zero => rfl
  | succ width hypothesis => simp [lastDigits, hypothesis]

theorem lastDigits_zero (width : Nat) : lastDigits width 0 = List.replicate width '0' := by
  induction width with
  | zero => rfl
  | succ width hypothesis =>
      rw [lastDigits, Nat.zero_div, hypothesis, List.replicate_succ']
      rfl

/-- A number that fits its width is padded to all of its last digits. -/
theorem paddedNatural_eq_lastDigits
    {width n : Nat} (positive : 0 < width) (fits : n < 10 ^ width) :
    Decimal.paddedNatural width n = lastDigits width n := by
  induction width generalizing n with
  | zero => omega
  | succ width hypothesis =>
      by_cases single : n < 10
      · have noTens : n / 10 = 0 := by omega
        have ones : n % 10 = n := by omega
        simp [Decimal.paddedNatural, Decimal.naturalDigits, Nat.toDigits_of_lt_base single,
          lastDigits, noTens, ones, lastDigits_zero]
      · have widthPositive : 0 < width := by
          rcases Nat.eq_zero_or_pos width with rfl | positive
          · simp at fits
            omega
          · exact positive
        have tensFit : n / 10 < 10 ^ width := by
          rw [Nat.pow_succ] at fits
          omega
        have tens := hypothesis widthPositive tensFit
        rw [lastDigits, ← tens]
        simp [Decimal.paddedNatural, Decimal.naturalDigits,
          Nat.toDigits_of_base_le (by omega : 1 < 10) (by omega : 10 ≤ n)]

theorem naturalDigits_eq_lastDigits
    {width n : Nat} (positive : 0 < width) (reaches : 10 ^ width ≤ n) (fits : n < 10 ^ (width + 1)) :
    Decimal.naturalDigits n = lastDigits (width + 1) n := by
  have enough : ¬ (Nat.toDigits 10 n).length ≤ width := by
    rw [Nat.length_toDigits_le_iff (by omega) positive]
    omega
  rw [← paddedNatural_eq_lastDigits (by omega) fits, Decimal.paddedNatural, Decimal.naturalDigits,
    Nat.sub_eq_zero_of_le (by omega), List.replicate_zero, List.nil_append]

theorem isDigit_digitChar {n : Nat} (digit : n < 10) : (Nat.digitChar n).isDigit = true := by
  interval_cases n <;> rfl

theorem digitChar_lt_digitChar {left right : Nat} (less : left < right) (digit : right < 10) :
    Nat.digitChar left < Nat.digitChar right := by
  interval_cases right <;> interval_cases left <;> decide

theorem isDigit_of_mem_lastDigits
    {width n : Nat} {c : Char} (member : c ∈ lastDigits width n) :
    c.isDigit = true := by
  induction width generalizing n with
  | zero => cases member
  | succ width hypothesis =>
      rcases List.mem_append.mp member with tens | ones
      · exact hypothesis tens
      · rw [List.mem_singleton.mp ones]
        exact isDigit_digitChar (Nat.mod_lt n (by omega))

/-! ## Order -/

/-- A difference inside two texts of equal length decides, whatever follows them. -/
theorem append_lt_append
    {left right : List Char} (sameLength : left.length = right.length) (less : left < right)
    (leftRest rightRest : List Char) :
    left ++ leftRest < right ++ rightRest := by
  induction left generalizing right with
  | nil =>
      cases right with
      | nil => simp at less
      | cons c rest => simp at sameLength
  | cons c rest hypothesis =>
      cases right with
      | nil => simp at sameLength
      | cons d others =>
          rw [List.cons_append, List.cons_append, List.cons_lt_cons_iff]
          rcases List.cons_lt_cons_iff.mp less with first | ⟨same, later⟩
          · exact .inl first
          · exact .inr ⟨same, hypothesis (Nat.succ.inj sameLength) later⟩

theorem lastDigits_lt_lastDigits
    {width left right : Nat} (less : left < right) (fits : right < 10 ^ width) :
    lastDigits width left < lastDigits width right := by
  induction width generalizing left right with
  | zero =>
      simp at fits
      omega
  | succ width hypothesis =>
      rw [Nat.pow_succ] at fits
      rcases Nat.lt_or_ge (left / 10) (right / 10) with lessTens | _
      · exact append_lt_append (by simp) (hypothesis lessTens (by omega)) _ _
      · have sameTens : left / 10 = right / 10 := by omega
        have ones : Nat.digitChar (left % 10) < Nat.digitChar (right % 10) :=
          digitChar_lt_digitChar (by omega) (by omega)
        rw [lastDigits, lastDigits, sameTens]
        exact List.append_left_lt (List.cons_lt_cons_iff.mpr (.inl ones))

/-- Two texts that start with numbers of one width are ordered by these, and then by their rests. -/
theorem lastDigits_append_lt
    {width left right : Nat} {leftRest rightRest : List Char} (fits : right < 10 ^ width)
    (less : left < right ∨ left = right ∧ leftRest < rightRest) :
    lastDigits width left ++ leftRest < lastDigits width right ++ rightRest := by
  rcases less with number | ⟨rfl, rest⟩
  · exact append_lt_append (by simp) (lastDigits_lt_lastDigits number fits) _ _
  · exact List.append_left_lt rest

/-! ## The text of a moment and of a key -/

/-- The text of a moment inside a key, with a year of four digits. -/
def Moment.stamp (moment : Moment) : List Char :=
  lastDigits 4 moment.year ++ '_' :: (lastDigits 2 moment.month ++ '_' ::
    (lastDigits 2 moment.day ++ '_' :: (lastDigits 2 moment.hour ++
      (lastDigits 2 moment.minute ++ lastDigits 2 moment.second))))

theorem momentPattern_eq :
    momentPattern =
      ['d', 'd', 'd', 'd', '_', 'd', 'd', '_', 'd', 'd', '_', 'd', 'd', 'd', 'd', 'd', 'd'] := by
  decide

@[simp]
theorem Moment.length_stamp (moment : Moment) : moment.stamp.length = momentPattern.length := by
  simp [Moment.stamp, momentPattern_eq]

/-- The texts of real moments are ordered as their numbers are. -/
theorem Moment.stamp_lt_stamp
    {left right : Moment} (leftReal : left.IsReal) (rightReal : right.IsReal)
    (less : left.number < right.number) :
    left.stamp < right.stamp := by
  have leftBounds := leftReal.fields_lt
  have rightBounds := rightReal.fields_lt
  rw [Moment.number, Moment.number] at less
  rw [Moment.stamp, Moment.stamp]
  have afterMark {before later : List Char} (order : before < later) :
      '_' :: before < '_' :: later :=
    List.cons_lt_cons_iff.mpr (.inr ⟨rfl, order⟩)
  -- Each field either decides or is equal on both sides and leaves the order to the later ones.
  refine lastDigits_append_lt (by omega) ?_
  by_cases year : left.year = right.year
  · refine .inr ⟨year, afterMark (lastDigits_append_lt (by omega) ?_)⟩
    by_cases month : left.month = right.month
    · refine .inr ⟨month, afterMark (lastDigits_append_lt (by omega) ?_)⟩
      by_cases day : left.day = right.day
      · refine .inr ⟨day, afterMark (lastDigits_append_lt (by omega) ?_)⟩
        by_cases hour : left.hour = right.hour
        · refine .inr ⟨hour, lastDigits_append_lt (by omega) ?_⟩
          by_cases minute : left.minute = right.minute
          · exact .inr ⟨minute, lastDigits_lt_lastDigits (by omega) (by omega)⟩
          · exact .inl (by omega)
        · exact .inl (by omega)
      · exact .inl (by omega)
    · exact .inl (by omega)
  · exact .inl (by omega)

/-- A real key has a year of four digits without zeros in front. -/
structure Key.IsPrinted (key : Key) : Prop extends key.IsReal where
  year : 1000 ≤ key.moment.year

/-- The text of a printed key is the text of its moment and its two-digit counter. -/
theorem Key.toList_text
    {key : Key} (printed : key.IsPrinted) :
    key.text.toList = key.moment.stamp ++ '_' :: lastDigits 2 key.counter := by
  have bounds := printed.moment.fields_lt
  have counter := printed.counter
  have year := printed.year
  have yearDigits : Decimal.naturalDigits key.moment.year = lastDigits 4 key.moment.year :=
    naturalDigits_eq_lastDigits (by omega) (by omega) (by omega)
  have noSign (n : Nat) : ¬ (n : Int) < 0 := by omega
  have twoDigits {n : Nat} (fits : n < 100) : Decimal.paddedNatural 2 n = lastDigits 2 n :=
    paddedNatural_eq_lastDigits (by omega) (by omega)
  simp only [maxCounter] at counter
  have counterDigits := twoDigits (by omega : key.counter < 100)
  simp [Key.text, keyText, Decimal.writtenInt, Decimal.paddedInt, noSign, Moment.padded, yearDigits,
    twoDigits bounds.2.1, twoDigits bounds.2.2.1, twoDigits bounds.2.2.2.1,
    twoDigits bounds.2.2.2.2.1, twoDigits bounds.2.2.2.2.2, counterDigits, Moment.stamp]

theorem toList_fileName (key table : String) :
    (fileName key table).toList =
      key.toList ++ (createMark ++ (table.toList ++ tableMark)) := by
  unfold fileName createMark tableMark
  simp only [String.toList_append, List.append_assoc]

end Scaffold.Migration
