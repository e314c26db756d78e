import Scaffold.Proofs.Migration.CallHistory

/-!
# The supply of migration keys

Keys run out only after the last second of the year 9999.  As long as neither the clock nor the last
key of a module has reached that year, as many keys are left as the year has seconds, a hundred for
each.
-/

namespace Scaffold.Migration

-- Proofs open the reading of a key by its specification only.
attribute [local irreducible] Key.read

/-- The number of keys of the year 9999. -/
def keysOfLastYear : Nat :=
  365 * 24 * 60 * 60 * (maxCounter + 1)

/-- The days of the first months of a year. -/
def passedDays (year : Nat) : Nat → Nat
  | 0 => 0
  | month + 1 => passedDays year month + Calendar.daysInMonth year (month + 1)

/-- The seconds of its year that have passed before a moment. -/
def Moment.secondOfYear (moment : Moment) : Nat :=
  (((passedDays moment.year (moment.month - 1) + (moment.day - 1)) * 24 + moment.hour) * 60 +
    moment.minute) * 60 + moment.second

/-- The next moment of a year comes one second later. -/
theorem Moment.secondOfYear_next?
    {moment later : Moment} (real : moment.IsReal) (next : moment.next? = some later)
    (sameYear : later.year = moment.year) :
    later.secondOfYear = moment.secondOfYear + 1 := by
  obtain ⟨⟨_, _⟩, ⟨monthPositive, _⟩, ⟨_, _⟩, _, _, _⟩ := real
  have months :
      passedDays moment.year moment.month =
        passedDays moment.year (moment.month - 1) +
          Calendar.daysInMonth moment.year moment.month := by
    obtain ⟨month, same⟩ := Nat.exists_eq_add_of_le' monthPositive
    rw [same, Nat.add_sub_cancel, passedDays]
  unfold Moment.next? at next
  split_ifs at next <;>
    (cases next; simp only [Moment.secondOfYear, Nat.add_sub_cancel] at sameYear ⊢; omega)

/-- The number of keys of the year 9999 up to a key of that year. -/
def Key.taken (key : Key) : Nat :=
  if key.moment.year < 9999 then 0
  else key.moment.secondOfYear * (maxCounter + 1) + key.counter + 1

theorem Key.taken_eq_zero {key : Key} (early : key.moment.year < 9999) : key.taken = 0 := by
  simp [Key.taken, early]

theorem Key.taken_of_next?
    {key : Key} {later : Moment} (real : key.IsReal) (lastCounter : ¬ key.counter < maxCounter)
    (next : key.moment.next? = some later) :
    (⟨later, 0⟩ : Key).taken ≤ key.taken + 1 := by
  obtain ⟨laterReal, _, laterYear⟩ := Moment.next?_spec real.moment next
  have counterBound := real.counter
  by_cases sameYear : later.year = key.moment.year
  · have second := Moment.secondOfYear_next? real.moment next sameYear
    simp only [Key.taken, sameYear, second, maxCounter] at counterBound lastCounter ⊢
    split_ifs <;> omega
  · -- The year changes only at its end, so the later moment is the start of its year.
    have newYear : later = ⟨key.moment.year + 1, 1, 1, 0, 0, 0⟩ := by
      unfold Moment.next? at next
      split_ifs at next <;> cases next <;> first | rfl | exact absurd rfl sameYear
    have start : later.secondOfYear = 0 := by
      simp [newYear, Moment.secondOfYear, passedDays]
    simp only [Key.taken, start]
    split_ifs <;> omega

/-- Each new key takes at most one of the keys of the year 9999, if the clock is earlier. -/
theorem Sequence.taken_of_following?
    {last : Option Key} {now : Moment} {key : Key} (real : ∀ known ∈ last, known.IsReal)
    (early : now.year < 9999) (found : following? last now = some key) :
    key.taken ≤ (last.elim 0 Key.taken) + 1 := by
  have fresh : (⟨now, 0⟩ : Key).taken = 0 := Key.taken_eq_zero early
  cases last with
  | none =>
      cases found
      simp [fresh]
  | some known =>
      rw [following?] at found
      split_ifs at found with behind room
      · cases found
        simp [fresh]
      · cases found
        simp only [Key.taken, Option.elim_some]
        split_ifs <;> omega
      · obtain ⟨later, next, rfl⟩ := Option.map_eq_some_iff.mp found
        exact Key.taken_of_next? (real known rfl) room next

/-- When there is no further key, all keys of the year 9999 are taken. -/
theorem Sequence.taken_lastKey : lastKey.taken = keysOfLastYear :=
  rfl

/-! ## Observing many keys -/

namespace Sequence

/-- The last key of a module, if it has one, lies before the year 9999. -/
def IsEarly (sequence : Sequence) (module : String) : Prop :=
  ∀ key ∈ Keyed.get? sequence.last module, key.moment.year < 9999

/-- A text reads as a key of a year before 9999. -/
def ReadsEarly (text : String) : Prop :=
  ∃ key, Key.read text = .ok key ∧ key.moment.year < 9999

theorem IsEarly.observeKey
    {sequence : Sequence} {module : String} {key : Key} (early : sequence.IsEarly module)
    (keyEarly : key.moment.year < 9999) :
    (sequence.observeKey module key).IsEarly module := by
  have put : IsEarly { sequence with last := Keyed.put sequence.last module key } module := by
    intro known member
    simp only [Keyed.get?_put_same, Option.mem_some_iff] at member
    exact member ▸ keyEarly
  rw [Sequence.observeKey]
  split
  · split_ifs
    · exact put
    · exact early
  · exact put

theorem observeAll_cons (sequence : Sequence) (module text : String) (rest : List String) :
    sequence.observeAll module (text :: rest) =
      match sequence.observe module text with
      | .ok moved => moved.observeAll module rest
      | .error error => (some error, sequence) :=
  rfl

theorem observeAll_isSound
    {sequence observed : Sequence} {module : String} {texts : List String}
    (sound : sequence.IsSound) (run : sequence.observeAll module texts = (none, observed)) :
    observed.IsSound := by
  induction texts generalizing sequence with
  | nil =>
      cases run
      exact sound
  | cons text rest hypothesis =>
      rw [observeAll_cons, observe] at run
      cases read : Key.read text with
      | error error => simp [read, Except.map] at run
      | ok key =>
          rw [read] at run
          exact hypothesis (observeKey_spec module sound (Key.read_spec read).1).1 run

/-- Observing texts that all read as early keys succeeds. -/
theorem observeAll_spec
    {sequence : Sequence} {module : String} (texts : List String) (sound : sequence.IsSound)
    (early : sequence.IsEarly module) (readable : ∀ text ∈ texts, ReadsEarly text) :
    ∃ observed, sequence.observeAll module texts = (none, observed) ∧ observed.IsSound ∧
      observed.IsEarly module ∧ observed.clock = sequence.clock := by
  induction texts generalizing sequence with
  | nil => exact ⟨sequence, rfl, sound, early, rfl⟩
  | cons text rest hypothesis =>
      obtain ⟨key, read, keyEarly⟩ := readable text (by simp)
      have moved := (observeKey_spec module sound (Key.read_spec read).1).1
      obtain ⟨observed, run, observedSound, observedEarly, clock⟩ :=
        hypothesis moved (early.observeKey keyEarly) fun other member =>
          readable other (by simp [member])
      refine ⟨observed, ?_, observedSound, observedEarly, clock.trans (clock_observeKey _ _ _)⟩
      rw [observeAll_cons, observe, read]
      exact run

end Sequence

end Scaffold.Migration
