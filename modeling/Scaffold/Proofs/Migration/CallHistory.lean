import Scaffold.Proofs.Migration.KeyReading

/-!
# Calls on a migration sequence

A sequence is used by calls that take the next key of a module or observe a key for it.  The module
follows any list of such calls, for any number of modules and with a clock that may stand still or go
back.  Every key that is given stands after all keys given or observed for its module before, the
keys of a module do not depend on other modules, and only the last key of all is followed by none.
-/

namespace Scaffold.Migration

-- Proofs open the reading of a key by its specification only.
attribute [local irreducible] Key.read

namespace Sequence

/-! ## Calls and events -/

/-- A call on a sequence for a module. -/
inductive Call where
  /-- Take the next key. -/
  | next (module : String)
  /-- Let later keys follow the key of a text. -/
  | observe (module text : String)
  deriving DecidableEq, Repr

/-- The module that a call is for. -/
def Call.module : Call → String
  | .next module => module
  | .observe module _ => module

/-- What a call answers. -/
inductive Answer where
  /-- The text of a new key. -/
  | given (text : String)
  /-- There is no key after the last one. -/
  | exhausted
  | observed
  /-- The text is no key. -/
  | refused (error : KeyError)
  deriving DecidableEq, Repr

/-- A call with its answer. -/
structure Event where
  call : Call
  answer : Answer
  deriving DecidableEq, Repr

/-- Ask for the next key of a module. -/
def answerNext (sequence : Sequence) (module : String) : Answer × Sequence :=
  match sequence.next module with
  | (some key, moved) => (.given key.text, moved)
  | (none, moved) => (.exhausted, moved)

/-- Ask to observe the key of a text. -/
def answerObserve (sequence : Sequence) (module text : String) : Answer × Sequence :=
  match sequence.observe module text with
  | .ok moved => (.observed, moved)
  | .error error => (.refused error, sequence)

/-- Perform a call. -/
def perform (sequence : Sequence) : Call → Answer × Sequence
  | .next module => sequence.answerNext module
  | .observe module text => sequence.answerObserve module text

/-- The events of calls that are performed in turn. -/
def events (sequence : Sequence) : List Call → List Event
  | [] => []
  | call :: rest =>
      ⟨call, (sequence.perform call).1⟩ :: (sequence.perform call).2.events rest

/-- The sequence after calls that are performed in turn. -/
def after (sequence : Sequence) (calls : List Call) : Sequence :=
  calls.foldl (fun reached call => (reached.perform call).2) sequence

/-- An event shows a key of a module: one that was given, or one in ASCII digits that was observed. -/
inductive Event.Shows (module : String) : Event → String → Prop where
  | given (text : String) :
      Event.Shows module ⟨.next module, .given text⟩ text
  | observed (text : String) (ascii : AsciiDigits text.toList) :
      Event.Shows module ⟨.observe module text, .observed⟩ text

end Sequence

/-! ## Clocks -/

/-- A clock that shows real moments of the years 1000 to 9999, in any order. -/
def Clock.IsProper (clock : Clock) : Prop :=
  ∀ moment ∈ clock.last :: clock.upcoming, moment.IsReal ∧ 1000 ≤ moment.year

theorem Clock.IsProper.read
    {clock : Clock} (proper : clock.IsProper) :
    (clock.read.1.IsReal ∧ 1000 ≤ clock.read.1.year) ∧ clock.read.2.IsProper := by
  obtain ⟨upcoming, last⟩ := clock
  cases upcoming with
  | nil =>
      exact ⟨proper last (by simp), proper⟩
  | cons moment rest =>
      refine ⟨proper moment (by simp), fun other member => proper other ?_⟩
      simp only [Clock.read, List.mem_cons] at member ⊢
      tauto

/-- The moments that the calls of a module read from a clock, in turn. -/
def Clock.readings (module : String) (clock : Clock) : List Sequence.Call → List Moment
  | [] => []
  | .next other :: rest =>
      if other = module then clock.read.1 :: clock.read.2.readings module rest
      else clock.read.2.readings module rest
  | .observe _ _ :: rest => clock.readings module rest

namespace Sequence

/-! ## One step -/

/-- The last key of all. -/
def lastKey : Key :=
  ⟨⟨9999, 12, 31, 23, 59, 59⟩, maxCounter⟩

/-- The key that follows is printed and later than the last one. -/
theorem following?_spec
    {last : Option Key} {now : Moment} {key : Key} (real : ∀ known ∈ last, known.IsReal)
    (nowReal : now.IsReal) (nowYear : 1000 ≤ now.year) (found : following? last now = some key) :
    key.IsPrinted ∧ ∀ known ∈ last, known.number < key.number := by
  have fresh : (⟨now, 0⟩ : Key).IsPrinted := ⟨⟨nowReal, Nat.zero_le _⟩, nowYear⟩
  cases last with
  | none =>
      cases found
      exact ⟨fresh, by simp⟩
  | some known =>
      have knownReal := real known rfl
      have counterBound := knownReal.counter
      rw [following?] at found
      split_ifs at found with behind room
      · cases found
        rw [Moment.before_iff knownReal.moment nowReal] at behind
        refine ⟨fresh, fun other same => ?_⟩
        cases same
        simp only [Key.number, maxCounter] at counterBound ⊢
        omega
      · cases found
        rw [Moment.before_iff knownReal.moment nowReal] at behind
        have year :=
          Moment.year_le_of_number_le nowReal knownReal.moment (Nat.le_of_not_lt behind)
        refine ⟨⟨⟨knownReal.moment, room⟩, Nat.le_trans nowYear year⟩, fun other same => ?_⟩
        cases same
        simp only [Key.number]
        omega
      · obtain ⟨later, next, rfl⟩ := Option.map_eq_some_iff.mp found
        obtain ⟨laterReal, laterNumber, laterYear⟩ := Moment.next?_spec knownReal.moment next
        rw [Moment.before_iff knownReal.moment nowReal] at behind
        have year :=
          Moment.year_le_of_number_le nowReal knownReal.moment (Nat.le_of_not_lt behind)
        refine ⟨⟨⟨laterReal, Nat.zero_le _⟩, nowYear.trans (year.trans laterYear)⟩, fun other same => ?_⟩
        cases same
        simp only [Key.number, maxCounter] at counterBound ⊢
        omega

/-- Only the last key of all is followed by none. -/
theorem following?_eq_none_iff
    {last : Option Key} {now : Moment} (real : ∀ known ∈ last, known.IsReal)
    (nowReal : now.IsReal) :
    following? last now = none ↔ last = some lastKey := by
  cases last with
  | none => simp [following?]
  | some known =>
      have knownReal := real known rfl
      have counterBound := knownReal.counter
      have noneLater : lastKey.moment.before now = false := by
        have lastReal : lastKey.moment.IsReal := by decide
        have bounds := nowReal.fields_lt
        have daysBound := daysInMonth_le now.year now.month
        have fields := nowReal
        obtain ⟨⟨_, _⟩, ⟨_, _⟩, ⟨_, _⟩, _, _, _⟩ := fields
        rw [Bool.eq_false_iff, Ne, Moment.before_iff lastReal nowReal]
        simp only [Moment.number, lastKey]
        omega
      constructor
      · intro exhausted
        rw [following?] at exhausted
        split_ifs at exhausted with behind room
        have lastMoment :=
          (Moment.next?_eq_none_iff knownReal.moment).mp (Option.map_eq_none_iff.mp exhausted)
        have lastCounter : known.counter = maxCounter := by omega
        cases known
        simp_all [lastKey]
      · intro same
        cases same
        rw [following?, noneLater]
        rfl

/-- The last keys of a sequence are real. -/
def HasRealKeys (sequence : Sequence) : Prop :=
  ∀ module, ∀ key ∈ Keyed.get? sequence.last module, key.IsReal

/-- A sequence with a proper clock and real last keys. -/
structure IsSound (sequence : Sequence) : Prop where
  clock : sequence.clock.IsProper
  real : ∀ module, ∀ key ∈ Keyed.get? sequence.last module, key.IsReal

/-- A sequence has reached the key of a text for a module. -/
def Reached (sequence : Sequence) (module text : String) : Prop :=
  ∃ key last, Key.read text = .ok key ∧ Keyed.get? sequence.last module = some last ∧
    key.number ≤ last.number

theorem get?_put (keyed : Keyed Key) (module other : String) (key : Key) :
    Keyed.get? (Keyed.put keyed module key) other =
      if other = module then some key else Keyed.get? keyed other := by
  split_ifs with same
  · rw [same, Keyed.get?_put_same]
  · exact Keyed.get?_put_other (Ne.symm same) keyed key

theorem next_eq (sequence : Sequence) (module : String) :
    sequence.next module =
      match following? (Keyed.get? sequence.last module) sequence.clock.read.1 with
      | some key => (some key, ⟨sequence.clock.read.2, Keyed.put sequence.last module key⟩)
      | none => (none, { sequence with clock := sequence.clock.read.2 }) :=
  rfl

/-- Giving a key. -/
theorem next_spec
    {sequence moved : Sequence} {module : String} {key : Key} (sound : sequence.IsSound)
    (given : sequence.next module = (some key, moved)) :
    key.IsPrinted ∧ moved.IsSound ∧
      (∀ last ∈ Keyed.get? sequence.last module, last.number < key.number) ∧
        moved.last = Keyed.put sequence.last module key := by
  obtain ⟨⟨nowReal, nowYear⟩, proper⟩ := sound.clock.read
  rw [next_eq] at given
  split at given
  · rename_i following found
    cases given
    obtain ⟨printed, later⟩ := following?_spec (sound.real module) nowReal nowYear found
    refine ⟨printed, ⟨proper, fun other known member => ?_⟩, later, rfl⟩
    simp only [get?_put, Option.mem_def] at member
    split_ifs at member
    · cases member
      exact printed.toIsReal
    · exact sound.real other known member
  · cases given

/-- Giving no key leaves the last keys as they are. -/
theorem next_none_spec
    {sequence moved : Sequence} {module : String} (sound : sequence.IsSound)
    (given : sequence.next module = (none, moved)) :
    Keyed.get? sequence.last module = some lastKey ∧ moved.IsSound ∧
      moved.last = sequence.last := by
  obtain ⟨⟨nowReal, _⟩, proper⟩ := sound.clock.read
  rw [next_eq] at given
  split at given
  · cases given
  · rename_i exhausted
    cases given
    exact ⟨(following?_eq_none_iff (sound.real module) nowReal).mp exhausted,
      ⟨proper, sound.real⟩, rfl⟩

theorem clock_observeKey (sequence : Sequence) (module : String) (key : Key) :
    (sequence.observeKey module key).clock = sequence.clock := by
  rw [Sequence.observeKey]
  split
  · split_ifs <;> rfl
  · rfl

/-- Observing a key: the last key is then the greater one of the key and the last key before. -/
theorem observeKey_of_hasRealKeys
    {sequence : Sequence} (module : String) {key : Key} (realKeys : sequence.HasRealKeys)
    (real : key.IsReal) :
    (sequence.observeKey module key).HasRealKeys ∧
      (∃ last, Keyed.get? (sequence.observeKey module key).last module = some last ∧
        key.number ≤ last.number ∧
          (∀ known ∈ Keyed.get? sequence.last module, known.number ≤ last.number) ∧
            (last = key ∨ Keyed.get? sequence.last module = some last)) ∧
        ∀ other, other ≠ module →
          Keyed.get? (sequence.observeKey module key).last other =
            Keyed.get? sequence.last other := by
  have putReal : HasRealKeys { sequence with last := Keyed.put sequence.last module key } := by
    intro other known member
    simp only [get?_put, Option.mem_def] at member
    split_ifs at member
    · cases member
      exact real
    · exact realKeys other known member
  rw [observeKey]
  split
  · rename_i last known
    have lastReal := realKeys module last known
    split_ifs with earlier
    · rw [Key.before_iff lastReal real] at earlier
      refine ⟨putReal, ⟨key, by simp, le_refl _, fun other same => ?_, .inl rfl⟩, ?_⟩
      · rw [known, Option.mem_some_iff] at same
        rw [← same]
        exact earlier.le
      · intro other different
        simp [get?_put, different]
    · rw [Key.before_iff lastReal real] at earlier
      refine ⟨realKeys, ⟨last, known, Nat.le_of_not_lt earlier, fun other same => ?_, .inr known⟩,
        fun _ _ => rfl⟩
      rw [known, Option.mem_some_iff] at same
      rw [same]
  · rename_i unknown
    refine ⟨putReal, ⟨key, by simp, le_refl _, by simp [unknown], .inl rfl⟩, ?_⟩
    intro other different
    simp [get?_put, different]

theorem observeKey_spec
    {sequence : Sequence} (module : String) {key : Key} (sound : sequence.IsSound)
    (real : key.IsReal) :
    (sequence.observeKey module key).IsSound ∧
      (∃ last, Keyed.get? (sequence.observeKey module key).last module = some last ∧
        key.number ≤ last.number ∧
          ∀ known ∈ Keyed.get? sequence.last module, known.number ≤ last.number) ∧
        ∀ other, other ≠ module →
          Keyed.get? (sequence.observeKey module key).last other =
            Keyed.get? sequence.last other := by
  obtain ⟨realKeys, ⟨last, found, reached, kept, -⟩, others⟩ :=
    observeKey_of_hasRealKeys module sound.real real
  have clock := clock_observeKey sequence module key
  exact ⟨⟨clock ▸ sound.clock, realKeys⟩, ⟨last, found, reached, kept⟩, others⟩

/-! ## Any call -/

theorem perform_observe_ok
    {sequence : Sequence} {module text : String} {key : Key} (read : Key.read text = .ok key) :
    sequence.perform (.observe module text) = (.observed, sequence.observeKey module key) := by
  simp only [perform, answerObserve, observe, read, Except.map]

theorem perform_observe_error
    {sequence : Sequence} {module text : String} {error : KeyError}
    (read : Key.read text = .error error) :
    sequence.perform (.observe module text) = (.refused error, sequence) := by
  simp only [perform, answerObserve, observe, read, Except.map]

/-- A call keeps a sequence sound, and no last key becomes smaller by it. -/
theorem perform_spec
    {sequence : Sequence} (sound : sequence.IsSound) (call : Call) :
    (sequence.perform call).2.IsSound ∧
      ∀ module, ∀ last ∈ Keyed.get? sequence.last module,
        ∃ later, Keyed.get? (sequence.perform call).2.last module = some later ∧
          last.number ≤ later.number := by
  cases call with
  | next asked =>
      rw [perform, answerNext]
      split
      · rename_i key moved given
        obtain ⟨_, movedSound, later, lasts⟩ := next_spec sound given
        refine ⟨movedSound, fun module last known => ?_⟩
        rw [lasts, get?_put]
        split_ifs with same
        · exact ⟨key, rfl, (later last (same ▸ known)).le⟩
        · exact ⟨last, known, le_refl _⟩
      · rename_i moved given
        obtain ⟨_, movedSound, lasts⟩ := next_none_spec sound given
        refine ⟨movedSound, fun module last known => ⟨last, ?_, le_refl _⟩⟩
        rw [lasts]
        exact known
  | observe asked text =>
      cases read : Key.read text with
      | error error =>
          rw [perform_observe_error read]
          exact ⟨sound, fun module last known => ⟨last, known, le_refl _⟩⟩
      | ok key =>
          rw [perform_observe_ok read]
          obtain ⟨movedSound, ⟨newLast, found, _, greatest⟩, others⟩ :=
            observeKey_spec asked sound (Key.read_spec read).1
          refine ⟨movedSound, fun module last known => ?_⟩
          by_cases same : module = asked
          · subst same
            exact ⟨newLast, found, greatest last known⟩
          · exact ⟨last, (others module same).trans known, le_refl _⟩

/-- What a sequence has reached, it has reached after every further call. -/
theorem Reached.perform
    {sequence : Sequence} {module text : String} (sound : sequence.IsSound)
    (reached : sequence.Reached module text) (call : Call) :
    (sequence.perform call).2.Reached module text := by
  obtain ⟨key, last, read, known, bound⟩ := reached
  obtain ⟨later, found, ordered⟩ := (perform_spec sound call).2 module last known
  exact ⟨key, later, read, found, bound.trans ordered⟩

/-- A call that shows a key reaches it. -/
theorem reached_of_shows
    {sequence : Sequence} {module text : String} {call : Call} (sound : sequence.IsSound)
    (shows_ : Event.Shows module ⟨call, (sequence.perform call).1⟩ text) :
    (sequence.perform call).2.Reached module text ∧ AsciiDigits text.toList := by
  generalize answered : (sequence.perform call).1 = answer at shows_
  cases shows_ with
  | given =>
      simp only [perform, answerNext] at answered ⊢
      split at answered
      · rename_i key moved given
        rw [Answer.given.injEq] at answered
        subst answered
        obtain ⟨printed, _, _, lasts⟩ := next_spec sound given
        refine ⟨⟨key, key, Key.read_text printed, by simp [lasts], le_refl _⟩, ?_⟩
        exact Key.asciiDigits_text printed
      · cases answered
  | observed _ ascii =>
      refine ⟨?_, ascii⟩
      cases read : Key.read text with
      | error error => simp [perform_observe_error read] at answered
      | ok key =>
          obtain ⟨_, ⟨last, found, bound, _⟩, _⟩ :=
            observeKey_spec module sound (Key.read_spec read).1
          rw [perform_observe_ok read]
          exact ⟨key, last, read, found, bound⟩

/-- A key that is given stands after what the sequence has reached, also as a part of file names. -/
theorem lt_of_given
    {sequence : Sequence} {module mark text : String} (sound : sequence.IsSound)
    (reached : sequence.Reached module mark) (ascii : AsciiDigits mark.toList)
    (given : (sequence.perform (.next module)).1 = .given text) :
    mark < text ∧
      ∀ earlierTable laterTable, fileName mark earlierTable < fileName text laterTable := by
  obtain ⟨key, last, read, known, bound⟩ := reached
  simp only [perform, answerNext] at given
  split at given
  · rename_i newKey moved next
    rw [Answer.given.injEq] at given
    subst given
    obtain ⟨printed, _, later, _⟩ := next_spec sound next
    have less : key.number < newKey.number := Nat.lt_of_le_of_lt bound (later last known)
    have order := Key.toList_append_lt_of_read read ascii printed less
    refine ⟨?_, fun earlierTable laterTable => ?_⟩
    · rw [String.lt_iff]
      simpa using order [] []
    · rw [String.lt_iff, toList_fileName, toList_fileName]
      exact order _ _
  · cases given

/-! ## Runs -/

/-- Every key that is given later stands after what the sequence has reached before. -/
theorem lt_of_given_later
    {sequence : Sequence} {module mark text : String} (sound : sequence.IsSound)
    (reached : sequence.Reached module mark) (ascii : AsciiDigits mark.toList)
    {calls : List Call} (member : ⟨.next module, .given text⟩ ∈ sequence.events calls) :
    mark < text ∧
      ∀ earlierTable laterTable, fileName mark earlierTable < fileName text laterTable := by
  induction calls generalizing sequence with
  | nil => cases member
  | cons call rest hypothesis =>
      rw [events] at member
      rcases List.mem_cons.mp member with first | later
      · injection first with sameCall sameAnswer
        subst sameCall
        exact lt_of_given sound reached ascii sameAnswer.symm
      · exact hypothesis (perform_spec sound call).1 (reached.perform sound call) later

theorem after_isSound
    {sequence : Sequence} (sound : sequence.IsSound) (calls : List Call) :
    (sequence.after calls).IsSound := by
  induction calls generalizing sequence with
  | nil => exact sound
  | cons call rest hypothesis => exact hypothesis (perform_spec sound call).1

/-- In every run, a key that is given stands after all keys shown for its module before. -/
theorem events_pairwise
    {sequence : Sequence} (sound : sequence.IsSound) (calls : List Call) :
    (sequence.events calls).Pairwise fun earlier later =>
      ∀ module mark text, Event.Shows module earlier mark → later = ⟨.next module, .given text⟩ →
        mark < text ∧
          ∀ earlierTable laterTable, fileName mark earlierTable < fileName text laterTable := by
  induction calls generalizing sequence with
  | nil => exact .nil
  | cons call rest hypothesis =>
      have movedSound := (perform_spec sound call).1
      refine .cons ?_ (hypothesis movedSound)
      rintro later member module mark text shown rfl
      obtain ⟨reached, ascii⟩ := reached_of_shows sound shown
      exact lt_of_given_later movedSound reached ascii member

/-- Two sequences that agree on a module answer a call for it in the same way. -/
theorem perform_congr
    {left right : Sequence} {call : Call}
    (sameLast : Keyed.get? left.last call.module = Keyed.get? right.last call.module)
    (sameMoment : ∀ module, call = .next module → left.clock.read.1 = right.clock.read.1) :
    (left.perform call).1 = (right.perform call).1 ∧
      Keyed.get? (left.perform call).2.last call.module =
        Keyed.get? (right.perform call).2.last call.module := by
  cases call with
  | next module =>
      simp only [Call.module] at sameLast ⊢
      simp only [perform, answerNext, next_eq, sameLast, sameMoment module rfl]
      cases following? (Keyed.get? right.last module) right.clock.read.1 with
      | none => exact ⟨rfl, sameLast⟩
      | some key => simp
  | observe module text =>
      simp only [Call.module] at sameLast ⊢
      cases read : Key.read text with
      | error error => simp [perform_observe_error read, sameLast]
      | ok key =>
          simp only [perform_observe_ok read, observeKey, true_and, sameLast]
          cases known : Keyed.get? right.last module with
          | none => simp
          | some last =>
              simp only
              split_ifs
              · simp
              · simp [sameLast, known]

/-- A call for another module leaves the last key of a module as it is. -/
theorem get?_perform_other
    {sequence : Sequence} {call : Call} {module : String} (different : call.module ≠ module) :
    Keyed.get? (sequence.perform call).2.last module = Keyed.get? sequence.last module := by
  cases call with
  | next asked =>
      simp only [perform, answerNext, next_eq]
      cases following? (Keyed.get? sequence.last asked) sequence.clock.read.1 with
      | none => rfl
      | some key => exact Keyed.get?_put_other different _ _
  | observe asked text =>
      cases read : Key.read text with
      | error error => rw [perform_observe_error read]
      | ok key =>
          rw [perform_observe_ok read, observeKey]
          split
          · split_ifs
            · exact Keyed.get?_put_other different _ _
            · rfl
          · exact Keyed.get?_put_other different _ _

/-- The clock after a call. -/
theorem clock_perform (sequence : Sequence) (call : Call) :
    (sequence.perform call).2.clock =
      match call with
      | .next _ => sequence.clock.read.2
      | .observe _ _ => sequence.clock := by
  cases call with
  | next asked =>
      simp only [perform, answerNext, next_eq]
      cases following? (Keyed.get? sequence.last asked) sequence.clock.read.1 <;> rfl
  | observe asked text =>
      cases read : Key.read text with
      | error error => rw [perform_observe_error read]
      | ok key =>
          rw [perform_observe_ok read, observeKey]
          split
          · split_ifs <;> rfl
          · rfl

/-- The events of a module are those of its own calls on a clock of the moments that these read. -/
theorem filter_events
    (module : String) (rest : Moment) {sequence alone : Sequence} (calls : List Call)
    (sameLast : Keyed.get? sequence.last module = Keyed.get? alone.last module)
    (ownClock : alone.clock = ⟨sequence.clock.readings module calls, rest⟩) :
    (sequence.events calls).filter (·.call.module == module) =
      alone.events (calls.filter (·.module == module)) := by
  induction calls generalizing sequence alone with
  | nil => rfl
  | cons call others hypothesis =>
      by_cases own : call.module = module
      · have ownTest : (call.module == module) = true := by simp [own]
        simp only [events, List.filter_cons, ownTest, if_true]
        have sameMoment : ∀ asked, call = .next asked →
            sequence.clock.read.1 = alone.clock.read.1 := by
          rintro asked rfl
          simp only [Call.module] at own
          simp [ownClock, Clock.readings, Clock.read, own]
        obtain ⟨answers, lasts⟩ := perform_congr (own ▸ sameLast) sameMoment
        rw [answers, hypothesis (own ▸ lasts)]
        rw [clock_perform, clock_perform, ownClock]
        cases call with
        | next asked =>
            simp only [Call.module] at own
            simp [Clock.readings, Clock.read, own]
        | observe asked text => rfl
      · have ownTest : (call.module == module) = false := by simp [own]
        simp only [events, List.filter_cons, ownTest]
        refine hypothesis ((get?_perform_other own).trans sameLast) ?_
        rw [ownClock, clock_perform]
        cases call with
        | next asked => simp [Clock.readings, Call.module] at own ⊢; simp [own]
        | observe asked text => rfl

/-! ## The laws of all runs -/

/--
For every proper clock and all calls on a fresh sequence: a key that is given stands after all keys
shown for its module before, as a text and in file names; the events of a module depend on its own
calls and on the moments that these read; and exactly the last key of all is followed by none, which
changes no last key.
-/
theorem keys_increase_and_stay_apart
    (clock : Clock) (proper : clock.IsProper) (calls : List Call) :
    ((⟨clock, []⟩ : Sequence).events calls).Pairwise (fun earlier later =>
      ∀ module mark text, Event.Shows module earlier mark → later = ⟨.next module, .given text⟩ →
        mark < text ∧
          ∀ earlierTable laterTable, fileName mark earlierTable < fileName text laterTable) ∧
      (∀ module rest,
        ((⟨clock, []⟩ : Sequence).events calls).filter (·.call.module == module) =
          (⟨⟨clock.readings module calls, rest⟩, []⟩ : Sequence).events
            (calls.filter (·.module == module))) ∧
        ∀ module,
          let reached := (⟨clock, []⟩ : Sequence).after calls
          ((reached.perform (.next module)).1 = .exhausted ↔
            Keyed.get? reached.last module = some lastKey) ∧
            ((reached.perform (.next module)).1 = .exhausted →
              (reached.perform (.next module)).2.last = reached.last) := by
  have sound : (⟨clock, []⟩ : Sequence).IsSound := ⟨proper, by simp [Keyed.get?]⟩
  refine ⟨events_pairwise sound calls, fun module rest => ?_, fun module => ?_⟩
  · exact filter_events module rest calls rfl rfl
  · intro reached
    have reachedSound : reached.IsSound := after_isSound sound calls
    obtain ⟨⟨nowReal, _⟩, _⟩ := reachedSound.clock.read
    have lasts := following?_eq_none_iff (reachedSound.real module) nowReal
    simp only [perform, answerNext, next_eq]
    cases found : following? (Keyed.get? reached.last module) reached.clock.read.1 with
    | none => simpa using lasts.mp found
    | some key =>
        rw [found] at lasts
        simpa using lasts

/--
A clock that goes back by a second while a key without a counter is observed, with another module in
between.
-/
theorem keys_increase_and_stay_apart_backwards :
    (⟨[⟨2024, 1, 15, 10, 30, 0⟩, ⟨2024, 1, 15, 10, 29, 59⟩], ⟨2024, 1, 15, 10, 29, 59⟩⟩ :
      Clock).IsProper ∧
      ((⟨⟨[⟨2024, 1, 15, 10, 30, 0⟩, ⟨2024, 1, 15, 10, 29, 59⟩], ⟨2024, 1, 15, 10, 29, 59⟩⟩, []⟩ :
        Sequence).events
          [.next "Blog", .observe "Blog" "2024_01_15_103000", .next "Shop", .next "Blog"]).Pairwise
        (fun earlier later => ∀ module mark text,
          Event.Shows module earlier mark → later = ⟨.next module, .given text⟩ →
            mark < text ∧
              ∀ earlierTable laterTable,
                fileName mark earlierTable < fileName text laterTable) := by
  have proper :
      (⟨[⟨2024, 1, 15, 10, 30, 0⟩, ⟨2024, 1, 15, 10, 29, 59⟩], ⟨2024, 1, 15, 10, 29, 59⟩⟩ :
        Clock).IsProper := by
    unfold Clock.IsProper
    decide
  exact ⟨proper, (keys_increase_and_stay_apart _ proper _).1⟩

end Sequence

end Scaffold.Migration
