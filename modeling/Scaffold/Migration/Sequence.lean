import Scaffold.Keyed
import Scaffold.Migration.Key

/-!
# Migration sequences

A sequence hands out migration keys.  The keys of one module increase strictly, also when several
are taken within a second or the clock goes back, and they increase beyond every key that was
observed for the module.
-/

namespace Scaffold.Migration

/-- A clock and the last key of every module. -/
structure Sequence where
  clock : Clock
  last : Keyed Key := []

namespace Sequence

/-- The key that follows the last one when the clock shows `now`; none past the year 9999. -/
def following? (last : Option Key) (now : Moment) : Option Key :=
  match last with
  | none => some ⟨now, 0⟩
  | some key =>
      if key.moment.before now then some ⟨now, 0⟩
      else if key.counter < maxCounter then some ⟨key.moment, key.counter + 1⟩
      else key.moment.next?.map fun moment => ⟨moment, 0⟩

/-- Take the next key of a module.  When there is none, only the clock has moved. -/
def next (sequence : Sequence) (module : String) : Option Key × Sequence :=
  let (now, clock) := sequence.clock.read
  match following? (Keyed.get? sequence.last module) now with
  | some key => (some key, ⟨clock, Keyed.put sequence.last module key⟩)
  | none => (none, { sequence with clock })

/-- Let later keys of a module follow a key. -/
def observeKey (sequence : Sequence) (module : String) (key : Key) : Sequence :=
  match Keyed.get? sequence.last module with
  | some last =>
      if last.before key then { sequence with last := Keyed.put sequence.last module key }
      else sequence
  | none => { sequence with last := Keyed.put sequence.last module key }

/-- Let later keys of a module follow the key of a text. -/
def observe (sequence : Sequence) (module text : String) : Except KeyError Sequence :=
  (Key.read text).map (sequence.observeKey module)

/--
The key of every table that has a create-migration among the given file names, which are sorted; of
several migrations of a table the last one counts.
-/
def existingKeys (names : List String) : Keyed String :=
  Keyed.ofList (names.filterMap ofFileName?)

/--
Observe the keys of texts in turn, up to the first text that gives none.  What was observed before
an error stays observed.
-/
def observeAll (sequence : Sequence) (module : String) :
    List String → Option KeyError × Sequence
  | [] => (none, sequence)
  | text :: rest =>
      match sequence.observe module text with
      | .ok moved => moved.observeAll module rest
      | .error error => (some error, sequence)

/-- A short description of a sequence. -/
def describe (sequence : Sequence) : String :=
  "<MigrationSequence " ++ Decimal.writtenInt sequence.last.length ++ " module key(s)>"

end Sequence

end Scaffold.Migration
