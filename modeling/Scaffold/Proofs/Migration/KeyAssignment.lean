import Scaffold.Proofs.Keyed
import Scaffold.Proofs.Migration.CreationOrder
import Scaffold.Proofs.Migration.KeySupply
import Scaffold.Run.Rendering

/-!
# The keys of a run

A run gives one key to each descriptor for which a migration is asked.  A table that has a migration
keeps its key, and the new keys follow the order in which tables are created.
-/

namespace Scaffold

open Scaffold.Disk (Path Tree)
open Scaffold.Migration

/-- What giving keys to descriptors has to achieve. -/
structure KeysFit
    (existing : Keyed String) (selection : Option Selection) (descriptors : List Descriptor)
    (keys : Keyed String) : Prop where
  /-- Exactly the selected descriptors have a key, each has one. -/
  one :
    (Keyed.keys keys).Perm ((descriptors.filter (wantsMigration selection)).map (·.entity))
  /-- A table that has a migration keeps its key. -/
  kept :
    ∀ descriptor ∈ descriptors, wantsMigration selection descriptor = true →
      ∀ key, Keyed.get? existing descriptor.table = some key →
        Keyed.get? keys descriptor.entity = some key
  /-- A new migration sorts before those whose foreign keys point to its table, cycles apart. -/
  ordered :
    ∀ source target, Constrains descriptors source target →
      wantsMigration selection source = true → wantsMigration selection target = true →
        Keyed.get? existing source.table = none → Keyed.get? existing target.table = none →
          LeadsTo descriptors target source ∨
            ∃ sourceKey targetKey, Keyed.get? keys source.entity = some sourceKey ∧
              Keyed.get? keys target.entity = some targetKey ∧
                fileName targetKey target.table < fileName sourceKey source.table

namespace KeyAssignment

/-- A descriptor whose table has no migration. -/
def isNew (existing : Keyed String) (descriptor : Descriptor) : Bool :=
  (Keyed.get? existing descriptor.table).isNone

/-- What an assignment gives to descriptors that come after keys up to `last`. -/
structure Serves
    (existing : Keyed String) (last : Option Key) (given : Keyed String)
    (asked : List Descriptor) (keys : Keyed String) : Prop where
  all : Keyed.keys keys = Keyed.keys given ++ asked.map (·.entity)
  others :
    ∀ entity, entity ∉ asked.map (·.entity) → Keyed.get? keys entity = Keyed.get? given entity
  kept :
    ∀ descriptor ∈ asked, ∀ key, Keyed.get? existing descriptor.table = some key →
      Keyed.get? keys descriptor.entity = some key
  later :
    ∀ descriptor ∈ asked, Keyed.get? existing descriptor.table = none →
      ∃ key : Key, key.IsPrinted ∧ Keyed.get? keys descriptor.entity = some key.text ∧
        ∀ known ∈ last, known.number < key.number
  increasing :
    asked.Pairwise fun first second =>
      Keyed.get? existing first.table = none → Keyed.get? existing second.table = none →
        ∃ firstKey secondKey : Key, firstKey.IsPrinted ∧ secondKey.IsPrinted ∧
          Keyed.get? keys first.entity = some firstKey.text ∧
            Keyed.get? keys second.entity = some secondKey.text ∧
              firstKey.number < secondKey.number

/-- Giving a key to the first descriptor and then serving the others serves all. -/
theorem Serves.cons
    {existing given keys : Keyed String} {last moved : Option Key} {descriptor : Descriptor}
    {rest : List Descriptor} {text : String}
    (serves : Serves existing moved (Keyed.put given descriptor.entity text) rest keys)
    (distinct : ((descriptor :: rest).map (·.entity)).Nodup)
    (fresh : descriptor.entity ∉ Keyed.keys given)
    (keptFirst : ∀ key, Keyed.get? existing descriptor.table = some key → key = text)
    (newFirst : Keyed.get? existing descriptor.table = none →
      ∃ key : Key, key.IsPrinted ∧ text = key.text ∧ moved = some key ∧
        ∀ known ∈ last, known.number < key.number)
    (monotone : ∀ known ∈ last, ∃ later ∈ moved, known.number ≤ later.number) :
    Serves existing last given (descriptor :: rest) keys where
  all := by
    rw [serves.all, Keyed.keys_put_of_not_mem fresh]
    simp
  others entity other := by
    rw [List.map_cons, List.mem_cons, not_or] at other
    obtain ⟨different, otherRest⟩ := other
    rw [serves.others entity otherRest]
    exact Keyed.get?_put_other (Ne.symm different) _ _
  kept other member key found := by
    rcases List.mem_cons.mp member with rfl | later
    · have notLater := (List.nodup_cons.mp distinct).1
      rw [serves.others other.entity notLater, Keyed.get?_put_same, keptFirst key found]
    · exact serves.kept other later key found
  later other member new := by
    rcases List.mem_cons.mp member with rfl | later
    · have notLater := (List.nodup_cons.mp distinct).1
      obtain ⟨key, printed, sameText, _, after⟩ := newFirst new
      refine ⟨key, printed, ?_, after⟩
      rw [serves.others other.entity notLater, Keyed.get?_put_same, sameText]
    · obtain ⟨key, printed, found, after⟩ := serves.later other later new
      refine ⟨key, printed, found, fun known member => ?_⟩
      obtain ⟨between, among, bound⟩ := monotone known member
      exact bound.trans_lt (after between among)
  increasing := by
    refine .cons ?_ serves.increasing
    intro second later firstNew secondNew
    have notLater := (List.nodup_cons.mp distinct).1
    obtain ⟨firstKey, firstPrinted, sameText, sameLast, _⟩ := newFirst firstNew
    obtain ⟨secondKey, secondPrinted, found, after⟩ := serves.later second later secondNew
    refine ⟨firstKey, secondKey, firstPrinted, secondPrinted, ?_, found,
      after firstKey sameLast⟩
    rw [serves.others descriptor.entity notLater, Keyed.get?_put_same, sameText]

theorem next_following
    {sequence moved : Sequence} {module : String} {key : Key}
    (next : sequence.next module = (some key, moved)) :
    Sequence.following? (Keyed.get? sequence.last module) sequence.clock.read.1 = some key := by
  rw [Sequence.next_eq] at next
  split at next
  · rename_i other found
    rw [found]
    exact congrArg Prod.fst next
  · cases next

theorem fresh_put
    {given : Keyed String} {descriptor : Descriptor} {rest : List Descriptor}
    (distinct : ((descriptor :: rest).map (·.entity)).Nodup)
    (fresh : ∀ entity ∈ (descriptor :: rest).map (·.entity), entity ∉ Keyed.keys given)
    (text : String) :
    ∀ entity ∈ rest.map (·.entity), entity ∉ Keyed.keys (Keyed.put given descriptor.entity text) := by
  intro entity member known
  rw [Keyed.mem_keys_put] at known
  rcases known with old | rfl
  · exact fresh entity (List.mem_cons_of_mem _ member) old
  · exact (List.nodup_cons.mp distinct).1 member

/-- An assignment that is not exhausted serves every descriptor. -/
theorem addAll_serves
    (module : String) (existing : Keyed String) (assignment : KeyAssignment)
    (asked : List Descriptor) (sound : assignment.sequence.IsSound)
    (distinct : (asked.map (·.entity)).Nodup)
    (fresh : ∀ entity ∈ asked.map (·.entity), entity ∉ Keyed.keys assignment.keys)
    (served : (addAll module existing assignment asked).exhausted = false) :
    Serves existing (Keyed.get? assignment.sequence.last module) assignment.keys asked
      (addAll module existing assignment asked).keys := by
  induction asked generalizing assignment with
  | nil => exact ⟨by simp [addAll], fun _ _ => rfl, by simp, by simp, .nil⟩
  | cons descriptor rest hypothesis =>
      have restDistinct := (List.nodup_cons.mp distinct).2
      have firstFresh := fresh descriptor.entity (by simp)
      have restFresh := fresh_put distinct fresh
      cases found : Keyed.get? existing descriptor.table with
      | some key =>
          simp only [addAll, found] at served ⊢
          have serves := hypothesis
            { assignment with keys := Keyed.put assignment.keys descriptor.entity key }
            sound restDistinct (restFresh key) served
          refine serves.cons distinct firstFresh ?_ (by simp [found]) ?_
          · intro other same
            rw [found] at same
            exact (Option.some.inj same).symm
          · exact fun known member => ⟨known, member, le_refl _⟩
      | none =>
          simp only [addAll, found] at served ⊢
          cases next : assignment.sequence.next module with
          | mk given moved =>
              simp only [next] at served ⊢
              cases given with
              | none => cases served
              | some key =>
                  obtain ⟨printed, movedSound, after, lasts⟩ := Sequence.next_spec sound next
                  have newLast : Keyed.get? moved.last module = some key := by
                    rw [lasts, Keyed.get?_put_same]
                  have serves := hypothesis
                    { assignment with
                      keys := Keyed.put assignment.keys descriptor.entity key.text
                      sequence := moved }
                    movedSound restDistinct (restFresh key.text) served
                  refine serves.cons distinct firstFresh (by simp [found]) ?_ ?_
                  · exact fun _ => ⟨key, printed, rfl, newLast, after⟩
                  · exact fun known member => ⟨key, newLast, (after known member).le⟩

/-- The clock shows no moment of the year 9999. -/
def ClockIsEarly (clock : Clock) : Prop :=
  ∀ moment ∈ clock.last :: clock.upcoming, moment.year < 9999

theorem ClockIsEarly.read {clock : Clock} (early : ClockIsEarly clock) :
    clock.read.1.year < 9999 ∧ ClockIsEarly clock.read.2 := by
  obtain ⟨upcoming, last⟩ := clock
  cases upcoming with
  | nil => exact ⟨early last (by simp), early⟩
  | cons moment rest =>
      refine ⟨early moment (by simp), fun other member => early other ?_⟩
      simp only [Clock.read, List.mem_cons] at member ⊢
      tauto

/-- Only an assignment that asks for more new keys than there are is exhausted. -/
theorem addAll_exhausted
    (module : String) (existing : Keyed String) (assignment : KeyAssignment)
    (asked : List Descriptor) (sound : assignment.sequence.IsSound)
    (early : ClockIsEarly assignment.sequence.clock) (running : assignment.exhausted = false)
    (exhausted : (addAll module existing assignment asked).exhausted = true) :
    keysOfLastYear <
      (Keyed.get? assignment.sequence.last module).elim 0 Key.taken +
        (asked.filter (isNew existing)).length := by
  induction asked generalizing assignment with
  | nil =>
      rw [addAll, running] at exhausted
      cases exhausted
  | cons descriptor rest hypothesis =>
      cases found : Keyed.get? existing descriptor.table with
      | some key =>
          have notNew : isNew existing descriptor = false := by simp [isNew, found]
          simp only [addAll, found] at exhausted
          simp only [List.filter_cons, notNew, Bool.false_eq_true, if_false]
          exact hypothesis
            { assignment with keys := Keyed.put assignment.keys descriptor.entity key }
            sound early running exhausted
      | none =>
          have new : isNew existing descriptor = true := by simp [isNew, found]
          simp only [addAll, found] at exhausted
          simp only [List.filter_cons, new, if_true, List.length_cons]
          obtain ⟨nowEarly, laterEarly⟩ := early.read
          cases next : assignment.sequence.next module with
          | mk given moved =>
              simp only [next] at exhausted
              cases given with
              | some key =>
                  obtain ⟨printed, movedSound, after, lasts⟩ := Sequence.next_spec sound next
                  have movedClock : moved.clock = assignment.sequence.clock.read.2 := by
                    have clock := Sequence.clock_perform assignment.sequence (.next module)
                    simpa only [Sequence.perform, Sequence.answerNext, next] using clock
                  have newLast : Keyed.get? moved.last module = some key := by
                    rw [lasts, Keyed.get?_put_same]
                  have taken := Sequence.taken_of_following? (sound.real module) nowEarly
                    (next_following next)
                  have more := hypothesis
                    { assignment with
                      keys := Keyed.put assignment.keys descriptor.entity key.text
                      sequence := moved }
                    movedSound (by rw [movedClock]; exact laterEarly) running exhausted
                  rw [newLast, Option.elim_some] at more
                  omega
              | none =>
                  obtain ⟨last, _, _⟩ := Sequence.next_none_spec sound next
                  rw [last, Option.elim_some, Sequence.taken_lastKey]
                  omega

end KeyAssignment

/-! ## The keys of all descriptors -/

/-- File names of printed keys are ordered as the keys are, whatever their tables. -/
theorem Key.fileName_lt_fileName
    {first second : Key} (firstPrinted : first.IsPrinted) (secondPrinted : second.IsPrinted)
    (less : first.number < second.number) (firstTable secondTable : String) :
    fileName first.text firstTable < fileName second.text secondTable := by
  rw [String.lt_iff, toList_fileName, toList_fileName]
  exact Key.toList_append_lt_of_read (Key.read_text firstPrinted) (Key.asciiDigits_text firstPrinted)
    secondPrinted less _ _

/-- Keys that serve the descriptors in the order of their tables fit them. -/
theorem KeyAssignment.Serves.fit
    {existing keys : Keyed String} {last : Option Key} {selection : Option Selection}
    {descriptors : List Descriptor} (distinct : DistinctTables descriptors)
    (serves :
      Serves existing last [] ((order descriptors).filter (wantsMigration selection)) keys) :
    KeysFit existing selection descriptors keys where
  one := by
    rw [serves.all]
    exact ((order_perm distinct).filter _).map _
  kept descriptor member wanted key found := by
    refine serves.kept descriptor ?_ key found
    exact List.mem_filter.mpr ⟨(order_perm distinct).mem_iff.mpr member, wanted⟩
  ordered source target constrains sourceWanted targetWanted sourceNew targetNew := by
    obtain ⟨before, after, split⟩ :=
      List.append_of_mem ((order_perm distinct).mem_iff.mpr constrains.1)
    rcases order_settled distinct split constrains with earlier | leads
    · have increasing := serves.increasing
      rw [split, List.filter_append, List.filter_cons_of_pos sourceWanted,
        List.pairwise_append] at increasing
      obtain ⟨targetKey, sourceKey, targetPrinted, sourcePrinted, targetFound, sourceFound, less⟩ :=
        increasing.2.2 target (List.mem_filter.mpr ⟨earlier, targetWanted⟩) source
          (List.mem_cons_self) targetNew sourceNew
      exact .inr ⟨sourceKey.text, targetKey.text, sourceFound, targetFound,
        Key.fileName_lt_fileName targetPrinted sourcePrinted less _ _⟩
    · exact .inl leads

/--
Ordering the descriptors permutes them, and each one for which a migration is asked gets a key that
fits.  Only a run that asks for more new keys than the year 9999 has can be left without one.
-/
theorem assignKeys_follows_creation_order
    (tree : Tree) (folder : Path) (sequence : Sequence) (selection : Option Selection)
    (descriptors : List Descriptor) (existing : Keyed String)
    (distinctEntities : (descriptors.map (·.entity)).Nodup)
    (distinctTables : DistinctTables descriptors)
    (onDisk : keysIn tree (migrationsFolder folder) = .ok existing)
    (diskEarly : ∀ pair ∈ existing, Sequence.ReadsEarly pair.2) (sound : sequence.IsSound)
    (clockEarly : KeyAssignment.ClockIsEarly sequence.clock)
    (lastEarly : sequence.IsEarly (tree.absolutePath folder).text) :
    (order descriptors).Perm descriptors ∧
      ((∃ keys moved,
        assignKeys tree folder sequence selection descriptors = (.ok keys, moved) ∧
          KeysFit existing selection descriptors keys) ∨
        (∃ moved,
          assignKeys tree folder sequence selection descriptors = (.error .noKeyLeft, moved)) ∧
          keysOfLastYear <
            (descriptors.filter fun descriptor =>
              wantsMigration selection descriptor &&
                KeyAssignment.isNew existing descriptor).length) := by
  have permuted := order_perm distinctTables
  refine ⟨permuted, ?_⟩
  obtain ⟨observed, run, observedSound, observedEarly, sameClock⟩ :=
    Sequence.observeAll_spec (existing.map (·.2)) sound lastEarly (by
      intro text member
      obtain ⟨pair, among, rfl⟩ := List.mem_map.mp member
      exact diskEarly pair among)
  have wantedPermuted := permuted.filter (wantsMigration selection)
  have wantedDistinct :
      (((order descriptors).filter (wantsMigration selection)).map (·.entity)).Nodup := by
    refine ((wantedPermuted.map _).nodup_iff).mpr ?_
    exact distinctEntities.sublist (List.filter_sublist.map _)
  have noneTaken :
      (Keyed.get? observed.last (tree.absolutePath folder).text).elim 0 Key.taken = 0 := by
    cases known : Keyed.get? observed.last (tree.absolutePath folder).text with
    | none => rfl
    | some key => exact Key.taken_eq_zero (observedEarly key known)
  simp only [assignKeys, onDisk, run]
  split_ifs with exhausted
  · have many := KeyAssignment.addAll_exhausted (tree.absolutePath folder).text existing
      { sequence := observed } ((order descriptors).filter (wantsMigration selection)) observedSound
      (by rw [sameClock]; exact clockEarly) rfl exhausted
    refine .inr ⟨⟨_, rfl⟩, ?_⟩
    have sameLength := (wantedPermuted.filter (KeyAssignment.isNew existing)).length_eq
    rw [noneTaken, Nat.zero_add, sameLength, List.filter_filter] at many
    simpa only [Bool.and_comm] using many
  · have serves := KeyAssignment.addAll_serves (tree.absolutePath folder).text existing
      { sequence := observed } ((order descriptors).filter (wantsMigration selection)) observedSound
      wantedDistinct (by simp [Keyed.keys]) (by simpa using exhausted)
    exact .inl ⟨_, _, rfl, serves.fit distinctTables⟩

/-- A descriptor of which only the table and the foreign keys matter. -/
def sketch (entity table : String) (targets : List String) : Descriptor where
  entity
  module := "Blog"
  table
  attributes := targets.map fun target =>
    { name := target ++ "_id", type := .foreignId, on := some target }
  schema := ⟨[], [], []⟩
  fillable := []
  methods := []
  factory := []
  rules := []
  warnings := []

/-- A module folder with the migration of one table. -/
def treeWithUsers : Tree where
  folders := [["Blog"], ["Blog", "Database"], ["Blog", "Database", "Migrations"]]
  files :=
    [(["Blog", "Database", "Migrations", "2024_01_15_103000_create_users_table.php"], .text "")]

/-- A table that points to itself and to a later one, with a table that has a migration. -/
theorem assignKeys_follows_creation_order_posts :
    keysIn treeWithUsers (migrationsFolder ⟨.here, ["Blog"]⟩) =
        .ok [("users", "2024_01_15_103000")] ∧
      ∃ keys moved,
        assignKeys treeWithUsers ⟨.here, ["Blog"]⟩ ⟨⟨[], ⟨2024, 1, 15, 10, 30, 0⟩⟩, []⟩ none
            [sketch "Comment" "comments" ["comments", "posts"], sketch "User" "users" [],
              sketch "Post" "posts" ["users"]] = (.ok keys, moved) ∧
          KeysFit [("users", "2024_01_15_103000")] none
            [sketch "Comment" "comments" ["comments", "posts"], sketch "User" "users" [],
              sketch "Post" "posts" ["users"]] keys := by
  have onDisk :
      keysIn treeWithUsers (migrationsFolder ⟨.here, ["Blog"]⟩) =
        .ok [("users", "2024_01_15_103000")] := by
    decide +kernel
  have diskEarly : ∀ pair ∈ [("users", "2024_01_15_103000")], Sequence.ReadsEarly pair.2 := by
    intro pair member
    rw [List.mem_singleton.mp member]
    exact ⟨⟨⟨2024, 1, 15, 10, 30, 0⟩, 99⟩, by decide +kernel, by decide⟩
  have sound : (⟨⟨[], ⟨2024, 1, 15, 10, 30, 0⟩⟩, []⟩ : Sequence).IsSound := by
    refine ⟨?_, by simp [Keyed.get?]⟩
    unfold Clock.IsProper
    decide
  have early : KeyAssignment.ClockIsEarly (⟨[], ⟨2024, 1, 15, 10, 30, 0⟩⟩ : Clock) := by
    unfold KeyAssignment.ClockIsEarly
    decide
  refine ⟨onDisk, (assignKeys_follows_creation_order treeWithUsers ⟨.here, ["Blog"]⟩
    ⟨⟨[], ⟨2024, 1, 15, 10, 30, 0⟩⟩, []⟩ none
    [sketch "Comment" "comments" ["comments", "posts"], sketch "User" "users" [],
      sketch "Post" "posts" ["users"]] [("users", "2024_01_15_103000")] (by decide)
    (by unfold DistinctTables; decide) onDisk diskEarly sound early
    (by simp [Sequence.IsEarly, Keyed.get?])).2.resolve_right ?_⟩
  rintro ⟨_, many⟩
  exact absurd many (by decide +kernel)

end Scaffold
