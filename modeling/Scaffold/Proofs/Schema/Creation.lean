import Mathlib.Data.List.Nodup
import Mathlib.Data.List.Pairwise
import Scaffold.Proofs.Document.Reading
import Scaffold.Schema.Record

/-!
# The columns that a schema creates

A line of a schema creates one column, two of them or none, and not always under the name that its
attribute has.  The main statement says when a compiled schema creates each of its columns once, an
identity among them and both times: exactly when no two declared attributes meet on a column and
none takes the name of an identity or a time without creating it.  Compiling compares names and
types only, so it does not make sure of either.
-/

namespace Scaffold

/-- How an attribute of a type creates columns. -/
inductive Creation where
  /-- The creation and the update time. -/
  | pair
  /-- A type column and a key column. -/
  | morph
  /-- No column, but a constraint of one. -/
  | constraint
  /-- The column of its name. -/
  | own
  deriving DecidableEq, Repr

/-- How an attribute of a type creates columns. -/
def ColumnType.creation : ColumnType → Creation
  | .timestamps | .timestampsTz => .pair
  | .morphs | .nullableMorphs | .uuidMorphs | .nullableUuidMorphs => .morph
  | .foreign => .constraint
  | _ => .own

/-- The columns that are created under a name. -/
def Creation.columns (name : String) : Creation → List String
  | .pair => ["created_at", "updated_at"]
  | .morph => [name ++ "_type", name ++ "_id"]
  | .constraint => []
  | .own => [name]

/-- The columns that a line creates. -/
def Column.created (line : Column) : List String :=
  line.type.creation.columns line.name

/-- A line stands for the identity: it counts up, or it creates a column `id`. -/
def Column.IsIdentity (line : Column) : Prop :=
  line.type.isIdentity = true ∨ "id" ∈ line.created

instance (line : Column) : Decidable line.IsIdentity :=
  inferInstanceAs (Decidable (_ ∨ _))

/-- The columns that an attribute creates. -/
def Attribute.created (attr : Attribute) : List String :=
  attr.type.creation.columns attr.name

/-- An attribute takes its name among the columns, whatever columns it creates. -/
def Attribute.TakesName (attr : Attribute) : Prop :=
  attr.type.creation = .own ∨ attr.type.creation = .morph

/-- Two attributes both take their names among the columns, or both constrain a column. -/
def Attribute.SharesGroup (first second : Attribute) : Prop :=
  first.TakesName ∧ second.TakesName ∨
    first.type.creation = .constraint ∧ second.type.creation = .constraint

theorem ColumnType.isTimestampPair_iff (type : ColumnType) :
    type.isTimestampPair = true ↔ type.creation = .pair := by
  cases type <;> decide

theorem ColumnType.isForeign_iff (type : ColumnType) :
    (type == .foreign) = true ↔ type.creation = .constraint := by
  cases type <;> decide

/-! ## Names of columns -/

/-- A morph column ends in the mark of its part. -/
theorem append_ne_of_getLast? {column ending : String} (name : String)
    (ends : ending.toList.getLast? ≠ none)
    (other : column.toList.getLast? ≠ ending.toList.getLast?) : column ≠ name ++ ending := by
  rintro rfl
  apply other
  rw [String.toList_append, List.getLast?_append]
  cases last : ending.toList.getLast? with
  | none => exact absurd last ends
  | some c => rfl

theorem id_ne_append_id (name : String) : "id" ≠ name ++ "_id" := by
  intro same
  have lengths := congrArg String.length same
  rw [String.length_append] at lengths
  have short : "id".length = 2 ∧ "_id".length = 3 := by decide
  omega

namespace Creation

variable {creation : Creation} {name : String}

theorem id_mem_columns_iff : "id" ∈ creation.columns name ↔ creation = .own ∧ name = "id" := by
  cases creation with
  | pair => simp [columns]
  | morph => simp [columns, id_ne_append_id, append_ne_of_getLast?]
  | constraint => simp [columns]
  | own => simp [columns, eq_comm]

theorem time_mem_columns_iff {column : String} (time : column ∈ Schema.timestampColumns) :
    column ∈ creation.columns name ↔ creation = .pair ∨ creation = .own ∧ name = column := by
  cases creation with
  | pair => simpa [columns, Schema.timestampColumns] using time
  | morph =>
      rcases List.mem_pair.mp time with rfl | rfl <;> simp [columns, append_ne_of_getLast?]
  | constraint => simp [columns]
  | own => simp [columns, eq_comm]

theorem nodup_columns : (creation.columns name).Nodup := by
  cases creation with
  | pair => simp [columns]
  | morph => simp [columns]
  | constraint => exact List.nodup_nil
  | own => exact List.nodup_singleton name

end Creation

namespace Schema

variable {attributes : List Attribute}

/-! ## Declared columns -/

/-- The columns of declared attributes, line after line. -/
def declaredColumns (attributes : List Attribute) : List String :=
  (declared attributes).flatMap Attribute.created

theorem id_mem_declaredColumns_iff :
    "id" ∈ declaredColumns attributes ↔
      ∃ attr ∈ declared attributes, attr.type.creation = .own ∧ attr.name = "id" := by
  simp only [declaredColumns, List.mem_flatMap, Attribute.created, Creation.id_mem_columns_iff]

theorem time_mem_declaredColumns_iff {column : String} (time : column ∈ timestampColumns) :
    column ∈ declaredColumns attributes ↔ ∃ attr ∈ declared attributes,
      attr.type.creation = .pair ∨ attr.type.creation = .own ∧ attr.name = column := by
  simp only [declaredColumns, List.mem_flatMap, Attribute.created,
    Creation.time_mem_columns_iff time]

/-- Two attributes of one group of an accepted schema have different names. -/
theorem groups_apart_of_firstRepeated? {columns constraints : List String}
    (distinct : firstRepeated? columns constraints attributes = none) :
    (attributes.Pairwise fun first second =>
      first.SharesGroup second → first.name ≠ second.name) ∧
    ∀ attr ∈ attributes, (attr.TakesName → attr.name ∉ columns) ∧
      (attr.type.creation = .constraint → attr.name ∉ constraints) := by
  induction attributes generalizing columns constraints with
  | nil => simp
  | cons attr rest hypothesis =>
      rw [firstRepeated?] at distinct
      split_ifs at distinct with pair foreign taken taken
      · have isPair := (ColumnType.isTimestampPair_iff _).mp pair
        obtain ⟨apart, fresh⟩ := hypothesis distinct
        refine ⟨.cons (fun other _ shared => ?_) apart, List.forall_mem_cons.mpr ⟨?_, fresh⟩⟩
        · simp [Attribute.SharesGroup, Attribute.TakesName, isPair] at shared
        · simp [Attribute.TakesName, isPair]
      · have isConstraint := (ColumnType.isForeign_iff _).mp foreign
        obtain ⟨apart, fresh⟩ := hypothesis distinct
        refine ⟨.cons (fun other member shared same => ?_) apart, ?_⟩
        · have constraint : other.type.creation = .constraint := by
            simpa [Attribute.SharesGroup, Attribute.TakesName, isConstraint] using shared
          exact (fresh other member).2 constraint (same ▸ List.mem_cons_self)
        · refine List.forall_mem_cons.mpr ⟨?_, fun other member => ?_⟩
          · exact ⟨by simp [Attribute.TakesName, isConstraint], fun _ => by simpa using taken⟩
          · exact ⟨(fresh other member).1, fun constraint old =>
              (fresh other member).2 constraint (List.mem_cons_of_mem _ old)⟩
      · have isColumn : attr.type.creation ≠ .constraint :=
          fun constraint => foreign ((ColumnType.isForeign_iff _).mpr constraint)
        obtain ⟨apart, fresh⟩ := hypothesis distinct
        refine ⟨.cons (fun other member shared same => ?_) apart, ?_⟩
        · have takes : other.TakesName := by
            rcases shared with ⟨-, takes⟩ | ⟨constraint, -⟩
            · exact takes
            · exact absurd constraint isColumn
          exact (fresh other member).1 takes (same ▸ List.mem_cons_self)
        · refine List.forall_mem_cons.mpr ⟨?_, fun other member => ?_⟩
          · exact ⟨fun _ => by simpa using taken, fun constraint => absurd constraint isColumn⟩
          · exact ⟨fun takes old => (fresh other member).1 takes (List.mem_cons_of_mem _ old),
              (fresh other member).2⟩

/-- No two attributes of a schema take the same name. -/
theorem names_apart_of_firstRepeated?
    (distinct : firstRepeated? [] [] attributes = none) :
    attributes.Pairwise fun first second =>
      first.TakesName → second.TakesName → first.name ≠ second.name :=
  (groups_apart_of_firstRepeated? distinct).1.imp fun apart takes takesToo =>
    apart (.inl ⟨takes, takesToo⟩)

theorem mem_created_iff {attr : Attribute} {column : String} :
    column ∈ attr.created ↔
      attr.type.creation = .pair ∧ column ∈ timestampColumns ∨
      attr.type.creation = .morph ∧ column ∈ attr.morphColumns ∨
      attr.type.creation = .own ∧ attr.name = column := by
  rw [Attribute.created]
  cases attr.type.creation <;>
    simp [Creation.columns, timestampColumns, Attribute.morphColumns, eq_comm]

theorem not_mem_morphColumns {attr : Attribute} {column : String}
    (time : column ∈ timestampColumns) : column ∉ attr.morphColumns := by
  rcases List.mem_pair.mp time with rfl | rfl <;>
    simp [Attribute.morphColumns, append_ne_of_getLast?]

theorem name_eq_of_mem_morphColumns {first second : Attribute} {column : String}
    (here : column ∈ first.morphColumns) (there : column ∈ second.morphColumns) :
    first.name = second.name := by
  rcases List.mem_pair.mp here with rfl | rfl <;>
    rcases List.mem_pair.mp there with same | same
  · exact String.append_left_inj _ |>.mp same
  · exact absurd same (append_ne_of_getLast? _ (by decide) (by simp))
  · exact absurd same (append_ne_of_getLast? _ (by decide) (by simp))
  · exact String.append_left_inj _ |>.mp same

/-- No pair meets another pair, or the column of a time; and no morph meets a column of its own. -/
structure KeepApart (first second : Attribute) : Prop where
  pairs : ¬ (first.type.creation = .pair ∧ second.type.creation = .pair)
  time : first.type.creation = .pair → second.type.creation = .own →
    second.name ∉ timestampColumns
  morph : first.type.creation = .morph → second.type.creation = .own →
    second.name ∉ first.morphColumns

/-- Attributes of different names have a column in common only through a pair or a morph. -/
theorem disjoint_of_keepApart {first second : Attribute}
    (names : first.TakesName → second.TakesName → first.name ≠ second.name)
    (apart : KeepApart first second) (apartToo : KeepApart second first) :
    first.created.Disjoint second.created := by
  intro column here there
  rcases mem_created_iff.mp here with ⟨one, time⟩ | ⟨one, part⟩ | ⟨one, rfl⟩ <;>
    rcases mem_created_iff.mp there with ⟨two, timeToo⟩ | ⟨two, partToo⟩ | ⟨two, same⟩
  · exact apart.pairs ⟨one, two⟩
  · exact not_mem_morphColumns time partToo
  · exact apart.time one two (same ▸ time)
  · exact not_mem_morphColumns timeToo part
  · exact names (.inr one) (.inr two) (name_eq_of_mem_morphColumns part partToo)
  · exact apart.morph one two (same ▸ part)
  · exact apartToo.time two one timeToo
  · exact apartToo.morph two one partToo
  · exact names (.inl one) (.inl two) same.symm

/--
The columns that attributes create stay apart: there is one pair of times at most, no pair stands
beside a column of a time, and no morph beside a column that is one of its own.
-/
structure AreApart (attributes : List Attribute) : Prop where
  pairs : (declared attributes).Pairwise fun first second =>
    ¬ (first.type.creation = .pair ∧ second.type.creation = .pair)
  times : ∀ pair ∈ declared attributes, pair.type.creation = .pair →
    ∀ attr ∈ declared attributes, attr.type.creation = .own → attr.name ∉ timestampColumns
  morphs : ∀ morph ∈ declared attributes, morph.type.creation = .morph →
    ∀ attr ∈ declared attributes, attr.type.creation = .own → attr.name ∉ morph.morphColumns

theorem nodup_declaredColumns_iff (distinct : firstRepeated? [] [] attributes = none) :
    (declaredColumns attributes).Nodup ↔ AreApart attributes := by
  have names : (declared attributes).Pairwise fun first second =>
      first.TakesName → second.TakesName → first.name ≠ second.name :=
    (names_apart_of_firstRepeated? distinct).sublist List.filter_sublist
  rw [declaredColumns, List.nodup_flatMap]
  constructor
  · rintro ⟨-, disjoint⟩
    have symmetric : Std.Symm (Function.onFun List.Disjoint Attribute.created) :=
      ⟨fun _ _ apart _ there here => apart here there⟩
    have meet {first second : Attribute} (here : first ∈ declared attributes)
        (there : second ∈ declared attributes)
        (other : first.type.creation ≠ second.type.creation) :
        first.created.Disjoint second.created := by
      refine disjoint.forall here there ?_
      rintro rfl
      exact other rfl
    refine ⟨disjoint.imp ?_, ?_, ?_⟩
    · rintro first second apart ⟨one, two⟩
      have time : "created_at" ∈ timestampColumns := by decide
      exact apart (mem_created_iff.mpr (.inl ⟨one, time⟩)) (mem_created_iff.mpr (.inl ⟨two, time⟩))
    · intro pair here isPair attr there isOwn time
      refine meet here there (by rw [isPair, isOwn]; decide) ?_ ?_ (a := attr.name)
      · exact mem_created_iff.mpr (.inl ⟨isPair, time⟩)
      · exact mem_created_iff.mpr (.inr (.inr ⟨isOwn, rfl⟩))
    · intro morph here isMorph attr there isOwn part
      refine meet here there (by rw [isMorph, isOwn]; decide) ?_ ?_ (a := attr.name)
      · exact mem_created_iff.mpr (.inr (.inl ⟨isMorph, part⟩))
      · exact mem_created_iff.mpr (.inr (.inr ⟨isOwn, rfl⟩))
  · intro apart
    refine ⟨fun attr _ => Creation.nodup_columns, ?_⟩
    apply (names.and apart.pairs).imp_of_mem
    rintro first second here there ⟨names, pairs⟩
    refine disjoint_of_keepApart names ⟨pairs, ?_, ?_⟩ ⟨fun both => pairs both.symm, ?_, ?_⟩
    · exact fun isPair => apart.times first here isPair second there
    · exact fun isMorph => apart.morphs first here isMorph second there
    · exact fun isPair => apart.times second there isPair first here
    · exact fun isMorph => apart.morphs second there isMorph first here

/-! ## Added columns -/

theorem created_syntheticIdentity (attributes : List Attribute) :
    (syntheticIdentity attributes).flatMap Column.created =
      if declaresIdentity attributes then [] else ["id"] := by
  rw [syntheticIdentity]
  split_ifs <;> rfl

/-- The times that are added are those that no attribute takes the name of. -/
theorem created_syntheticTimestamps (attributes : List Attribute) :
    (syntheticTimestamps attributes).flatMap Column.created =
      if declaresTimestamps attributes then []
      else timestampColumns.filter (!(declaredTimestamps attributes).contains ·) := by
  rw [syntheticTimestamps]
  split_ifs
  · rfl
  · split
    · rename_i none
      rw [none]
      decide
    · rw [List.flatMap_map]
      exact List.flatMap_singleton' _

theorem mem_declaredTimestamps_iff {column : String} :
    column ∈ declaredTimestamps attributes ↔
      column ∈ timestampColumns ∧ ∃ attr ∈ declared attributes, attr.name = column := by
  simp [declaredTimestamps]

theorem declaresTimestamps_iff :
    declaresTimestamps attributes = true ↔
      (∃ attr ∈ declared attributes, attr.type.creation = .pair) ∨
        ∀ column ∈ timestampColumns, ∃ attr ∈ declared attributes, attr.name = column := by
  have all : declaredTimestamps attributes = timestampColumns ↔
      ∀ column ∈ timestampColumns, ∃ attr ∈ declared attributes, attr.name = column := by
    rw [declaredTimestamps, List.filter_eq_self]
    simp
  simp only [declaresTimestamps, Bool.or_eq_true, List.any_eq_true,
    ColumnType.isTimestampPair_iff, beq_iff_eq, all]

theorem declaresIdentity_iff :
    declaresIdentity attributes = true ↔
      ∃ attr ∈ declared attributes, attr.type.isIdentity = true ∨ attr.name = "id" := by
  simp [declaresIdentity]

/-- The columns that the lines of a schema create. -/
def created (schema : Schema) : List String :=
  schema.columns.flatMap Column.created

theorem created_eq {schema : Schema} (lines : schema.columns = columnLines attributes) :
    schema.created =
      (if declaresIdentity attributes then [] else ["id"]) ++
        (declaredColumns attributes ++
          if declaresTimestamps attributes then []
          else timestampColumns.filter (!(declaredTimestamps attributes).contains ·)) := by
  rw [created, lines, columnLines, List.flatMap_append, List.flatMap_append,
    created_syntheticIdentity, created_syntheticTimestamps, List.flatMap_map, List.append_assoc]
  rfl

/-- The identity that is added is among the lines exactly when no attribute takes its place. -/
theorem identity_mem_columnLines_iff :
    ⟨"id", .id, "$table->id()", true⟩ ∈ columnLines attributes ↔
      declaresIdentity attributes = false := by
  have notDeclared (attr : Attribute) :
      declaredColumn attr ≠ ⟨"id", .id, "$table->id()", true⟩ := by
    simp [declaredColumn]
  have notTimestamp : ⟨"id", .id, "$table->id()", true⟩ ∉ syntheticTimestamps attributes := by
    rw [syntheticTimestamps]
    split_ifs
    · exact List.not_mem_nil
    · split <;> simp [lonelyTimestamp]
  rw [columnLines, List.mem_append, List.mem_append, List.mem_map, syntheticIdentity]
  cases declaresIdentity attributes <;> simp [notDeclared, notTimestamp, Attribute.tableCall]

theorem not_isIdentity_of_mem_syntheticTimestamps {line : Column}
    (member : line ∈ syntheticTimestamps attributes) : ¬ line.IsIdentity := by
  rw [syntheticTimestamps] at member
  split_ifs at member
  · cases member
  · split at member
    · obtain rfl := List.mem_singleton.mp member
      simp [Column.IsIdentity, Column.created, ColumnType.creation, ColumnType.isIdentity,
        Creation.columns]
    · obtain ⟨column, time, rfl⟩ := List.mem_map.mp member
      rcases List.mem_pair.mp (List.mem_filter.mp time).1 with rfl | rfl <;>
        simp [Column.IsIdentity, lonelyTimestamp, Column.created, ColumnType.creation,
          ColumnType.isIdentity, Creation.columns]

theorem isIdentity_declaredColumn_iff {attr : Attribute} :
    (declaredColumn attr).IsIdentity ↔
      attr.type.isIdentity = true ∨ attr.type.creation = .own ∧ attr.name = "id" := by
  rw [Column.IsIdentity, Column.created, Creation.id_mem_columns_iff]
  rfl

theorem exists_identity_iff :
    (∃ line ∈ columnLines attributes, line.IsIdentity) ↔
      declaresIdentity attributes = false ∨
        ∃ attr ∈ declared attributes, attr.type.isIdentity = true ∨
          attr.type.creation = .own ∧ attr.name = "id" := by
  simp only [← isIdentity_declaredColumn_iff]
  constructor
  · rintro ⟨line, member, identity⟩
    rw [columnLines, List.mem_append, List.mem_append] at member
    rcases member with (added | isDeclared) | time
    · refine .inl ?_
      by_contra taken
      rw [syntheticIdentity, if_pos (by simpa using taken)] at added
      cases added
    · obtain ⟨attr, here, rfl⟩ := List.mem_map.mp isDeclared
      exact .inr ⟨attr, here, identity⟩
    · exact absurd identity (not_isIdentity_of_mem_syntheticTimestamps time)
  · rintro (free | ⟨attr, here, identity⟩)
    · exact ⟨_, identity_mem_columnLines_iff.mpr free, .inl rfl⟩
    · refine ⟨declaredColumn attr, ?_, identity⟩
      rw [columnLines]
      exact List.mem_append_left _ (List.mem_append_right _ (List.mem_map_of_mem here))

/-! ## Each column once -/

/--
A schema creates each of its columns once: both times, an identity, for which a column is added only
if no declared line stands for one, and no column in two lines.
-/
structure CreatesOnce (schema : Schema) : Prop where
  createdAt : schema.created.count "created_at" = 1
  updatedAt : schema.created.count "updated_at" = 1
  identity : ∃ line ∈ schema.columns, line.IsIdentity
  oneIdentity : ⟨"id", .id, "$table->id()", true⟩ ∈ schema.columns →
    ∀ line ∈ schema.columns, line.synthetic = false → ¬ line.IsIdentity
  nodup : schema.created.Nodup

/-- Where an attribute takes the name of an identity or a time, some attribute creates it. -/
structure KeepsNames (attributes : List Attribute) : Prop where
  identity : (∃ attr ∈ declared attributes, attr.name = "id") →
    ∃ attr ∈ declared attributes, attr.type.isIdentity = true ∨
      attr.type.creation = .own ∧ attr.name = "id"
  times : ∀ column ∈ timestampColumns, (∃ attr ∈ declared attributes, attr.name = column) →
    ∃ attr ∈ declared attributes, attr.type.creation = .pair ∨
      attr.type.creation = .own ∧ attr.name = column

/-- The times are created, be it by attributes or by added lines, if no name is taken in vain. -/
theorem time_mem_created {schema : Schema} (lines : schema.columns = columnLines attributes)
    (kept : KeepsNames attributes) {column : String} (time : column ∈ timestampColumns) :
    column ∈ schema.created := by
  rw [created_eq lines]
  apply List.mem_append_right
  rw [List.mem_append, time_mem_declaredColumns_iff time]
  by_cases taken : ∃ attr ∈ declared attributes, attr.name = column
  · exact .inl (kept.times column time taken)
  · by_cases pair : ∃ attr ∈ declared attributes, attr.type.creation = .pair
    · obtain ⟨attr, here, isPair⟩ := pair
      exact .inl ⟨attr, here, .inl isPair⟩
    · refine .inr ?_
      have free : ¬ declaresTimestamps attributes = true := by
        rw [declaresTimestamps_iff, not_or]
        exact ⟨pair, fun all => taken (all column time)⟩
      rw [if_neg free, List.mem_filter]
      refine ⟨time, ?_⟩
      simpa [mem_declaredTimestamps_iff, time] using taken

theorem nodup_created {schema : Schema} (lines : schema.columns = columnLines attributes)
    (declared : (declaredColumns attributes).Nodup) : schema.created.Nodup := by
  rw [created_eq lines, List.nodup_append']
  refine ⟨by split_ifs <;> simp, ?_, ?_⟩
  · rw [List.nodup_append']
    refine ⟨declared, ?_, ?_⟩
    · split_ifs
      · exact List.nodup_nil
      · exact List.Nodup.filter _ (by decide)
    · intro column here added
      split_ifs at added with free
      · cases added
      -- A time is added only if no attribute has its name, whatever that attribute creates.
      · obtain ⟨time, new⟩ := List.mem_filter.mp added
        obtain ⟨attr, member, isPair | ⟨-, named⟩⟩ := (time_mem_declaredColumns_iff time).mp here
        · exact free (declaresTimestamps_iff.mpr (.inl ⟨attr, member, isPair⟩))
        · refine absurd (mem_declaredTimestamps_iff.mpr ⟨time, attr, member, named⟩) ?_
          simpa using new
  · intro column here there
    split_ifs at here with free
    · cases here
    · obtain rfl := List.mem_singleton.mp here
      rcases List.mem_append.mp there with isDeclared | added
      · obtain ⟨attr, member, -, named⟩ := id_mem_declaredColumns_iff.mp isDeclared
        exact free (declaresIdentity_iff.mpr ⟨attr, member, .inr named⟩)
      · split_ifs at added
        · cases added
        · exact absurd (List.mem_filter.mp added).1 (by decide)

theorem not_isIdentity_of_added {line : Column}
    (added : ⟨"id", .id, "$table->id()", true⟩ ∈ columnLines attributes)
    (member : line ∈ columnLines attributes) (isDeclared : line.synthetic = false) :
    ¬ line.IsIdentity := by
  have free := identity_mem_columnLines_iff.mp added
  rw [columnLines, List.mem_append, List.mem_append] at member
  rcases member with (own | declared) | time
  · rw [syntheticIdentity, free, if_neg (by simp)] at own
    obtain rfl := List.mem_singleton.mp own
    cases isDeclared
  · obtain ⟨attr, here, rfl⟩ := List.mem_map.mp declared
    intro identity
    rw [← Bool.not_eq_true, declaresIdentity_iff] at free
    rcases isIdentity_declaredColumn_iff.mp identity with counts | ⟨-, named⟩
    · exact free ⟨attr, here, .inl counts⟩
    · exact free ⟨attr, here, .inr named⟩
  · exact not_isIdentity_of_mem_syntheticTimestamps time

theorem firstRepeated?_eq_none_of_checkDistinct
    {entity : Option String} (accepted : checkDistinct entity attributes = .ok ()) :
    firstRepeated? [] [] attributes = none := by
  rw [checkDistinct] at accepted
  cases repeated : firstRepeated? [] [] attributes with
  | none => rfl
  | some attr =>
      rw [repeated] at accepted
      cases accepted

theorem compile_eq_ok {entity : Option String} {indexes : List Index} {schema : Schema}
    (compiled : compile entity attributes indexes = .ok schema) :
    firstRepeated? [] [] attributes = none ∧ schema.columns = columnLines attributes ∧
      placeIndexes entity attributes 0 [] indexes = .ok (schema.indexes, schema.elided) := by
  simp only [compile, bind_eq_ok_iff] at compiled
  obtain ⟨_, distinct, ⟨kept, elided⟩, placed, same⟩ := compiled
  obtain rfl := Except.ok.inj same
  exact ⟨firstRepeated?_eq_none_of_checkDistinct distinct, rfl, placed⟩

/-- No line is added for a time whose name is taken. -/
theorem mem_declaredColumns_of_taken
    {schema : Schema} (lines : schema.columns = columnLines attributes) {column : String}
    (time : column ∈ timestampColumns) (taken : ∃ attr ∈ declared attributes, attr.name = column)
    (member : column ∈ schema.created) : column ∈ declaredColumns attributes := by
  rw [created_eq lines, List.mem_append, List.mem_append] at member
  rcases member with identity | isDeclared | added
  · split_ifs at identity
    · cases identity
    · rw [List.mem_singleton.mp identity] at time
      exact absurd time (by decide)
  · exact isDeclared
  · split_ifs at added
    · cases added
    · have new := (List.mem_filter.mp added).2
      refine absurd (mem_declaredTimestamps_iff.mpr ⟨time, taken⟩) ?_
      simpa using new

theorem CreatesOnce.keepsNames
    {schema : Schema} (once : schema.CreatesOnce) (lines : schema.columns = columnLines attributes) :
    KeepsNames attributes := by
  refine ⟨?identity, ?times⟩
  case identity =>
    rintro ⟨attr, here, named⟩
    have identity := once.identity
    rw [lines, exists_identity_iff] at identity
    refine identity.resolve_left ?_
    rw [declaresIdentity_iff.mpr ⟨attr, here, .inr named⟩]
    decide
  case times =>
    intro column time taken
    have counted : schema.created.count column = 1 := by
      rcases List.mem_pair.mp time with rfl | rfl
      · exact once.createdAt
      · exact once.updatedAt
    have member : column ∈ schema.created := List.count_pos_iff.mp (by omega)
    exact (time_mem_declaredColumns_iff time).mp
      (mem_declaredColumns_of_taken lines time taken member)

theorem KeepsNames.createsOnce
    (kept : KeepsNames attributes) {schema : Schema}
    (lines : schema.columns = columnLines attributes) (nodup : (declaredColumns attributes).Nodup) :
    schema.CreatesOnce := by
  have once := nodup_created lines nodup
  have counted {column : String} (time : column ∈ timestampColumns) :
      schema.created.count column = 1 :=
    List.count_eq_one_of_mem once (time_mem_created lines kept time)
  refine ⟨counted (by decide), counted (by decide), ?identity, ?oneIdentity, once⟩
  case identity =>
    rw [lines, exists_identity_iff]
    by_cases free : declaresIdentity attributes = false
    · exact .inl free
    · obtain ⟨attr, here, counts | named⟩ := declaresIdentity_iff.mp (by simpa using free)
      · exact .inr ⟨attr, here, .inl counts⟩
      · exact .inr (kept.identity ⟨attr, here, named⟩)
  case oneIdentity =>
    rw [lines]
    exact fun added line member => not_isIdentity_of_added added member

/--
A compiled schema creates each of its columns once exactly when the columns of its attributes stay
apart and no attribute takes the name of an identity or a time that none creates.
-/
theorem compile_creates_once_iff {entity : Option String} {indexes : List Index} {schema : Schema}
    (compiled : compile entity attributes indexes = .ok schema) :
    schema.CreatesOnce ↔ AreApart attributes ∧ KeepsNames attributes := by
  obtain ⟨distinct, lines, -⟩ := compile_eq_ok compiled
  rw [← nodup_declaredColumns_iff distinct]
  constructor
  · intro once
    refine ⟨?_, once.keepsNames lines⟩
    have nodup := once.nodup
    rw [created_eq lines] at nodup
    exact nodup.of_append_right.of_append_left
  · rintro ⟨nodup, kept⟩
    exact kept.createsOnce lines nodup

/-- An article of an owner of any class, with a creation time of its own. -/
def articleAttributes : List Attribute :=
  [{ name := "owner", type := .morphs }, { name := "editor_id", type := .unsignedBigInteger },
    { name := "editor_id", type := .foreign, on := some "users" },
    { name := "created_at", type := .dateTime }, { name := "deleted_at", type := .softDeletes }]

/-- The schema of an article adds the identity and the update time, and creates no column twice. -/
theorem compile_creates_once_article :
    ∃ schema, compile (some "Article") articleAttributes [] = .ok schema ∧ schema.CreatesOnce ∧
      schema.created = ["id", "owner_type", "owner_id", "editor_id", "created_at", "deleted_at",
        "updated_at"] := by
  have compiled : compile (some "Article") articleAttributes [] =
      .ok ⟨columnLines articleAttributes, [], []⟩ := by
    rfl
  refine ⟨_, compiled, (compile_creates_once_iff compiled).mpr ⟨⟨?_, ?_, ?_⟩, ?_, ?_⟩, ?_⟩
  all_goals decide

/-- A record of a document whose values are all texts. -/
def textRecord (fields : List (String × String)) : Document.Value :=
  .mapping (fields.map fun field => (.text field.1, .text field.2))

/--
Compiling accepts attributes whose columns meet: a constraint of `created_at` takes the place of the
column, two pairs of times stand beside each other, a morph meets a column that is one of its own,
and a constraint of `id` takes the place of the identity.
-/
theorem compile_lets_columns_meet :
    (∃ schema, Schema.ofRecords (some "Event")
        [textRecord [("name", "created_at"), ("type", "foreign"), ("on", "events")]] [] =
          .ok schema ∧ schema.created.count "created_at" = 0 ∧ ¬ schema.CreatesOnce) ∧
    (∃ schema, Schema.ofRecords (some "Event")
        [textRecord [("type", "timestamps")], textRecord [("type", "timestampsTz")]] [] =
          .ok schema ∧ schema.created.count "created_at" = 2 ∧ ¬ schema.CreatesOnce) ∧
    (∃ schema, Schema.ofRecords (some "Event")
        [textRecord [("name", "owner"), ("type", "morphs")],
          textRecord [("name", "owner_type"), ("type", "string")]] [] =
          .ok schema ∧ schema.created.count "owner_type" = 2 ∧ ¬ schema.CreatesOnce) ∧
    ∃ schema, Schema.ofRecords (some "Event")
        [textRecord [("name", "id"), ("type", "foreign"), ("on", "users")]] [] =
          .ok schema ∧ "id" ∉ schema.created ∧ ¬ schema.CreatesOnce := by
  refine ⟨⟨_, rfl, by decide, ?_⟩, ⟨_, rfl, by decide, ?_⟩, ⟨_, rfl, by decide, ?_⟩,
    ⟨_, rfl, by decide, ?_⟩⟩
  · intro once
    exact absurd once.createdAt (by decide)
  · intro once
    exact absurd once.createdAt (by decide)
  · intro once
    exact absurd once.nodup (by decide)
  · intro once
    exact absurd once.identity (by decide)

end Schema

end Scaffold
