import Scaffold.Proofs.Schema.Creation

/-!
# The columns that an index may name

Which columns an index may name is worked out from the attributes, and not from the lines that create
columns.  The main statement says that both come to the same: as long as every constraint stands on a
column of some line, and no morph has the name of a time, index requests are accepted exactly when
they name created columns only, and otherwise the first one that does not is reported with all of its
unknown columns.
-/

namespace Scaffold

theorem ColumnType.isMorph_iff (type : ColumnType) :
    type.isMorph = true ↔ type.creation = .morph := by
  cases type <;> decide

namespace Schema

variable {attributes : List Attribute}

/--
Names stand for columns: a constraint for one that another line creates, and the name of a time for
that time itself.
-/
structure NamesColumns (attributes : List Attribute) : Prop where
  constraints : ∀ attr ∈ attributes, attr.type = .foreign →
    ∃ line ∈ columnLines attributes, attr.name ∈ line.created
  morphs : ∀ attr ∈ attributes, attr.type.isMorph = true → attr.name ∉ timestampColumns

/-! ## What is known and what is created -/

/-- A declared attribute lets an index name its columns, and a constraint its name. -/
theorem mem_indexable_iff {attr : Attribute} {column : String} :
    column ∈ indexable attr ↔
      column ∈ attr.created ∨ attr.type.creation = .constraint ∧ attr.name = column := by
  rw [indexable, mem_created_iff]
  split_ifs with pair morph
  · simp [(ColumnType.isTimestampPair_iff _).mp pair]
  · simp [(ColumnType.isMorph_iff _).mp morph]
  · have noPair : attr.type.creation ≠ .pair :=
      fun isPair => pair ((ColumnType.isTimestampPair_iff _).mpr isPair)
    have noMorph : attr.type.creation ≠ .morph :=
      fun isMorph => morph ((ColumnType.isMorph_iff _).mpr isMorph)
    rw [List.mem_singleton]
    cases creation : attr.type.creation with
    | pair => exact absurd creation noPair
    | morph => exact absurd creation noMorph
    | constraint => simp [eq_comm]
    | own => simp [eq_comm]

/-- The columns that the lines of attributes create. -/
def createdColumns (attributes : List Attribute) : List String :=
  (columnLines attributes).flatMap Column.created

theorem mem_createdColumns_iff {column : String} :
    column ∈ createdColumns attributes ↔
      declaresIdentity attributes = false ∧ column = "id" ∨
      column ∈ declaredColumns attributes ∨
      declaresTimestamps attributes = false ∧ column ∈ timestampColumns ∧
        column ∉ declaredTimestamps attributes := by
  have created : (⟨columnLines attributes, [], []⟩ : Schema).created = _ := created_eq rfl
  change createdColumns attributes = _ at created
  rw [created]
  cases declaresIdentity attributes <;> cases declaresTimestamps attributes <;> simp

/-- A column that a declared attribute creates is created by the lines. -/
theorem mem_createdColumns_of_mem_created
    {attr : Attribute} (member : attr ∈ declared attributes) {column : String}
    (created : column ∈ attr.created) : column ∈ createdColumns attributes :=
  mem_createdColumns_iff.mpr (.inr (.inl (List.mem_flatMap.mpr ⟨attr, member, created⟩)))

/-- A constraint is a declared attribute, whose name is a created column. -/
theorem NamesColumns.name_mem_createdColumns
    (named : NamesColumns attributes) {attr : Attribute} (member : attr ∈ declared attributes)
    (constraint : attr.type.creation = .constraint) : attr.name ∈ createdColumns attributes := by
  have isForeign : attr.type = .foreign :=
    eq_of_beq ((ColumnType.isForeign_iff _).mpr constraint)
  have among : attr ∈ attributes := (List.mem_filter.mp member).1
  exact List.mem_flatMap.mpr (named.constraints attr among isForeign)

/-- A time that is not declared as a pair is created by an attribute of its name or is added. -/
theorem NamesColumns.time_mem_createdColumns
    (named : NamesColumns attributes) (incomplete : declaresTimestamps attributes = false)
    {column : String} (time : column ∈ timestampColumns) : column ∈ createdColumns attributes := by
  by_cases taken : column ∈ declaredTimestamps attributes
  · obtain ⟨-, attr, member, rfl⟩ := mem_declaredTimestamps_iff.mp taken
    cases creation : attr.type.creation with
    | pair =>
        have complete := declaresTimestamps_iff.mpr (.inl ⟨attr, member, creation⟩)
        rw [incomplete] at complete
        cases complete
    | morph =>
        have isMorph := (ColumnType.isMorph_iff _).mpr creation
        exact absurd time (named.morphs attr (List.mem_filter.mp member).1 isMorph)
    | constraint => exact named.name_mem_createdColumns member creation
    | own =>
        exact mem_createdColumns_of_mem_created member
          (mem_created_iff.mpr (.inr (.inr ⟨creation, rfl⟩)))
  · exact mem_createdColumns_iff.mpr (.inr (.inr ⟨incomplete, time, taken⟩))

/-- An index may name a column exactly when some line creates it. -/
theorem NamesColumns.mem_indexableColumns_iff
    (named : NamesColumns attributes) {column : String} :
    column ∈ indexableColumns attributes ↔ column ∈ createdColumns attributes := by
  have shape : column ∈ indexableColumns attributes ↔
      declaresIdentity attributes = false ∧ column = "id" ∨
      (∃ attr ∈ declared attributes, column ∈ indexable attr) ∨
      declaresTimestamps attributes = false ∧ column ∈ timestampColumns := by
    rw [indexableColumns]
    cases declaresIdentity attributes <;> cases declaresTimestamps attributes <;> simp
  rw [shape]
  constructor
  · rintro (identity | ⟨attr, member, known⟩ | ⟨incomplete, time⟩)
    · exact mem_createdColumns_iff.mpr (.inl identity)
    · rcases mem_indexable_iff.mp known with created | ⟨constraint, rfl⟩
      · exact mem_createdColumns_of_mem_created member created
      · exact named.name_mem_createdColumns member constraint
    · exact named.time_mem_createdColumns incomplete time
  · intro created
    rcases mem_createdColumns_iff.mp created with identity | isDeclared | ⟨incomplete, time, -⟩
    · exact .inl identity
    · obtain ⟨attr, member, own⟩ := List.mem_flatMap.mp isDeclared
      exact .inr (.inl ⟨attr, member, mem_indexable_iff.mpr (.inl own)⟩)
    · exact .inr (.inr ⟨incomplete, time⟩)

/-! ## The first request that names an unknown column -/

/-- The violation of an index request at a position that names unknown columns. -/
def unknownColumnsViolation (entity : Option String) (position : Nat) (unknown : List String) :
    Violation :=
  ⟨.indexColumnsUnknown unknown, entity, some (Index.subject position), some "columns"⟩

/-- A list of index requests up to the first one that names other columns than the given ones. -/
structure StopsAt (columns : List String) (requests before : List Index) (request : Index) :
    Prop where
  position : ∃ after, requests = before ++ request :: after
  known : ∀ earlier ∈ before, ∀ column ∈ earlier.columns, column ∈ columns
  unknown : ∃ column ∈ request.columns, column ∉ columns

theorem StopsAt.cons
    {columns : List String} {requests before : List Index} {request first : Index}
    (stops : StopsAt columns requests before request)
    (known : ∀ column ∈ first.columns, column ∈ columns) :
    StopsAt columns (first :: requests) (first :: before) request where
  position := by
    obtain ⟨after, rfl⟩ := stops.position
    exact ⟨after, rfl⟩
  known := List.forall_mem_cons.mpr ⟨known, stops.known⟩
  unknown := stops.unknown

theorem StopsAt.not_all_known
    {columns : List String} {requests before : List Index} {request : Index}
    (stops : StopsAt columns requests before request) :
    ¬ ∀ request ∈ requests, ∀ column ∈ request.columns, column ∈ columns := by
  obtain ⟨after, rfl⟩ := stops.position
  obtain ⟨column, among, missing⟩ := stops.unknown
  exact fun known =>
    missing (known request (List.mem_append_right _ List.mem_cons_self) column among)

theorem unknownColumns_eq_nil_iff {request : Index} :
    unknownColumns attributes request = [] ↔
      ∀ column ∈ request.columns, column ∈ indexableColumns attributes := by
  simp [unknownColumns]

/-- Requests are placed up to the first one that names an unknown column. -/
theorem placeIndexes_cases
    (entity : Option String) (attributes : List Attribute) (position : Nat)
    (earlier requests : List Index) :
    (∃ placed, placeIndexes entity attributes position earlier requests = .ok placed) ∧
        (∀ request ∈ requests, ∀ column ∈ request.columns, column ∈ indexableColumns attributes) ∨
      ∃ before request, StopsAt (indexableColumns attributes) requests before request ∧
        placeIndexes entity attributes position earlier requests =
          .error (unknownColumnsViolation entity (position + before.length)
            (unknownColumns attributes request)) := by
  induction requests generalizing position earlier with
  | nil => exact .inl ⟨⟨_, rfl⟩, nofun⟩
  | cons first rest hypothesis =>
      rw [placeIndexes]
      cases unknown : unknownColumns attributes first with
      | nil =>
          have known := unknownColumns_eq_nil_iff.mp unknown
          rcases hypothesis (position + 1) (first :: earlier) with
            ⟨⟨placed, isPlaced⟩, all⟩ | ⟨before, request, stops, failed⟩
          · refine .inl ⟨?_, List.forall_mem_cons.mpr ⟨known, all⟩⟩
            rw [isPlaced]
            exact ⟨_, rfl⟩
          · refine .inr ⟨first :: before, request, stops.cons known, ?_⟩
            have later : position + 1 + before.length = position + (first :: before).length := by
              rw [List.length_cons]
              omega
            rw [failed, later]
            rfl
      | cons column others =>
          refine .inr ⟨[], first, ⟨⟨rest, rfl⟩, nofun, ?_⟩, by rw [unknown]; rfl⟩
          have missing : column ∈ unknownColumns attributes first := by
            rw [unknown]
            exact List.mem_cons_self
          rw [unknownColumns, List.mem_filter] at missing
          exact ⟨column, missing.1, by simpa using missing.2⟩

/-! ## Compiled schemas -/

theorem compile_eq_of_checkDistinct
    {entity : Option String} (distinct : checkDistinct entity attributes = .ok ())
    (requests : List Index) :
    compile entity attributes requests =
      (placeIndexes entity attributes 0 [] requests).map
        fun placed => ⟨columnLines attributes, placed.1, placed.2⟩ := by
  rw [compile, distinct]
  cases placeIndexes entity attributes 0 [] requests <;> rfl

/-- Requests on an article: the second one names the morph itself and a column that is not there. -/
def articleRequests : List Index :=
  [⟨["owner_type", "updated_at"], .index⟩, ⟨["editor_id", "owner", "slug"], .unique⟩,
    ⟨["body"], .fulltext⟩]

end Schema

end Scaffold
