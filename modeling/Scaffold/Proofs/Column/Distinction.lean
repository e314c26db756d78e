import Scaffold.Proofs.Attribute.Allowance
import Scaffold.Proofs.Column.CallChain

/-!
# Column expressions tell columns apart

The expression of a column gives back every field of an accepted attribute, up to the ways of saying
nothing: a switch that is off, an empty position, and the key that an own constraint refers to by
default.  No text in a field can pass for a modifier.
-/

namespace Scaffold

theorem Php.stringArray_injective : Function.Injective stringArray := by
  intro left right same
  have literals {texts : List String} :
      ∀ argument ∈ (texts.map Scalar.text).map Scalar.literal, IsArgument argument := by
    simp [Scalar.literal, IsArgument.string]
  rw [stringArray, stringArray, array, array, String.append_left_inj, String.append_right_inj]
    at same
  have read := congrArg (fun text : String => readArguments (text.toList ++ [')'])) same
  rw [readArguments_intercalate literals, readArguments_intercalate literals, Option.some.injEq,
    Prod.mk.injEq, List.map_map, List.map_map] at read
  exact List.map_injective_iff.mpr string_injective read.1

theorem ColumnType.mem_requiredFields_of_allows
    {type : ColumnType} {field : String} (among : field ∈ ["total", "places", "options"])
    (allowed : type.allows field = true) : field ∈ type.requiredFields := by
  have all : ∀ type ∈ ColumnType.all, ∀ field ∈ ["total", "places", "options"],
      type.allows field = true → field ∈ type.requiredFields := by
    decide
  exact all type (ColumnType.mem_all type) field among allowed

theorem ColumnType.allows_total_of_allows_places
    {type : ColumnType} (allowed : type.allows "places" = true) : type.allows "total" = true := by
  have all : ∀ type ∈ ColumnType.all, type.allows "places" = true → type.allows "total" = true := by
    decide
  exact all type (ColumnType.mem_all type) allowed

theorem ReferentialAction.name_injective : Function.Injective name := by
  intro left right same
  have found := Attribute.ofName?_action_eq_some_iff.mpr same
  rw [Attribute.ofName?_action_eq_some_iff.mpr rfl, Option.some.injEq] at found
  exact found.symm

namespace Attribute

/-! ## What a column expression says -/

/-- The position of a column, where an empty text says nothing. -/
def position (attr : Attribute) : Option String :=
  attr.after.filter (!·.isEmpty)

/-- The column that an attribute refers to; an own constraint refers to `id` unless it names one. -/
def referencedColumn (attr : Attribute) : Option String :=
  if attr.type = .foreign then some (attr.references.getD "id") else attr.references

/-- A foreign key that constrains no table carries another field of a constraint. -/
def HasLooseConstraint (attr : Attribute) : Prop :=
  attr.type = .foreignId ∧ attr.on = none ∧
    (attr.references.isSome = true ∨ attr.onDelete.isSome = true ∨ attr.onUpdate.isSome = true)

/-- Two attributes say the same about their columns. -/
structure SameColumn (left right : Attribute) : Prop where
  type : left.type = right.type
  name : left.type.isTimestampPair = false → left.name = right.name
  length : left.length = right.length
  total : left.total = right.total
  places : left.places = right.places
  options : left.options = right.options
  nullable : left.nullable = some true ↔ right.nullable = some true
  unique : left.unique = some true ↔ right.unique = some true
  default : left.default.map Php.Scalar.literal = right.default.map Php.Scalar.literal
  position : left.position = right.position
  on : left.on = right.on
  referencedColumn : left.referencedColumn = right.referencedColumn
  onDelete : left.onDelete = right.onDelete
  onUpdate : left.onUpdate = right.onUpdate

/-! ## The call of the type -/

section Arguments

variable (attr : Attribute)

theorem columnArguments_of_allows_length (allowed : attr.type.allows "length" = true) :
    attr.columnArguments =
      Php.string attr.name ::
        (attr.length.map fun length : Nat => Decimal.writtenInt length).toList := by
  have types : ∀ type ∈ ColumnType.all, type.allows "length" = true →
      type = .string ∨ type = .char := by
    decide
  rcases types attr.type (ColumnType.mem_all attr.type) allowed with type | type <;>
    cases length : attr.length <;> simp [columnArguments, type, length]

theorem columnArguments_of_allows_total (allowed : attr.type.allows "total" = true) :
    attr.columnArguments =
      [Php.string attr.name, numberArgument attr.total, numberArgument attr.places] := by
  have types : ∀ type ∈ ColumnType.all, type.allows "total" = true →
      type = .decimal ∨ type = .double ∨ type = .float := by
    decide
  rcases types attr.type (ColumnType.mem_all attr.type) allowed with type | type | type <;>
    rw [columnArguments.eq_def, type]

theorem columnArguments_of_allows_options (allowed : attr.type.allows "options" = true) :
    attr.columnArguments = [Php.string attr.name, Php.stringArray (attr.options.getD [])] := by
  have types : ∀ type ∈ ColumnType.all, type.allows "options" = true → type = .enum := by decide
  rw [columnArguments.eq_def, types attr.type (ColumnType.mem_all attr.type) allowed]

/-- The call of a type leaves out a name only where the type implies it. -/
theorem columnArguments_name (own : attr.type.isTimestampPair = false) :
    attr.columnArguments = [] ∧ attr.type.impliedName? = some attr.name ∨
      ∃ others, attr.columnArguments = Php.string attr.name :: others := by
  rw [columnArguments.eq_def]
  cases type : attr.type
  case timestamps | timestampsTz =>
    rw [type] at own
    cases own
  case softDeletes | softDeletesTz =>
    by_cases implied : attr.name = "deleted_at"
    · exact .inl (by simp [implied, ColumnType.impliedName?])
    · exact .inr ⟨[], by simp [implied]⟩
  case id =>
    by_cases implied : attr.name = "id"
    · exact .inl (by simp [implied, ColumnType.impliedName?])
    · exact .inr ⟨[], by simp [implied]⟩
  case string | char =>
    cases attr.length
    · exact .inr ⟨_, rfl⟩
    · exact .inr ⟨_, rfl⟩
  all_goals exact .inr ⟨_, rfl⟩

end Arguments

variable {left right attr : Attribute}

theorem name_eq_of_columnArguments_eq
    (sameType : left.type = right.type) (own : left.type.isTimestampPair = false)
    (same : left.columnArguments = right.columnArguments) : left.name = right.name := by
  rcases columnArguments_name left own with ⟨none, implied⟩ | ⟨others, written⟩
  · rcases columnArguments_name right (sameType ▸ own) with ⟨-, alsoImplied⟩ | ⟨others, written⟩
    · rw [sameType, alsoImplied] at implied
      exact (Option.some.inj implied).symm
    · rw [none, written] at same
      cases same
  · rcases columnArguments_name right (sameType ▸ own) with ⟨none, -⟩ | ⟨further, alsoWritten⟩
    · rw [none, written] at same
      cases same
    · rw [written, alsoWritten] at same
      exact Php.string_injective (List.cons.inj same).1

/-! ## Accepted attributes -/

/-- An attribute leaves out the fields of a column that its type does not allow. -/
structure LeavesOut (attr : Attribute) : Prop where
  length : attr.type.allows "length" = false → attr.length = none
  total : attr.type.allows "total" = false → attr.total = none
  places : attr.type.allows "places" = false → attr.places = none
  options : attr.type.allows "options" = false → attr.options = none
  on : attr.type.allows "on" = false → attr.on = none
  references : attr.type.allows "references" = false → attr.references = none
  onDelete : attr.type.allows "onDelete" = false → attr.onDelete = none
  onUpdate : attr.type.allows "onUpdate" = false → attr.onUpdate = none

theorem IsAccepted.leavesOut (accepted : attr.IsAccepted) : attr.LeavesOut := by
  have absent {α : Type} (field : String) {given : Option α} (write : α → Document.Value)
      (member : (field, given.map write) ∈ attr.values) (refused : attr.type.allows field = false) :
      given = none := by
    cases given with
    | none => rfl
    | some value =>
        rw [accepted.allows_of_isSome member rfl] at refused
        cases refused
  exact {
    length := absent "length" (fun length : Nat => .int length) (by simp [values])
    total := absent "total" (fun total : Nat => .int total) (by simp [values])
    places := absent "places" (fun places : Nat => .int places) (by simp [values])
    options := absent "options" (fun options => .list (options.map .text)) (by simp [values])
    on := absent "on" .text (by simp [values])
    references := absent "references" .text (by simp [values])
    onDelete := absent "onDelete" (fun action => .text action.name) (by simp [values])
    onUpdate := absent "onUpdate" (fun action => .text action.name) (by simp [values]) }

/-- An attribute carries the fields of a column that its type requires. -/
structure HasRequired (attr : Attribute) : Prop where
  total : "total" ∈ attr.type.requiredFields → attr.total.isSome = true
  places : "places" ∈ attr.type.requiredFields → attr.places.isSome = true
  options : "options" ∈ attr.type.requiredFields → attr.options.isSome = true
  on : "on" ∈ attr.type.requiredFields → attr.on.isSome = true

theorem IsAccepted.hasRequired (accepted : attr.IsAccepted) : attr.HasRequired := by
  have present {α : Type} (field : String) {given : Option α} (write : α → Document.Value)
      (member : (field, given.map write) ∈ attr.values)
      (required : field ∈ attr.type.requiredFields) : given.isSome = true := by
    have written := accepted.isSome_of_required member required
    rwa [Option.isSome_map] at written
  exact {
    total := present "total" (fun total : Nat => .int total) (by simp [values])
    places := present "places" (fun places : Nat => .int places) (by simp [values])
    options := present "options" (fun options => .list (options.map .text)) (by simp [values])
    on := present "on" .text (by simp [values]) }

theorem eq_of_getD_eq
    {α : Type} {fallback : α} {first second : Option α} (given : first.isSome = true)
    (alsoGiven : second.isSome = true) (same : first.getD fallback = second.getD fallback) :
    first = second := by
  obtain ⟨value, rfl⟩ := Option.isSome_iff_exists.mp given
  obtain ⟨other, rfl⟩ := Option.isSome_iff_exists.mp alsoGiven
  exact congrArg some same

section Details

variable (leftAccepted : left.IsAccepted) (rightAccepted : right.IsAccepted)
  (sameType : left.type = right.type) (same : left.columnArguments = right.columnArguments)

include leftAccepted rightAccepted sameType same

theorem length_eq_of_columnArguments_eq : left.length = right.length := by
  cases allowed : left.type.allows "length" with
  | true =>
      rw [columnArguments_of_allows_length left allowed,
        columnArguments_of_allows_length right (sameType ▸ allowed), List.cons.injEq] at same
      have lengths := congrArg List.head? same.2
      rw [Option.head?_toList, Option.head?_toList] at lengths
      exact Option.map_injective Decimal.writtenNatural_injective lengths
  | false =>
      rw [leftAccepted.leavesOut.length allowed,
        rightAccepted.leavesOut.length (sameType ▸ allowed)]

theorem total_eq_of_columnArguments_eq : left.total = right.total := by
  cases allowed : left.type.allows "total" with
  | true =>
      have required := ColumnType.mem_requiredFields_of_allows (by decide) allowed
      rw [columnArguments_of_allows_total left allowed,
        columnArguments_of_allows_total right (sameType ▸ allowed), List.cons.injEq,
        List.cons.injEq] at same
      exact eq_of_getD_eq (leftAccepted.hasRequired.total required)
        (rightAccepted.hasRequired.total (sameType ▸ required))
        (Decimal.writtenNatural_injective same.2.1)
  | false =>
      rw [leftAccepted.leavesOut.total allowed,
        rightAccepted.leavesOut.total (sameType ▸ allowed)]

theorem places_eq_of_columnArguments_eq : left.places = right.places := by
  cases allowed : left.type.allows "places" with
  | true =>
      have required := ColumnType.mem_requiredFields_of_allows (by decide) allowed
      have allowedTotal := ColumnType.allows_total_of_allows_places allowed
      rw [columnArguments_of_allows_total left allowedTotal,
        columnArguments_of_allows_total right (sameType ▸ allowedTotal), List.cons.injEq,
        List.cons.injEq, List.cons.injEq] at same
      exact eq_of_getD_eq (leftAccepted.hasRequired.places required)
        (rightAccepted.hasRequired.places (sameType ▸ required))
        (Decimal.writtenNatural_injective same.2.2.1)
  | false =>
      rw [leftAccepted.leavesOut.places allowed,
        rightAccepted.leavesOut.places (sameType ▸ allowed)]

theorem options_eq_of_columnArguments_eq : left.options = right.options := by
  cases allowed : left.type.allows "options" with
  | true =>
      have required := ColumnType.mem_requiredFields_of_allows (by decide) allowed
      rw [columnArguments_of_allows_options left allowed,
        columnArguments_of_allows_options right (sameType ▸ allowed), List.cons.injEq,
        List.cons.injEq] at same
      exact eq_of_getD_eq (leftAccepted.hasRequired.options required)
        (rightAccepted.hasRequired.options (sameType ▸ required))
        (Php.stringArray_injective same.2.1)
  | false =>
      rw [leftAccepted.leavesOut.options allowed,
        rightAccepted.leavesOut.options (sameType ▸ allowed)]

end Details

/-! ## The constraint -/

/-- Without a constraint an accepted attribute carries no field of one. -/
theorem IsAccepted.eq_none_of_not_hasConstraint
    (accepted : attr.IsAccepted) (tight : ¬ attr.HasLooseConstraint)
    (free : attr.hasConstraint = false) :
    attr.on = none ∧ attr.references = none ∧ attr.onDelete = none ∧ attr.onUpdate = none := by
  simp only [hasConstraint, Bool.or_eq_false_iff, beq_eq_false_iff_ne, Bool.and_eq_false_iff,
    Option.isSome_eq_false_iff, Option.isNone_iff_eq_none] at free
  obtain ⟨notForeign, free⟩ := free
  by_cases isForeignId : attr.type = .foreignId
  · have on : attr.on = none := free.resolve_left (absurd isForeignId)
    simp only [HasLooseConstraint, isForeignId, on, true_and, not_or,
      Option.not_isSome_iff_eq_none] at tight
    exact ⟨on, tight⟩
  · have refused : ∀ type ∈ ColumnType.all, type ≠ .foreign → type ≠ .foreignId →
        type.allows "on" = false ∧ type.allows "references" = false ∧
          type.allows "onDelete" = false ∧ type.allows "onUpdate" = false := by
      decide
    obtain ⟨on, references, onDelete, onUpdate⟩ :=
      refused attr.type (ColumnType.mem_all attr.type) notForeign isForeignId
    exact ⟨accepted.leavesOut.on on, accepted.leavesOut.references references,
      accepted.leavesOut.onDelete onDelete, accepted.leavesOut.onUpdate onUpdate⟩

theorem hasConstraint_eq_of_modifierArguments_eq
    (sameType : left.type = right.type)
    (same : left.modifierArguments .constrained = right.modifierArguments .constrained) :
    left.hasConstraint = right.hasConstraint := by
  by_cases isForeignId : left.type = .foreignId
  · simp only [modifierArguments, if_pos isForeignId, if_pos (sameType ▸ isForeignId)] at same
    have given := congrArg Option.isSome same
    rw [Option.isSome_map, Option.isSome_map] at given
    rw [hasConstraint, hasConstraint, sameType, given]
  · rw [hasConstraint, hasConstraint, ← sameType, beq_false_of_ne isForeignId, Bool.false_and,
      Bool.false_and]

theorem map_eq_of_map_singleton_eq
    {α : Type} {write : α → String} {first second : Option α}
    (same : (first.map fun value => [write value]) = second.map fun value => [write value]) :
    first.map write = second.map write := by
  have heads := congrArg (Option.map List.head!) same
  rw [Option.map_map, Option.map_map] at heads
  exact heads

/-- The table and the column that an own constraint or a foreign key refers to. -/
theorem IsAccepted.on_and_referencedColumn_eq
    (leftAccepted : left.IsAccepted) (rightAccepted : right.IsAccepted)
    (sameType : left.type = right.type) (same : left.modifierArguments = right.modifierArguments)
    (constraint : left.hasConstraint = true) :
    left.on = right.on ∧ left.referencedColumn = right.referencedColumn := by
  by_cases isForeign : left.type = .foreign
  · have alsoForeign : right.type = .foreign := sameType ▸ isForeign
    -- An own constraint names its column and its table in two calls, a foreign key both in one.
    have tables := congrFun same .on
    have columns := congrFun same .references
    simp only [modifierArguments, if_pos isForeign, if_pos alsoForeign, Option.some.injEq,
      List.cons.injEq, and_true, Php.string_injective.eq_iff] at tables columns
    rw [referencedColumn, referencedColumn, if_pos isForeign, if_pos alsoForeign, columns]
    refine ⟨eq_of_getD_eq (leftAccepted.hasRequired.on ?_) (rightAccepted.hasRequired.on ?_) tables,
      rfl⟩
    · rw [isForeign]
      decide
    · rw [alsoForeign]
      decide
  · obtain ⟨isForeignId, given⟩ : left.type = .foreignId ∧ left.on.isSome = true := by
      simpa [hasConstraint, isForeign] using constraint
    have both := congrFun same .constrained
    simp only [modifierArguments, if_pos isForeignId, if_pos (sameType ▸ isForeignId)] at both
    rw [referencedColumn, referencedColumn, if_neg isForeign, if_neg (sameType ▸ isForeign)]
    obtain ⟨table, leftOn⟩ := Option.isSome_iff_exists.mp given
    rw [leftOn, Option.map_some, eq_comm, Option.map_eq_some_iff] at both
    obtain ⟨other, rightOn, texts⟩ := both
    obtain ⟨sameTable, sameColumns⟩ := List.cons.inj texts
    have columns := List.map_injective_iff.mpr Php.string_injective sameColumns
    have heads := congrArg List.head? columns
    rw [Option.head?_toList, Option.head?_toList] at heads
    rw [leftOn, rightOn, Php.string_injective sameTable]
    exact ⟨rfl, heads.symm⟩

theorem IsAccepted.constraint_eq
    (leftAccepted : left.IsAccepted) (rightAccepted : right.IsAccepted)
    (leftTight : ¬ left.HasLooseConstraint) (rightTight : ¬ right.HasLooseConstraint)
    (sameType : left.type = right.type) (same : left.modifierArguments = right.modifierArguments) :
    left.on = right.on ∧ left.referencedColumn = right.referencedColumn ∧
      left.onDelete = right.onDelete ∧ left.onUpdate = right.onUpdate := by
  have sameConstraint := hasConstraint_eq_of_modifierArguments_eq sameType (congrFun same _)
  cases constraint : left.hasConstraint with
  | false =>
      obtain ⟨leftOn, leftReferences, leftDelete, leftUpdate⟩ :=
        leftAccepted.eq_none_of_not_hasConstraint leftTight constraint
      obtain ⟨rightOn, rightReferences, rightDelete, rightUpdate⟩ :=
        rightAccepted.eq_none_of_not_hasConstraint rightTight (sameConstraint ▸ constraint)
      rw [leftOn, rightOn, referencedColumn, referencedColumn, leftReferences, rightReferences,
        leftDelete, leftUpdate, rightDelete, rightUpdate, sameType]
      exact ⟨rfl, rfl, rfl, rfl⟩
  | true =>
      obtain ⟨sameTable, sameColumn⟩ :=
        leftAccepted.on_and_referencedColumn_eq rightAccepted sameType same constraint
      have deletes := congrFun same .onDelete
      have updates := congrFun same .onUpdate
      simp only [modifierArguments, if_pos constraint, if_pos (sameConstraint ▸ constraint)]
        at deletes updates
      have spelled := Php.string_injective.comp ReferentialAction.name_injective
      exact ⟨sameTable, sameColumn,
        Option.map_injective spelled (map_eq_of_map_singleton_eq deletes),
        Option.map_injective spelled (map_eq_of_map_singleton_eq updates)⟩

/-! ## Equal expressions -/

theorem SameColumn.columnArguments_eq (same : SameColumn left right) :
    left.columnArguments = right.columnArguments := by
  cases pair : left.type.isTimestampPair with
  | true =>
      have none : ∀ type : ColumnType, type.isTimestampPair = true →
          type = .timestamps ∨ type = .timestampsTz := by
        intro type
        cases type <;> simp [ColumnType.isTimestampPair]
      rw [columnArguments.eq_def, columnArguments.eq_def right, ← same.type]
      rcases none _ pair with type | type <;> rw [type]
  | false =>
      simp only [columnArguments, same.type, same.name pair, same.length, same.total, same.places,
        same.options]

theorem SameColumn.modifierArguments_eq (same : SameColumn left right) :
    left.modifierArguments = right.modifierArguments := by
  have sameConstraint : left.hasConstraint = right.hasConstraint := by
    rw [hasConstraint, hasConstraint, same.type, same.on]
  have columns := same.referencedColumn
  rw [Attribute.referencedColumn, Attribute.referencedColumn, same.type] at columns
  funext modifier
  cases modifier <;> simp only [modifierArguments, same.type, same.on, sameConstraint,
    same.onDelete, same.onUpdate, same.nullable, same.unique]
  case references =>
    split_ifs with isForeign
    · rw [if_pos isForeign, if_pos isForeign] at columns
      rw [Option.some.inj columns]
    · rfl
  case default =>
    have literals := congrArg (Option.map fun literal => [literal]) same.default
    rw [Option.map_map, Option.map_map] at literals
    exact literals
  case after => exact congrArg (Option.map fun column => [Php.string column]) same.position
  case constrained =>
    split_ifs with isForeignId
    · have notForeign : right.type ≠ .foreign := by simp [isForeignId]
      rw [if_neg notForeign, if_neg notForeign] at columns
      rw [columns]
    · rfl

/-- A modifier without arguments is there exactly if its switch is on. -/
theorem flag_iff_of_arguments_eq
    {first second : Prop} [Decidable first] [Decidable second]
    (same : (if first then some ([] : List String) else none) = if second then some [] else none) :
    first ↔ second := by
  split_ifs at same with isFirst isSecond isSecond
  · exact iff_of_true isFirst isSecond
  · exact iff_of_false isFirst isSecond

/--
Two accepted attributes have equal column expressions exactly if they say the same about their
columns, unless a foreign key that constrains no table carries another field of a constraint.
-/
theorem expression_eq_iff_sameColumn
    (leftAccepted : left.IsAccepted) (rightAccepted : right.IsAccepted)
    (leftTight : ¬ left.HasLooseConstraint) (rightTight : ¬ right.HasLooseConstraint) :
    left.expression = right.expression ↔ SameColumn left right := by
  rw [expression_eq_iff]
  constructor
  · rintro ⟨sameType, sameArguments, sameModifiers⟩
    obtain ⟨sameTable, sameColumn, sameDelete, sameUpdate⟩ :=
      leftAccepted.constraint_eq rightAccepted leftTight rightTight sameType sameModifiers
    exact {
      type := sameType
      name := fun own => name_eq_of_columnArguments_eq sameType own sameArguments
      length := length_eq_of_columnArguments_eq leftAccepted rightAccepted sameType sameArguments
      total := total_eq_of_columnArguments_eq leftAccepted rightAccepted sameType sameArguments
      places := places_eq_of_columnArguments_eq leftAccepted rightAccepted sameType sameArguments
      options := options_eq_of_columnArguments_eq leftAccepted rightAccepted sameType sameArguments
      nullable := flag_iff_of_arguments_eq (congrFun sameModifiers .nullable)
      unique := flag_iff_of_arguments_eq (congrFun sameModifiers .unique)
      default := map_eq_of_map_singleton_eq (congrFun sameModifiers .default)
      position := Option.map_injective Php.string_injective
        (map_eq_of_map_singleton_eq (congrFun sameModifiers .after))
      on := sameTable
      referencedColumn := sameColumn
      onDelete := sameDelete
      onUpdate := sameUpdate }
  · intro same
    exact ⟨same.type, same.columnArguments_eq, same.modifierArguments_eq⟩

/-- A constraint that refers to the key of another table by default. -/
def teamConstraint : Attribute :=
  { name := "team_id", type := .foreign, on := some "teams" }

/-- The same constraint, with the key written out. -/
def teamKeyConstraint : Attribute :=
  { name := "team_id", type := .foreign, on := some "teams", references := some "id" }

/-- A column whose default is spelled like a modifier. -/
def spelledState : Attribute :=
  { name := "state", type := .string, default := some (.text "')->unique('") }

/-- A column that has the modifier instead. -/
def uniqueState : Attribute :=
  { name := "state", type := .string, unique := some true, default := some (.text "") }

/-- A key written out makes no difference, and a default that is spelled like a modifier is none. -/
theorem expression_eq_iff_sameColumn_of_examples :
    teamConstraint.expression = teamKeyConstraint.expression ∧
      spelledState.expression ≠ uniqueState.expression := by
  have team : teamConstraint.IsAccepted :=
    ⟨none, .mapping [(.text "name", .text "team_id"), (.text "type", .text "foreign"),
      (.text "on", .text "teams")], rfl⟩
  have teamKey : teamKeyConstraint.IsAccepted :=
    ⟨none, .mapping [(.text "name", .text "team_id"), (.text "type", .text "foreign"),
      (.text "on", .text "teams"), (.text "references", .text "id")], rfl⟩
  have spelled : spelledState.IsAccepted :=
    ⟨none, .mapping [(.text "name", .text "state"), (.text "type", .text "string"),
      (.text "default", .text "')->unique('")], rfl⟩
  have unique : uniqueState.IsAccepted :=
    ⟨none, .mapping [(.text "name", .text "state"), (.text "type", .text "string"),
      (.text "unique", .bool true), (.text "default", .text "")], rfl⟩
  constructor
  · refine (expression_eq_iff_sameColumn team teamKey (fun loose => ?_) fun loose => ?_).mpr ?_
    · cases loose.1
    · cases loose.1
    · constructor <;> first | rfl | exact fun _ => rfl
  · intro same
    have sameColumn := (expression_eq_iff_sameColumn spelled unique (fun loose => nomatch loose.1)
      fun loose => nomatch loose.1).mp same
    exact absurd (sameColumn.unique.mpr rfl) (by decide)

end Attribute

end Scaffold
