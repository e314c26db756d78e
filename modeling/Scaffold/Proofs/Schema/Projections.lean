import Mathlib.Data.List.Flatten
import Scaffold.Proofs.Factory.DeclarationOrder
import Scaffold.Proofs.Ledger.Saving
import Scaffold.Proofs.Schema.KnownColumns
import Scaffold.Proofs.Schema.RequestRules

/-!
# Projections and the schema

Besides the lines of its migration, the attributes of an entity give the columns that may be filled
in bulk, the fields of a form request and the fields of a factory.  Each of these is worked out on
its own, but they name only columns that the schema creates, as long as every constraint stands on
such a column.
-/

namespace Scaffold

namespace Schema

variable {attributes : List Attribute}

/-! ## Columns that may be filled in bulk -/

/--
The columns of an attribute may be filled in bulk: its type leaves them to the user, they are not
managed by the framework, and no other attribute constrains them.
-/
structure IsAssignable (attributes : List Attribute) (attr : Attribute) : Prop where
  type : isFillableType attr.type = true
  name : attr.name ∉ systemColumns
  free : ∀ other ∈ attributes, other.type = .foreign → other.name ≠ attr.name

instance (attributes : List Attribute) : DecidablePred (IsAssignable attributes) := fun attr =>
  decidable_of_iff
    (isFillableType attr.type = true ∧ attr.name ∉ systemColumns ∧
      ∀ other ∈ attributes, other.type = .foreign → other.name ≠ attr.name)
    ⟨fun ⟨type, name, free⟩ => ⟨type, name, free⟩, fun ⟨type, name, free⟩ => ⟨type, name, free⟩⟩

/-- An attribute with a type that may be filled has columns, and these are in its own name. -/
theorem created_of_isFillableType {attr : Attribute} (fillable : isFillableType attr.type = true) :
    attr.isPlaceholder = false ∧
      attr.created = if attr.type.isMorph then attr.morphColumns else [attr.name] := by
  rw [Attribute.isPlaceholder, Attribute.created, Attribute.morphColumns]
  cases type : attr.type <;> rw [type] at fillable <;>
    first
    | exact ⟨rfl, rfl⟩
    | exact absurd fillable (by decide)

theorem fillableOf_eq (attr : Attribute) :
    fillableOf (constrainedColumns attributes) attr =
      if IsAssignable attributes attr then attr.created else [] := by
  have kept : (!isFillableType attr.type || systemColumns.contains attr.name ||
      (constrainedColumns attributes).contains attr.name) = false ↔
        IsAssignable attributes attr := by
    simp only [Bool.or_eq_false_iff, Bool.not_eq_false', List.contains_eq_mem,
      decide_eq_false_iff_not, constrainedColumns, List.mem_map, List.mem_filter, beq_iff_eq,
      not_exists, not_and, and_imp]
    exact ⟨fun ⟨⟨type, name⟩, free⟩ => ⟨type, name, free⟩,
      fun ⟨type, name, free⟩ => ⟨⟨type, name⟩, free⟩⟩
  rw [fillableOf]
  by_cases assignable : IsAssignable attributes attr
  · rw [kept.mpr assignable, if_pos assignable, (created_of_isFillableType assignable.type).2]
    rfl
  · rw [Bool.of_not_eq_false fun known => assignable (kept.mp known), if_neg assignable]
    rfl

/-- What may be filled are the columns of assignable attributes, each where it first comes. -/
theorem fillable_eq (attributes : List Attribute) :
    fillable attributes =
      distinct ((attributes.filter (IsAssignable attributes)).flatMap Attribute.created) := by
  have filtered (others : List Attribute) :
      others.flatMap (fillableOf (constrainedColumns attributes)) =
        (others.filter (IsAssignable attributes)).flatMap Attribute.created := by
    induction others with
    | nil => rfl
    | cons attr others hypothesis =>
        rw [List.flatMap_cons, hypothesis, fillableOf_eq, List.filter_cons]
        by_cases assignable : IsAssignable attributes attr <;> simp [assignable]
  rw [fillable, filtered]

theorem mem_fillable_iff {column : String} :
    column ∈ fillable attributes ↔
      ∃ attr ∈ attributes, IsAssignable attributes attr ∧ column ∈ attr.created := by
  simp [fillable_eq, and_assoc]

/-- What may be filled is created, and in the order of declaration. -/
theorem fillable_sublist (attributes : List Attribute) :
    (fillable attributes).Sublist (declaredColumns attributes) := by
  have among : (attributes.filter (IsAssignable attributes)).Sublist (declared attributes) := by
    have kept : attributes.filter (IsAssignable attributes) =
        (declared attributes).filter (IsAssignable attributes) := by
      rw [declared, List.filter_filter]
      refine List.filter_congr fun attr _ => ?_
      by_cases assignable : IsAssignable attributes attr
      · simp [assignable, (created_of_isFillableType assignable.type).1]
      · simp [assignable]
    rw [kept]
    exact List.filter_sublist
  rw [fillable_eq]
  exact (distinct_sublist _).trans (among.flatMap _)

theorem mem_createdColumns_of_mem_fillable {column : String}
    (fills : column ∈ fillable attributes) : column ∈ createdColumns attributes := by
  have isDeclared := (fillable_sublist attributes).subset fills
  exact mem_createdColumns_iff.mpr (.inr (.inl isDeclared))

/-! ## Fields of a form request -/

/-- A form request has a field for an attribute that may be filled and for a foreign key. -/
theorem mem_keys_validationRules_iff {table field : String} :
    field ∈ Keyed.keys (validationRules attributes table) ↔
      ∃ attr ∈ attributes, attr.name = field ∧ attr.type.isMorph = false ∧
        (field ∈ fillable attributes ∨ attr.type = .foreignId) := by
  have named : field ∈ Keyed.keys (validationRules attributes table) ↔
      ∃ attr, requested? attributes field = some attr := by
    simp only [Keyed.keys, List.mem_map, Prod.exists, exists_and_right, exists_eq_right,
      mem_validationRules_iff]
    constructor
    · rintro ⟨rules, attr, found, -⟩
      exact ⟨attr, found⟩
    · rintro ⟨attr, found⟩
      exact ⟨_, attr, found, rfl⟩
  rw [named, ← Option.isSome_iff_exists, requested?, List.find?_isSome]
  simp only [List.mem_reverse, List.mem_filter, isRequested, Bool.and_eq_true, Bool.not_eq_true',
    Bool.or_eq_true, List.contains_iff_mem, beq_iff_eq]
  constructor
  · rintro ⟨attr, ⟨member, noMorph, requested⟩, rfl⟩
    exact ⟨attr, member, rfl, noMorph, requested⟩
  · rintro ⟨attr, member, rfl, noMorph, requested⟩
    exact ⟨attr, ⟨member, noMorph, requested⟩, rfl⟩

/-- An attribute that has the column of its name creates it. -/
theorem name_mem_createdColumns {attr : Attribute} (member : attr ∈ attributes)
    (column : attr.isPlaceholder = false) (own : attr.type.creation = .own) :
    attr.name ∈ createdColumns attributes := by
  have isDeclared : attr ∈ declared attributes := by
    rw [declared, List.mem_filter, column]
    exact ⟨member, rfl⟩
  exact mem_createdColumns_of_mem_created isDeclared
    (mem_created_iff.mpr (.inr (.inr ⟨own, rfl⟩)))

/-- The column of a foreign key is created. -/
theorem mem_createdColumns_of_foreignId {attr : Attribute} (member : attr ∈ attributes)
    (key : attr.type = .foreignId) : attr.name ∈ createdColumns attributes := by
  apply name_mem_createdColumns member
  · rw [Attribute.isPlaceholder, key]
    rfl
  · rw [key]
    rfl

end Schema

/-! ## Fields of a factory -/

namespace Factory

variable {registry : Registry} {relations : List Relation} {attributes : List Attribute}

/-- What is not left to the framework is filled, unless its numbers are too large. -/
theorem exists_filling?_iff {attr : Attribute} (fits : ¬ attr.Overflows) :
    (∃ filling, filling? registry relations attr = some filling) ↔ isSkipped attr = false := by
  constructor
  · rintro ⟨filling, fills⟩
    exact isSkipped_of_filling? fills
  · intro kept
    cases worded : nameWord? attr.name with
    | some found =>
        obtain ⟨word, call⟩ := found
        exact ⟨_, filling?_of_word kept worded⟩
    | none =>
        cases key : attr.type.isForeignKey with
        | true => exact ⟨_, filling?_of_target kept worded key⟩
        | false =>
            cases typed : typeExpression attr with
            | error error =>
                have tooLarge := typeExpression_eq_error_iff.mp typed
                exact absurd ⟨kept, worded, tooLarge⟩ fits
            | ok made =>
                refine ⟨⟨attr.name, made.1, made.2⟩, ?_⟩
                rw [filling?, expression?, kept, worded, key, typed]
                rfl

/-- A factory has a field for each attribute that is not left to the framework. -/
theorem mem_keys_expressions_iff {found : Keyed FactoryExpression}
    (resolved : expressions registry relations attributes [] = .ok found) {field : String} :
    field ∈ Keyed.keys found ↔ ∃ attr ∈ attributes, attr.name = field ∧ isSkipped attr = false := by
  have fits {attr : Attribute} (member : attr ∈ attributes) : ¬ attr.Overflows := by
    intro overflows
    have failed : expressions registry relations attributes [] = .error .numberTooLarge :=
      expressions_eq_error_iff.mpr ⟨attr, member, overflows⟩
    rw [resolved] at failed
    cases failed
  have filledBy := get?_expressions resolved field
  have isKey : field ∈ Keyed.keys found ↔ ∃ filling, found.get? field = some filling := by
    rw [← not_iff_not, ← Keyed.get?_eq_none_iff, Option.eq_none_iff_forall_ne_some, not_exists]
  have isFilled : field ∈ Keyed.keys found ↔
      ∃ attr, attr ∈ filled registry relations attributes field := by
    rw [isKey, filledBy]
    cases last : (filled registry relations attributes field).getLast? with
    | none => simp [List.getLast?_eq_none_iff.mp last, Keyed.get?]
    | some attr =>
        have member := List.mem_of_getLast? last
        obtain ⟨-, -, filling, fills⟩ := mem_filled_iff.mp member
        refine iff_of_true ⟨filling, ?_⟩ ⟨attr, member⟩
        rw [Option.bind_some, fills, Option.some_or]
  rw [isFilled]
  refine exists_congr fun attr => ?_
  rw [mem_filled_iff]
  exact and_congr_right fun member => and_congr_right fun _ => exists_filling?_iff (fits member)

end Factory

/-! ## All projections -/

namespace Schema

variable {attributes : List Attribute}

/-- A column that is assigned as it is has a field in a factory. -/
theorem IsAssignable.isSkipped_eq_false {attr : Attribute}
    (assignable : IsAssignable attributes attr) (noMorph : attr.type.isMorph = false) :
    Factory.isSkipped attr = false := by
  have type := assignable.type
  simp only [isFillableType, Bool.not_eq_true', Bool.or_eq_false_iff] at type
  obtain ⟨⟨⟨⟨identity, pair⟩, softDelete⟩, -⟩, placeholder⟩ := type
  simp [Factory.isSkipped, identity, pair, softDelete, noMorph, Attribute.isPlaceholder,
    placeholder, assignable.name]

/-- What a factory fills is created, if constraints stand on columns that are. -/
theorem mem_createdColumns_of_isSkipped_eq_false
    (constrained : ∀ attr ∈ attributes, attr.type = .foreign →
      attr.name ∈ createdColumns attributes)
    {attr : Attribute} (member : attr ∈ attributes) (kept : Factory.isSkipped attr = false) :
    attr.name ∈ createdColumns attributes := by
  simp only [Factory.isSkipped, Bool.or_eq_false_iff] at kept
  obtain ⟨⟨⟨⟨⟨-, noPair⟩, -⟩, noMorph⟩, noPlaceholder⟩, -⟩ := kept
  cases creation : attr.type.creation with
  | pair =>
      rw [(ColumnType.isTimestampPair_iff _).mpr creation] at noPair
      cases noPair
  | morph =>
      rw [(ColumnType.isMorph_iff _).mpr creation] at noMorph
      cases noMorph
  | constraint =>
      exact constrained attr member (eq_of_beq ((ColumnType.isForeign_iff _).mpr creation))
  | own => exact name_mem_createdColumns member noPlaceholder creation

/--
The projections of attributes agree with the schema that they compile to, as long as every
constraint stands on a column that some line creates.  The columns that may be filled in bulk come
once and in the order of declaration, and like the fields of a form request and those of a factory
they are columns of the schema.  A form request has fields for such columns and for foreign keys
only, and a factory has one for each such column that is no part of a morph.
-/
theorem projections_agree
    {entity : Option String} {indexes : List Index} {schema : Schema}
    (compiled : compile entity attributes indexes = .ok schema)
    (constrained : ∀ attr ∈ attributes, attr.type = .foreign →
      ∃ line ∈ schema.columns, attr.name ∈ line.created) :
    (fillable attributes).Nodup ∧
    (fillable attributes).Sublist (declaredColumns attributes) ∧
    fillable attributes =
      distinct ((attributes.filter (IsAssignable attributes)).flatMap Attribute.created) ∧
    (∀ column ∈ fillable attributes, column ∈ schema.created) ∧
    (∀ table, ∀ field ∈ Keyed.keys (validationRules attributes table),
      field ∈ schema.created ∧
        (field ∈ fillable attributes ∨
          ∃ attr ∈ attributes, attr.type = .foreignId ∧ attr.name = field)) ∧
    ∀ registry relations found,
      Factory.expressions registry relations attributes [] = .ok found →
        (∀ field ∈ Keyed.keys found, field ∈ schema.created) ∧
        ∀ column ∈ fillable attributes, column ∈ Keyed.keys found ∨
          ∃ attr ∈ attributes, IsAssignable attributes attr ∧ attr.type.isMorph = true ∧
            column ∈ attr.morphColumns := by
  obtain ⟨-, lines, -⟩ := compile_eq_ok compiled
  have created : schema.created = createdColumns attributes := by
    rw [Schema.created, lines, createdColumns]
  have stands : ∀ attr ∈ attributes, attr.type = .foreign →
      attr.name ∈ createdColumns attributes := by
    intro attr member foreign
    rw [← created]
    exact List.mem_flatMap.mpr (constrained attr member foreign)
  rw [created]
  refine ⟨nodup_distinct _, fillable_sublist attributes, fillable_eq attributes,
    fun column => mem_createdColumns_of_mem_fillable, ?rules, ?factory⟩
  case rules =>
    intro table field isField
    obtain ⟨attr, member, rfl, -, fills | key⟩ := mem_keys_validationRules_iff.mp isField
    · exact ⟨mem_createdColumns_of_mem_fillable fills, .inl fills⟩
    · exact ⟨mem_createdColumns_of_foreignId member key, .inr ⟨attr, member, key, rfl⟩⟩
  case factory =>
    intro registry relations found resolved
    simp only [Factory.mem_keys_expressions_iff resolved]
    constructor
    · rintro _ ⟨attr, member, rfl, kept⟩
      exact mem_createdColumns_of_isSkipped_eq_false stands member kept
    · intro column fills
      obtain ⟨attr, member, assignable, own⟩ := mem_fillable_iff.mp fills
      rw [(created_of_isFillableType assignable.type).2] at own
      split_ifs at own with morph
      · exact .inr ⟨attr, member, assignable, morph, own⟩
      · have noMorph : attr.type.isMorph = false := by simpa using morph
        exact .inl ⟨attr, member, (List.mem_singleton.mp own).symm,
          assignable.isSkipped_eq_false noMorph⟩

/-- A review of a subject of any class, by an author and with an editor. -/
def reviewAttributes : List Attribute :=
  [{ name := "title", type := .string }, { name := "subject", type := .morphs },
    { name := "author_id", type := .foreignId, on := some "users" },
    { name := "editor_id", type := .unsignedBigInteger },
    { name := "editor_id", type := .foreign, on := some "users" },
    { name := "tags", type := .relationship }, { name := "deleted_at", type := .softDeletes }]

/-- The projections of a review: its editor is left to the constraint, its tags have no column. -/
theorem projections_agree_review :
    ∃ schema found, compile (some "Review") reviewAttributes [] = .ok schema ∧
      Factory.expressions Factory.blogRegistry [] reviewAttributes [] = .ok found ∧
      fillable reviewAttributes = ["title", "subject_type", "subject_id"] ∧
      Keyed.keys (validationRules reviewAttributes "reviews") = ["title", "author_id"] ∧
      Keyed.keys found = ["title", "author_id", "editor_id"] ∧
      (∀ column ∈ fillable reviewAttributes, column ∈ schema.created) ∧
      (∀ field ∈ Keyed.keys (validationRules reviewAttributes "reviews"), field ∈ schema.created) ∧
      ∀ field ∈ Keyed.keys found, field ∈ schema.created := by
  have compiled : compile (some "Review") reviewAttributes [] =
      .ok ⟨columnLines reviewAttributes, [], []⟩ := by
    rfl
  obtain ⟨-, -, -, columns, rules, factory⟩ := projections_agree compiled (by decide)
  refine ⟨_, _, compiled, rfl, by decide, by decide +kernel, by decide +kernel, columns, ?_, ?_⟩
  · exact fun field isField => (rules "reviews" field isField).1
  · exact (factory Factory.blogRegistry [] _ rfl).1

end Schema

end Scaffold
