import Mathlib.Data.List.Perm.Basic
import Scaffold.Proofs.Attribute.Allowance
import Scaffold.Proofs.Schema.Creation

/-!
# Where index requests end up

Every index request of an entity either gives a line of the migration or is left out, and a request
is left out only where another line already does its work: an equal request before it, or the
definition of its one column.  The main statement says so of all requests at once, however often a
request is repeated and however many attributes share the name of a column.
-/

namespace Scaffold

/-- The request that gives no line. -/
def Elision.index : Elision → Index
  | .repeated index | .implied index => index

/-- The definition of an attribute provides the column of its name with an index of a kind. -/
inductive Attribute.Provides (attr : Attribute) : IndexKind → Prop
  | identity {kind : IndexKind} (isIdentity : attr.type.isIdentity = true)
      (among : kind = .primary ∨ kind = .unique ∨ kind = .index) : Provides attr kind
  | unique {kind : IndexKind} (isUnique : attr.unique = some true)
      (among : kind = .unique ∨ kind = .index) : Provides attr kind
  | constraint (isForeign : attr.type = .foreign) : Provides attr .index
  | constrained (isForeignId : attr.type = .foreignId) (table : String) (on : attr.on = some table) :
      Provides attr .index

theorem Attribute.provides_iff (attr : Attribute) (kind : IndexKind) :
    attr.Provides kind ↔ kind ∈ Schema.impliedBy attr := by
  constructor
  · intro provides
    cases provides with
    | identity isIdentity among => rcases among with rfl | rfl | rfl <;>
        simp [Schema.impliedBy, isIdentity]
    | unique isUnique among => rcases among with rfl | rfl <;>
        simp [Schema.impliedBy, isUnique]
    | constraint isForeign => simp [Schema.impliedBy, hasConstraint, isForeign]
    | constrained isForeignId table on => simp [Schema.impliedBy, hasConstraint, isForeignId, on]
  · intro member
    simp only [Schema.impliedBy, List.mem_append, List.mem_ite_nil_right, List.mem_cons,
      List.not_mem_nil, or_false, beq_iff_eq] at member
    rcases member with (⟨isIdentity, among⟩ | ⟨isUnique, among⟩) | ⟨isConstraint, rfl⟩
    · exact .identity isIdentity among
    · exact .unique isUnique among
    · simp only [hasConstraint, Bool.or_eq_true, beq_iff_eq, Bool.and_eq_true,
        Option.isSome_iff_exists] at isConstraint
      rcases isConstraint with isForeign | ⟨isForeignId, table, on⟩
      · exact .constraint isForeign
      · exact .constrained isForeignId table on

/--
What provides an index belongs to the column itself: in an accepted attribute it stands on a line
that creates the column of its name and no other, or on a constraint of that column.
-/
theorem Attribute.IsAccepted.isOwn_of_provides {attr : Attribute} (accepted : attr.IsAccepted)
    {kind : IndexKind} (provides : attr.Provides kind) :
    attr.created = [attr.name] ∨ attr.type = .foreign := by
  have byType : ∀ type : ColumnType,
      type.isIdentity = true ∨ type.allows "unique" = true ∨ type = .foreignId →
      type.creation = .own := by
    have all : ∀ type ∈ ColumnType.all,
        type.isIdentity = true ∨ type.allows "unique" = true ∨ type = .foreignId →
        type.creation = .own := by
      decide
    exact fun type => all type (ColumnType.mem_all type)
  have own (creates : attr.type.creation = .own) : attr.created = [attr.name] := by
    rw [Attribute.created, creates, Creation.columns]
  cases provides with
  | identity isIdentity _ => exact .inl (own (byType _ (.inl isIdentity)))
  | unique isUnique _ =>
      have member : ("unique", attr.unique.map Document.Value.bool) ∈ attr.values := by
        simp [Attribute.values]
      have allowed := accepted.allows_of_isSome member (by simp [isUnique])
      exact .inl (own (byType _ (.inr (.inl allowed))))
  | constraint isForeign => exact .inr isForeign
  | constrained isForeignId _ _ => exact .inl (own (byType _ (.inr (.inr isForeignId))))

namespace Schema

variable {attributes : List Attribute}

/-! ## Columns that have an index by themselves -/

/--
A column of a schema has an index of a kind by its own definition: by a declared attribute of its
name, or as the identity that the schema adds.
-/
def Provides (schema : Schema) (attributes : List Attribute) (column : String) (kind : IndexKind) :
    Prop :=
  (∃ attr ∈ declared attributes, attr.name = column ∧ attr.Provides kind) ∨
    ⟨"id", .id, "$table->id()", true⟩ ∈ schema.columns ∧ column = "id" ∧
      (kind = .primary ∨ kind = .unique ∨ kind = .index)

theorem isImplied_iff {column : String} {kind : IndexKind} (indexes : List Index)
    (elided : List Elision) :
    isImplied attributes column kind = true ↔
      Provides ⟨columnLines attributes, indexes, elided⟩ attributes column kind := by
  simp only [isImplied, Provides, identity_mem_columnLines_iff, Attribute.provides_iff,
    Bool.or_eq_true, Bool.and_eq_true, Bool.not_eq_true', beq_iff_eq, List.any_eq_true,
    List.contains_iff_mem, List.mem_cons, List.not_mem_nil, or_false, and_assoc]
  exact or_comm

theorem singleColumn?_any_iff {index : Index} {test : String → Bool} :
    (singleColumn? index).any test = true ↔ ∃ column, index.columns = [column] ∧ test column = true := by
  rw [singleColumn?]
  split
  · rename_i column single
    simp [single]
  · rename_i several
    simp only [Option.any_none, Bool.false_eq_true, false_iff, not_exists, not_and]
    intro column single
    exact absurd single (several column)

/-! ## Placing one request after another -/

/-- A request of one column that has such an index by its own definition. -/
def IsNeedless (attributes : List Attribute) (index : Index) : Prop :=
  ∃ column, index.columns = [column] ∧ isImplied attributes column index.kind = true

/--
Requests are placed after earlier ones: some are kept in their order, the others are left out, and
what is left out is needless or was asked for before.
-/
structure Placement (attributes : List Attribute) (earlier requests kept : List Index)
    (elided : List Elision) : Prop where
  perm : (kept ++ elided.map Elision.index).Perm requests
  keptInOrder : kept.Sublist requests
  elidedInOrder : (elided.map Elision.index).Sublist requests
  nodup : kept.Nodup
  fresh : ∀ index ∈ kept, index ∉ earlier
  needed : ∀ index ∈ kept, ¬ IsNeedless attributes index
  covered : ∀ index ∈ requests, index ∈ kept ∨ index ∈ earlier ∨ IsNeedless attributes index

namespace Placement

variable {earlier requests kept : List Index} {elided : List Elision} {index : Index}

theorem nil : Placement attributes earlier [] [] [] where
  perm := .nil
  keptInOrder := .slnil
  elidedInOrder := .slnil
  nodup := .nil
  fresh := nofun
  needed := nofun
  covered := nofun

theorem keep (later : Placement attributes (index :: earlier) requests kept elided)
    (new : index ∉ earlier) (needed : ¬ IsNeedless attributes index) :
    Placement attributes earlier (index :: requests) (index :: kept) elided where
  perm := later.perm.cons index
  keptInOrder := later.keptInOrder.cons_cons index
  elidedInOrder := later.elidedInOrder.cons index
  nodup := List.nodup_cons.mpr ⟨fun member => later.fresh index member List.mem_cons_self,
    later.nodup⟩
  fresh := by
    intro other member
    rcases List.mem_cons.mp member with rfl | later'
    · exact new
    · exact fun old => later.fresh other later' (List.mem_cons_of_mem _ old)
  needed := by
    intro other member
    rcases List.mem_cons.mp member with rfl | later'
    · exact needed
    · exact later.needed other later'
  covered := by
    intro other member
    rcases List.mem_cons.mp member with rfl | later'
    · exact .inl List.mem_cons_self
    · rcases later.covered other later' with here | old | needless
      · exact .inl (List.mem_cons_of_mem _ here)
      · rcases List.mem_cons.mp old with rfl | old
        · exact .inl List.mem_cons_self
        · exact .inr (.inl old)
      · exact .inr (.inr needless)

theorem leaveOut (later : Placement attributes (index :: earlier) requests kept elided)
    {elision : Elision} (same : elision.index = index)
    (reason : index ∈ earlier ∨ IsNeedless attributes index) :
    Placement attributes earlier (index :: requests) kept (elision :: elided) where
  perm := by
    rw [List.map_cons, same]
    exact List.perm_middle.trans (later.perm.cons index)
  keptInOrder := later.keptInOrder.cons index
  elidedInOrder := by
    rw [List.map_cons, same]
    exact later.elidedInOrder.cons_cons index
  nodup := later.nodup
  fresh := fun other member old => later.fresh other member (List.mem_cons_of_mem _ old)
  needed := later.needed
  covered := by
    intro other member
    rcases List.mem_cons.mp member with rfl | later'
    · exact .inr reason
    · rcases later.covered other later' with here | old | needless
      · exact .inl here
      -- What is left out counts as seen too, so a later repetition of it has the same reason.
      · rcases List.mem_cons.mp old with rfl | old
        · exact .inr reason
        · exact .inr (.inl old)
      · exact .inr (.inr needless)

end Placement

/-- The outcomes of one request. -/
theorem elision?_cases (attributes : List Attribute) (earlier : List Index) (index : Index) :
    elision? attributes earlier index = none ∧ index ∉ earlier ∧ ¬ IsNeedless attributes index ∨
      ∃ elision, elision? attributes earlier index = some elision ∧ elision.index = index ∧
        (index ∈ earlier ∨ IsNeedless attributes index) := by
  rw [elision?]
  split_ifs with old needless
  · exact .inr ⟨_, rfl, rfl, .inl (by simpa using old)⟩
  · exact .inr ⟨_, rfl, rfl, .inr (singleColumn?_any_iff.mp needless)⟩
  · refine .inl ⟨rfl, by simpa using old, ?_⟩
    rwa [IsNeedless, ← singleColumn?_any_iff]

theorem placement_of_placeIndexes {entity : Option String} {position : Nat}
    {earlier requests kept : List Index} {elided : List Elision}
    (placed : placeIndexes entity attributes position earlier requests = .ok (kept, elided)) :
    Placement attributes earlier requests kept elided := by
  induction requests generalizing position earlier kept elided with
  | nil =>
      obtain ⟨rfl, rfl⟩ := Prod.mk.inj (Except.ok.inj placed)
      exact .nil
  | cons index rest hypothesis =>
      rw [placeIndexes] at placed
      split at placed
      · cases later : placeIndexes entity attributes (position + 1) (index :: earlier) rest with
        | error violation =>
            rw [later] at placed
            cases placed
        | ok result =>
            rw [later] at placed
            have placement := hypothesis later
            rcases elision?_cases attributes earlier index with
              ⟨isKept, new, needed⟩ | ⟨elision, isElided, same, reason⟩
            · simp only [Except.map, isKept, Except.ok.injEq, Prod.mk.injEq] at placed
              obtain ⟨rfl, rfl⟩ := placed
              exact placement.keep new needed
            · simp only [Except.map, isElided, Except.ok.injEq, Prod.mk.injEq] at placed
              obtain ⟨rfl, rfl⟩ := placed
              exact placement.leaveOut same reason
      · cases placed

/-! ## Compiled schemas -/

/--
Of all index requests of a schema each one gives a line or is left out, both in the order of the
requests.  No line comes twice or does what the definition of its one column does already, and every
request is served by an equal line or by the definition of its one column.  In attributes that were
read from records that definition is a line that creates the column, or a constraint of it.
-/
theorem compile_places_every_index {entity : Option String} {indexes : List Index} {schema : Schema}
    (compiled : compile entity attributes indexes = .ok schema) :
    (schema.indexes ++ schema.elided.map Elision.index).Perm indexes ∧
    schema.indexes.length + schema.elided.length = indexes.length ∧
    schema.indexes.Sublist indexes ∧
    (schema.elided.map Elision.index).Sublist indexes ∧
    (schema.indexes.Pairwise fun first second =>
      ¬ (first.kind = second.kind ∧ first.columns = second.columns)) ∧
    (∀ index ∈ schema.indexes, ∀ column, index.columns = [column] →
      ¬ schema.Provides attributes column index.kind) ∧
    (∀ request ∈ indexes,
      (∃ index ∈ schema.indexes, index.kind = request.kind ∧ index.columns = request.columns) ∨
        ∃ column, request.columns = [column] ∧
          schema.Provides attributes column request.kind) ∧
    ∀ attr ∈ attributes, attr.IsAccepted → ∀ kind, attr.Provides kind →
      attr.created = [attr.name] ∨ attr.type = .foreign := by
  obtain ⟨-, lines, placed⟩ := compile_eq_ok compiled
  have placement := placement_of_placeIndexes placed
  have provides (column : String) (kind : IndexKind) :
      isImplied attributes column kind = true ↔ schema.Provides attributes column kind := by
    rw [isImplied_iff schema.indexes schema.elided, Provides, Provides, lines]
  refine ⟨placement.perm, ?_, placement.keptInOrder, placement.elidedInOrder, ?_, ?_, ?_, ?_⟩
  · rw [← placement.perm.length_eq, List.length_append, List.length_map]
  · refine placement.nodup.imp ?_
    rintro ⟨columns, kind⟩ ⟨otherColumns, otherKind⟩ apart ⟨sameKind, sameColumns⟩
    exact apart (Index.mk.injEq _ _ _ _ ▸ ⟨sameColumns, sameKind⟩)
  · intro index member column single provided
    exact placement.needed index member ⟨column, single, (provides column index.kind).mpr provided⟩
  · intro request member
    rcases placement.covered request member with here | old | ⟨column, single, implied⟩
    · exact .inl ⟨request, here, rfl, rfl⟩
    · cases old
    · exact .inr ⟨column, single, (provides column request.kind).mp implied⟩
  · intro attr _ accepted kind provided
    exact accepted.isOwn_of_provides provided

/-- An account with a unique address and a constrained key, in two attributes of one name. -/
def accountAttributes : List Attribute :=
  [{ name := "email", type := .string, unique := some true }, { name := "title", type := .string },
    { name := "team_id", type := .unsignedBigInteger },
    { name := "team_id", type := .foreign, on := some "teams" }]

/-- Requests of an account: repeated, composite, and needless for each of the possible reasons. -/
def accountIndexes : List Index :=
  [⟨["email"], .unique⟩, ⟨["title"], .index⟩, ⟨["id"], .primary⟩, ⟨["title"], .index⟩,
    ⟨["email"], .fulltext⟩, ⟨["team_id"], .index⟩, ⟨["email"], .unique⟩,
    ⟨["team_id", "title"], .index⟩]

/-- Of the eight requests of an account three give a line. -/
theorem compile_places_indexes_of_account :
    ∃ schema, compile (some "Account") accountAttributes accountIndexes = .ok schema ∧
      schema.indexes = [⟨["title"], .index⟩, ⟨["email"], .fulltext⟩,
        ⟨["team_id", "title"], .index⟩] ∧
      schema.indexes.length + schema.elided.length = accountIndexes.length ∧
      ∃ column, ["email"] = [column] ∧ schema.Provides accountAttributes column .unique := by
  have compiled : ∃ schema,
      compile (some "Account") accountAttributes accountIndexes = .ok schema ∧
        schema.indexes = [⟨["title"], .index⟩, ⟨["email"], .fulltext⟩,
          ⟨["team_id", "title"], .index⟩] := by
    exact ⟨_, rfl, by decide⟩
  obtain ⟨schema, compiled, kept⟩ := compiled
  obtain ⟨-, lengths, -, -, -, -, served, -⟩ := compile_places_every_index compiled
  refine ⟨schema, compiled, kept, lengths, ?_⟩
  rcases served ⟨["email"], .unique⟩ (by decide) with ⟨⟨_, _⟩, member, rfl, rfl⟩ | own
  · rw [kept] at member
    exact absurd member (by decide)
  · exact own

end Schema

end Scaffold
