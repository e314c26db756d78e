import Mathlib.Data.List.Nodup
import Scaffold.Entity.Descriptor
import Scaffold.Proofs.Document.Reading
import Scaffold.Proofs.Schema.KnownColumns

/-!
# When a component is drafted

A component is drafted when each of its records can be read, no attribute is declared twice, and its
records fit one another: the placeholders stand for relations, no two relations share a name, and
the indexes name columns of the entity.
-/

namespace Scaffold

open Scaffold.Document (Value)

/-! ## Lists of records -/

/-- Records that are read one after the other are read when each of them is. -/
theorem exists_readAll_iff
    {ε α β : Type} {read : β → Except ε α} {readAll : List β → Except ε (List α)}
    (nil : readAll [] = .ok [])
    (cons : ∀ record rest, readAll (record :: rest) = do
      let first ← read record
      let others ← readAll rest
      return first :: others)
    (records : List β) :
    (∃ results, readAll records = .ok results) ↔
      ∀ record ∈ records, ∃ result, read record = .ok result := by
  induction records with
  | nil => simp [nil]
  | cons record rest hypothesis =>
      rw [List.forall_mem_cons, ← hypothesis]
      simp only [cons, bind_eq_ok_iff]
      constructor
      · rintro ⟨_, first, isFirst, others, areOthers, ⟨⟩⟩
        exact ⟨⟨first, isFirst⟩, others, areOthers⟩
      · rintro ⟨⟨first, isFirst⟩, others, areOthers⟩
        exact ⟨_, first, isFirst, others, areOthers, rfl⟩

theorem Index.exists_ofRecords_iff
    (entity : Option String) (position : Nat) (records : List Value) :
    (∃ indexes, ofRecords entity position records = .ok indexes) ↔
      ∀ reading ∈ records.mapIdx fun place record => ofRecord entity (position + place) record,
        ∃ index, reading = .ok index := by
  induction records generalizing position with
  | nil => simp [ofRecords]
  | cons record rest hypothesis =>
      have shifted : (fun place record => ofRecord entity (position + (place + 1)) record) =
          fun place record => ofRecord entity (position + 1 + place) record := by
        funext place record
        rw [Nat.add_assoc, Nat.add_comm 1]
      rw [List.mapIdx_cons, List.forall_mem_cons, shifted, ← hypothesis (position + 1)]
      simp only [ofRecords, bind_eq_ok_iff, Nat.add_zero]
      constructor
      · rintro ⟨_, index, isIndex, others, areOthers, ⟨⟩⟩
        exact ⟨⟨index, isIndex⟩, others, areOthers⟩
      · rintro ⟨⟨index, isIndex⟩, others, areOthers⟩
        exact ⟨_, index, isIndex, others, areOthers, rfl⟩

/-! ## Checks across records -/

/-- The placeholders among attributes are read when each of them is. -/
theorem Draft.exists_placeholderRelations_iff
    (entity : Option String) (attributes : List Attribute) :
    (∃ relations, placeholderRelations entity attributes = .ok relations) ↔
      ∀ attr ∈ attributes, attr.isPlaceholder = true →
        ∃ relation, Relation.ofPlaceholder entity attr = .ok relation := by
  induction attributes with
  | nil => simp [placeholderRelations]
  | cons attr rest hypothesis =>
      rw [List.forall_mem_cons, ← hypothesis, placeholderRelations]
      by_cases placeholder : attr.isPlaceholder = true
      · simp only [placeholder, if_true, true_imp_iff, bind_eq_ok_iff]
        constructor
        · rintro ⟨_, relation, isRelation, others, areOthers, ⟨⟩⟩
          exact ⟨⟨relation, isRelation⟩, others, areOthers⟩
        · rintro ⟨⟨relation, isRelation⟩, others, areOthers⟩
          exact ⟨_, relation, isRelation, others, areOthers, rfl⟩
      · simp [placeholder]

theorem Relation.firstRepeated?_eq_none_iff (known : List String) (relations : List Relation) :
    firstRepeated? known relations = none ↔
      (relations.map (·.name)).Nodup ∧ ∀ relation ∈ relations, relation.name ∉ known := by
  induction relations generalizing known with
  | nil => simp [firstRepeated?]
  | cons relation rest hypothesis =>
      rw [firstRepeated?]
      split_ifs with taken
      · simp only [List.contains_iff_mem] at taken
        simp [taken]
      · simp only [List.contains_iff_mem] at taken
        rw [hypothesis, List.map_cons, List.nodup_cons, List.forall_mem_cons, List.mem_map]
        constructor
        · rintro ⟨nodup, fresh⟩
          refine ⟨⟨?_, nodup⟩, taken, fun other member => ?_⟩
          · rintro ⟨other, member, same⟩
            exact fresh other member (by simp [same])
          · exact fun early => fresh other member (List.mem_cons_of_mem _ early)
        · rintro ⟨⟨apart, nodup⟩, -, fresh⟩
          refine ⟨nodup, fun other member => ?_⟩
          rw [List.mem_cons, not_or]
          exact ⟨fun same => apart ⟨other, member, same⟩, fresh other member⟩

theorem Relation.exists_compileAll_iff
    (entity : Option String) (registry : Registry) (relations : List Relation) :
    (∃ methods, compileAll entity registry relations = .ok methods) ↔
      (relations.map (·.name)).Nodup := by
  have distinct := firstRepeated?_eq_none_iff [] relations
  simp only [List.not_mem_nil, not_false_eq_true, implies_true, and_true] at distinct
  rw [← distinct, compileAll, checkDistinct]
  cases firstRepeated? [] relations <;> simp [Except.map]

theorem Schema.exists_placeIndexes_iff
    (entity : Option String) (attributes : List Attribute) (position : Nat)
    (earlier indexes : List Index) :
    (∃ placed, placeIndexes entity attributes position earlier indexes = .ok placed) ↔
      ∀ index ∈ indexes, ∀ column ∈ index.columns, column ∈ indexableColumns attributes := by
  rcases placeIndexes_cases entity attributes position earlier indexes with
    ⟨isPlaced, known⟩ | ⟨before, index, stops, failed⟩
  · exact iff_of_true isPlaced known
  · rw [failed]
    exact iff_of_false (by simp) stops.not_all_known

theorem Schema.exists_compile_iff
    (entity : Option String) (attributes : List Attribute) (indexes : List Index) :
    (∃ schema, compile entity attributes indexes = .ok schema) ↔
      firstRepeated? [] [] attributes = none ∧
        ∀ index ∈ indexes, ∀ column ∈ index.columns, column ∈ indexableColumns attributes := by
  rw [← exists_placeIndexes_iff entity attributes 0 []]
  simp only [compile, bind_eq_ok_iff, checkDistinct]
  cases firstRepeated? [] [] attributes with
  | none =>
      constructor
      · rintro ⟨_, _, -, placed, isPlaced, -⟩
        exact ⟨rfl, placed, isPlaced⟩
      · rintro ⟨-, placed, isPlaced⟩
        exact ⟨_, (), rfl, placed, isPlaced, rfl⟩
  | some attr => simp

/-! ## Components -/

namespace Component

/-- Every record of a component can be read. -/
structure IsReadable (component : Component) : Prop where
  attributes : ∀ record ∈ component.attributes,
    ∃ attr, Attribute.ofRecord (some component.entity) record = .ok attr
  relations : ∀ record ∈ component.relations,
    ∃ relation, Relation.ofRecord (some component.entity) record = .ok relation
  indexes : ∀ reading ∈ component.indexes.mapIdx (Index.ofRecord (some component.entity)),
    ∃ index, reading = .ok index

/--
The records of a component fit one another, as far as they can be read: placeholders stand for
relations, no two relations share a name, and indexes name columns of the entity.
-/
structure IsLinked (component : Component) : Prop where
  placeholders : ∀ {attributes},
    Attribute.ofRecords (some component.entity) component.attributes = .ok attributes →
      ∀ attr ∈ attributes, attr.isPlaceholder = true →
        ∃ relation, Relation.ofPlaceholder (some component.entity) attr = .ok relation
  names : ∀ {attributes inline listed},
    Attribute.ofRecords (some component.entity) component.attributes = .ok attributes →
      Draft.placeholderRelations (some component.entity) attributes = .ok inline →
        Relation.ofRecords (some component.entity) component.relations = .ok listed →
          ((inline ++ listed).map (·.name)).Nodup
  columns : ∀ {attributes indexes},
    Attribute.ofRecords (some component.entity) component.attributes = .ok attributes →
      Index.ofRecords (some component.entity) 0 component.indexes = .ok indexes →
        ∀ index ∈ indexes, ∀ column ∈ index.columns,
          column ∈ Schema.indexableColumns attributes

/-- No attribute of a component is declared twice, as far as its attributes can be read. -/
def IsDistinct (component : Component) : Prop :=
  ∀ attributes,
    Attribute.ofRecords (some component.entity) component.attributes = .ok attributes →
      Schema.firstRepeated? [] [] attributes = none

/-- A component is drafted when its records can be read, are distinct and fit one another. -/
theorem exists_draft_iff (registry : Registry) (component : Component) :
    (∃ draft, Draft.ofComponent registry component = .ok draft) ↔
      component.IsReadable ∧ component.IsDistinct ∧ component.IsLinked := by
  have attributesRead := @exists_readAll_iff _ _ _ (Attribute.ofRecord (some component.entity))
    (Attribute.ofRecords (some component.entity)) rfl (fun _ _ => rfl) component.attributes
  have relationsRead := @exists_readAll_iff _ _ _ (Relation.ofRecord (some component.entity))
    (Relation.ofRecords (some component.entity)) rfl (fun _ _ => rfl) component.relations
  have indexesRead := Index.exists_ofRecords_iff (some component.entity) 0 component.indexes
  simp only [Nat.zero_add] at indexesRead
  simp only [Draft.ofComponent, bind_eq_ok_iff, Schema.checkDistinct]
  constructor
  · rintro ⟨_, attributes, areAttributes, _, -, inline, areInline, listed, areListed, indexes,
      areIndexes, schema, isSchema, methods, areMethods, -⟩
    obtain ⟨distinct, columns⟩ := (Schema.exists_compile_iff _ _ _).mp ⟨schema, isSchema⟩
    refine ⟨⟨attributesRead.mp ⟨_, areAttributes⟩, relationsRead.mp ⟨_, areListed⟩,
      indexesRead.mp ⟨_, areIndexes⟩⟩, ?_, ?_, ?_, ?_⟩
    · intro others areOthers
      rw [areAttributes] at areOthers
      cases areOthers
      exact distinct
    · intro others areOthers
      rw [areAttributes] at areOthers
      cases areOthers
      exact (Draft.exists_placeholderRelations_iff _ _).mp ⟨inline, areInline⟩
    · intro others otherInline otherListed areOthers areOtherInline areOtherListed
      rw [areAttributes] at areOthers
      cases areOthers
      rw [areInline] at areOtherInline
      cases areOtherInline
      rw [areListed] at areOtherListed
      cases areOtherListed
      exact (Relation.exists_compileAll_iff _ _ _).mp ⟨methods, areMethods⟩
    · intro others otherIndexes areOthers areOtherIndexes
      rw [areAttributes] at areOthers
      cases areOthers
      rw [areIndexes] at areOtherIndexes
      cases areOtherIndexes
      exact columns
  · rintro ⟨readable, distinct, linked⟩
    obtain ⟨attributes, areAttributes⟩ := attributesRead.mpr readable.attributes
    obtain ⟨listed, areListed⟩ := relationsRead.mpr readable.relations
    obtain ⟨indexes, areIndexes⟩ := indexesRead.mpr readable.indexes
    obtain ⟨inline, areInline⟩ := (Draft.exists_placeholderRelations_iff _ _).mpr
      (linked.placeholders areAttributes)
    obtain ⟨schema, isSchema⟩ := (Schema.exists_compile_iff (some component.entity) _ _).mpr
      ⟨distinct attributes areAttributes, linked.columns areAttributes areIndexes⟩
    obtain ⟨methods, areMethods⟩ := (Relation.exists_compileAll_iff _ registry _).mpr
      (linked.names areAttributes areInline areListed)
    refine ⟨_, attributes, areAttributes, (), ?_, inline, areInline, listed, areListed, indexes,
      areIndexes, schema, isSchema, methods, areMethods, rfl⟩
    rw [distinct attributes areAttributes]

end Component

end Scaffold
