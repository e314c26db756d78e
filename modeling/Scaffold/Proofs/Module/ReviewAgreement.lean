import Scaffold.Proofs.Module.Drafting
import Scaffold.Proofs.Module.Isolation

/-!
# Reviews and compilations

A review looks at the records of a module one by one, and a compilation at the records of each
component as a whole.  What a review leaves to the compilation are the checks across records: that
placeholders stand for relations, that no two relations share a name, and that indexes name columns.
A module passes its review and these checks exactly when none of its components fails.
-/

namespace Scaffold

open Scaffold.Document (Value)

/-! ## What a review reports -/

theorem Review.errors_nil_of_readings_iff {α : Type} (readings : List (Except Violation α)) :
    errors (Component.reviewReadings readings) = [] ↔
      ∀ reading ∈ readings, ∃ result, reading = .ok result := by
  induction readings with
  | nil => simp [Component.reviewReadings, errors]
  | cons reading rest hypothesis =>
      rw [List.forall_mem_cons, ← hypothesis]
      cases reading with
      | error violation => simp [Component.reviewReadings, errors, Finding.ofViolation]
      | ok result => simp [Component.reviewReadings]

namespace Attribute

/-- A review reports none of the attributes as repeated after the names of those before them. -/
def PassReview (columns constraints : List String) : List Attribute → Prop
  | [] => True
  | attr :: rest =>
      (attr.type.isTimestampPair = false →
          attr.name ∉ if attr.type = .foreign then constraints else columns) ∧
        if attr.type = .foreign then PassReview columns (attr.name :: constraints) rest
        else PassReview (attr.name :: columns) constraints rest

/-- No column is named like a pair of timestamps before it. -/
def ArePairsApart (attributes : List Attribute) : Prop :=
  attributes.Pairwise fun earlier later => earlier.type.isTimestampPair = true →
    later.type.isTimestampPair = false → later.type ≠ .foreign → later.name ≠ earlier.name

theorem firstRepeated?_of_passReview
    {known columns constraints : List String} {attributes : List Attribute}
    (passes : PassReview columns constraints attributes) (among : known ⊆ columns) :
    Schema.firstRepeated? known constraints attributes = none := by
  induction attributes generalizing known columns constraints with
  | nil => rfl
  | cons attr rest hypothesis =>
      obtain ⟨fresh, later⟩ := passes
      rw [Schema.firstRepeated?]
      by_cases pair : attr.type.isTimestampPair = true
      · have column : attr.type ≠ .foreign := by
          intro same
          rw [same] at pair
          cases pair
        rw [if_pos pair]
        rw [if_neg column] at later
        exact hypothesis later fun name member => List.mem_cons_of_mem _ (among member)
      · have new := fresh (by simpa using pair)
        rw [if_neg pair]
        by_cases foreign : attr.type = .foreign
        · rw [if_pos foreign] at new later
          rw [if_pos (by simp [foreign]), if_neg (by simpa using new)]
          exact hypothesis later among
        · rw [if_neg foreign] at new later
          rw [if_neg (by simpa using foreign),
            if_neg (by simpa using fun member => new (among member))]
          exact hypothesis later (List.cons_subset_cons _ among)

theorem passReview_of_firstRepeated?
    {known columns constraints : List String} {attributes : List Attribute}
    (distinct : Schema.firstRepeated? known constraints attributes = none)
    (apart : ArePairsApart attributes)
    (taken : ∀ name ∈ columns, name ∈ known ∨ ∀ attr ∈ attributes,
      attr.type.isTimestampPair = false → attr.type ≠ .foreign → attr.name ≠ name) :
    PassReview columns constraints attributes := by
  induction attributes generalizing known columns constraints with
  | nil => trivial
  | cons attr rest hypothesis =>
      obtain ⟨first, others⟩ := List.pairwise_cons.mp apart
      have later : ∀ name ∈ columns, name ∈ known ∨ ∀ attr ∈ rest,
          attr.type.isTimestampPair = false → attr.type ≠ .foreign → attr.name ≠ name :=
        fun name member => (taken name member).imp_right fun free attr among =>
          free attr (List.mem_cons_of_mem _ among)
      rw [Schema.firstRepeated?] at distinct
      by_cases pair : attr.type.isTimestampPair = true
      · have column : attr.type ≠ .foreign := by
          intro same
          rw [same] at pair
          cases pair
        rw [if_pos pair] at distinct
        refine ⟨fun none => absurd pair (by simp [none]), ?_⟩
        rw [if_neg column]
        apply hypothesis distinct others
        rintro name member
        rcases List.mem_cons.mp member with rfl | old
        · exact .inr fun other among => first other among pair
        · exact later name old
      · rw [if_neg pair] at distinct
        by_cases foreign : attr.type = .foreign
        · rw [if_pos (by simp [foreign])] at distinct
          by_cases repeated : attr.name ∈ constraints
          · rw [if_pos (by simpa using repeated)] at distinct
            cases distinct
          · rw [if_neg (by simpa using repeated)] at distinct
            refine ⟨fun _ => by rwa [if_pos foreign], ?_⟩
            rw [if_pos foreign]
            exact hypothesis distinct others later
        · rw [if_neg (by simpa using foreign)] at distinct
          by_cases repeated : attr.name ∈ known
          · rw [if_pos (by simpa using repeated)] at distinct
            cases distinct
          · rw [if_neg (by simpa using repeated)] at distinct
            refine ⟨fun _ => ?_, ?_⟩
            · rw [if_neg foreign]
              intro member
              rcases taken attr.name member with early | free
              · exact repeated early
              · exact free attr List.mem_cons_self (by simpa using pair) foreign rfl
            · rw [if_neg foreign]
              apply hypothesis distinct others
              intro name member
              rcases List.mem_cons.mp member with rfl | old
              · exact .inl List.mem_cons_self
              · exact (later name old).imp_left (List.mem_cons_of_mem _)

end Attribute

namespace Component

theorem errors_repeated_eq_nil_iff (entity : String) (attr : Attribute) (names : List String) :
    Review.errors (if names.contains attr.name && !attr.type.isTimestampPair then
      reviewRepeated entity attr else []) = [] ↔
        (attr.type.isTimestampPair = false → attr.name ∉ names) := by
  split_ifs with again
  · simp only [Bool.and_eq_true, List.contains_iff_mem, Bool.not_eq_true'] at again
    exact iff_of_false nofun fun fresh => fresh again.2 again.1
  · simp only [Bool.and_eq_true, List.contains_iff_mem, Bool.not_eq_true', not_and] at again
    exact iff_of_true rfl fun noPair member => again member noPair

theorem errors_reviewSpelling (entity : String) (attr : Attribute) :
    Review.errors (reviewSpelling entity attr) = [] := by
  rw [reviewSpelling]
  split_ifs <;> rfl

/-- A review of attribute records reports nothing when they are read and none is repeated. -/
theorem errors_reviewAttributes_eq_nil_iff
    (entity : String) (columns constraints : List String) (records : List Value) :
    Review.errors (reviewAttributes entity columns constraints records) = [] ↔
      ∃ attributes, Attribute.ofRecords (some entity) records = .ok attributes ∧
        Attribute.PassReview columns constraints attributes := by
  induction records generalizing columns constraints with
  | nil => simp [reviewAttributes, Attribute.ofRecords, Attribute.PassReview, Review.errors]
  | cons record rest hypothesis =>
      rw [reviewAttributes]
      cases first : Attribute.ofRecord (some entity) record with
      | error violation =>
          simp [Review.errors, Finding.ofViolation, Attribute.ofRecords, bind_eq_ok_iff, first]
      | ok attr =>
          have later : Review.errors (if (attr.type == .foreign) = true then
                reviewAttributes entity columns (attr.name :: constraints) rest
              else reviewAttributes entity (attr.name :: columns) constraints rest) = [] ↔
              ∃ others, Attribute.ofRecords (some entity) rest = .ok others ∧
                if attr.type = .foreign then
                  Attribute.PassReview columns (attr.name :: constraints) others
                else Attribute.PassReview (attr.name :: columns) constraints others := by
            simp only [beq_iff_eq]
            split_ifs
            · exact hypothesis columns (attr.name :: constraints)
            · exact hypothesis (attr.name :: columns) constraints
          dsimp only
          rw [Review.errors_append, Review.errors_append, errors_reviewSpelling, List.append_nil,
            List.append_eq_nil_iff, errors_repeated_eq_nil_iff, later]
          simp only [beq_iff_eq]
          constructor
          · rintro ⟨fresh, others, areOthers, passes⟩
            refine ⟨attr :: others, ?_, fresh, passes⟩
            rw [Attribute.ofRecords, first, bind_eq_ok_iff]
            exact ⟨attr, rfl, bind_eq_ok_iff.mpr ⟨others, areOthers, rfl⟩⟩
          · rintro ⟨attributes, areAttributes, passes⟩
            rw [Attribute.ofRecords, first] at areAttributes
            obtain ⟨_, ⟨⟩, areAttributes⟩ := bind_eq_ok_iff.mp areAttributes
            obtain ⟨others, areOthers, ⟨⟩⟩ := bind_eq_ok_iff.mp areAttributes
            exact ⟨passes.1, others, areOthers, passes.2⟩

/-- No column of a component is named like a pair of timestamps before it. -/
def HasPairsApart (component : Component) : Prop :=
  ∀ attributes,
    Attribute.ofRecords (some component.entity) component.attributes = .ok attributes →
      Attribute.ArePairsApart attributes

/-- A review reports nothing about a component whose records can be read and are distinct. -/
theorem errors_reviewRecords_eq_nil_iff {component : Component} (apart : component.HasPairsApart) :
    Review.errors component.reviewRecords = [] ↔
      component.IsReadable ∧ component.IsDistinct := by
  have attributesRead := @exists_readAll_iff _ _ _ (Attribute.ofRecord (some component.entity))
    (Attribute.ofRecords (some component.entity)) rfl (fun _ _ => rfl) component.attributes
  rw [reviewRecords, Review.errors_append, Review.errors_append, List.append_eq_nil_iff, List.append_eq_nil_iff,
    errors_reviewAttributes_eq_nil_iff, Review.errors_nil_of_readings_iff,
    Review.errors_nil_of_readings_iff, List.forall_mem_map]
  constructor
  · rintro ⟨⟨⟨attributes, areAttributes, passes⟩, relations⟩, indexes⟩
    refine ⟨⟨attributesRead.mp ⟨attributes, areAttributes⟩, relations, indexes⟩, ?_⟩
    intro others areOthers
    rw [areAttributes] at areOthers
    cases areOthers
    exact Attribute.firstRepeated?_of_passReview passes (List.Subset.refl _)
  · rintro ⟨readable, distinct⟩
    obtain ⟨attributes, areAttributes⟩ := attributesRead.mpr readable.attributes
    have passes := @Attribute.passReview_of_firstRepeated? [] [] [] attributes
      (distinct attributes areAttributes) (apart attributes areAttributes) nofun
    exact ⟨⟨⟨attributes, areAttributes, passes⟩, readable.relations⟩, readable.indexes⟩

/-- With lenient references a component that is drafted has no violation. -/
theorem violation?_eq_none_iff
    {registry : Registry} {component : Component} (fits : ¬ component.Overflows registry) :
    component.violation? registry false = none ↔
      ∃ draft, Draft.ofComponent registry component = .ok draft := by
  cases drafted : Draft.ofComponent registry component with
  | error violation => simp [violation?, Component.compile, drafted]
  | ok draft =>
      refine iff_of_true ?_ ⟨draft, rfl⟩
      rcases component.compile_cases registry false with
        ⟨descriptor, compiled⟩ | ⟨violation, compiled⟩ | beyond
      · rw [violation?, compiled]
      · rw [Component.compile, drafted] at compiled
        dsimp only at compiled
        rw [Draft.finish] at compiled
        cases made : Factory.expressions draft.registry draft.relations draft.attributes [] with
        | error error =>
            rw [made] at compiled
            cases compiled
        | ok factory =>
            rw [made] at compiled
            cases compiled
      · exact absurd beyond fits

end Component

namespace ModuleDefinition

theorem passes_review_iff
    {definition : ModuleDefinition} {config : Option Config}
    (named : Review.passes (definition.review config false) = true) :
    Review.passes (definition.review config true) = true ↔
      ∀ component ∈ definition.components, Review.errors component.reviewRecords = [] := by
  have spread : Review.errors (definition.components.flatMap (·.reviewRecords)) = [] ↔
      ∀ component ∈ definition.components, Review.errors component.reviewRecords = [] := by
    rw [Review.errors, List.filter_flatMap, List.flatMap_eq_nil_iff]
    rfl
  rw [Review.passes, List.isEmpty_iff, review] at named ⊢
  simp only [Review.errors_append, List.append_eq_nil_iff, if_true] at named ⊢
  rw [spread]
  exact ⟨fun passes => passes.1.2, fun records => ⟨⟨named.1.1, records⟩, named.2⟩⟩

/-- A module of one entity. -/
def ofPost (attributes relations indexes : List Value) : ModuleDefinition :=
  ⟨"Blog", [⟨"Post", attributes, relations, indexes⟩]⟩

/-- The record of an attribute of a type. -/
def attributeRecord (name type : String) : Value :=
  .mapping [(.text "name", .text name), (.text "type", .text type)]

/-- The record of an index on one column. -/
def indexRecord (column : String) : Value :=
  .mapping [(.text "columns", .list [.text column])]

/-- A module with good names passes its review although a component fails, or the other way round. -/
def Disagrees (definition : ModuleDefinition) : Prop :=
  Review.passes (definition.review none false) = true ∧
    Review.passes (definition.review none true) ≠
      (definition.compile { module := "Blog" } false none).failures.isEmpty

instance (definition : ModuleDefinition) : Decidable definition.Disagrees :=
  inferInstanceAs (Decidable (_ ∧ _))

end ModuleDefinition

end Scaffold
