import Mathlib.Data.List.Find
import Scaffold.Proofs.Module.Drafting
import Scaffold.Proofs.Relation.Binding

/-!
# What a foreign key points to in model and factory

The method of a relation leads to the model that the relation names.  The factory looks for the
model of a foreign key by itself: the first relation of any kind that gives the column as its
foreign key decides, and without one the first relation to an owner whose name implies the column.
So both lead to one target exactly when the relation that decides names the model of the method.
-/

namespace Scaffold

open Scaffold.Document (Value)

namespace Relation

/-- The column that a relation implies by its name. -/
def impliedColumn (relation : Relation) : String :=
  Text.snakeCase relation.name ++ "_id"

/-- The column of a relation to an owner. -/
def column (relation : Relation) : String :=
  relation.foreignKey.getD relation.impliedColumn

/-- The relation that decides what the factory takes as the target of a column. -/
inductive Decides (relations : List Relation) (column : String) (relation : Relation) : Prop where
  | named (found : relations.find? (·.foreignKey == some column) = some relation)
  | implied
      (unnamed : ∀ other ∈ relations, other.foreignKey ≠ some column)
      (found : relations.find? (fun other =>
        other.kind == .belongsTo && other.impliedColumn == column) = some relation)

/-- No relation but one to an owner with that column speaks of a column. -/
structure IsUndisputed (relations : List Relation) (column : String) : Prop where
  named : ∀ relation ∈ relations, relation.foreignKey = some column → relation.kind = .belongsTo
  implied : (∀ relation ∈ relations, relation.foreignKey ≠ some column) →
    ∀ relation ∈ relations, relation.kind = .belongsTo → relation.impliedColumn = column →
      relation.foreignKey = none

/-! ## The models of relations -/

/-- A relation that has a foreign key or leads to an owner names a model. -/
def NamesModel (relation : Relation) : Prop :=
  relation.foreignKey.isSome = true ∨ relation.kind = .belongsTo →
    Factory.modelOf? relation = some (relation.model.getD "")

theorem IsReadFrom.namesModel
    {relation : Relation} {record : Document.Entries} (isRead : relation.IsReadFrom record) :
    relation.NamesModel := by
  intro keyed
  have single : relation.kind ≠ .morphTo := by
    rintro morphTo
    rcases keyed with given | owner
    · obtain ⟨key, given⟩ := Option.isSome_iff_exists.mp given
      rcases isRead.carries "foreignKey" relation.foreignKey (by simp [texts]) with
        ⟨absent, _⟩ | ⟨_, _, _, found, _⟩
      · simp [absent] at given
      · have allowed := isRead.allows_of_given found
        rw [morphTo] at allowed
        exact absurd allowed (by decide)
    · rw [morphTo] at owner
      cases owner
  have among : ("model", relation.model) ∈ relation.texts := by simp [texts]
  obtain ⟨model, named, some, _⟩ := isRead.exists_text_of_required among
    (RelationKind.model_mem_requiredFields single)
  simp [Factory.modelOf?, named, some]

/-- A relation that some record gives. -/
def IsAccepted (relation : Relation) : Prop :=
  ∃ entity record, ofRecord entity record = .ok relation

theorem IsAccepted.namesModel {relation : Relation} (accepted : relation.IsAccepted) :
    relation.NamesModel := by
  obtain ⟨entity, record, accepted⟩ := accepted
  obtain ⟨entries, _, isRead⟩ := exists_isReadFrom_of_ofRecord accepted
  exact isRead.namesModel

theorem isAccepted_of_ofRecords
    {entity : Option String} {records : List Value} {relations : List Relation}
    (accepted : ofRecords entity records = .ok relations) :
    ∀ relation ∈ relations, relation.IsAccepted := by
  induction records generalizing relations with
  | nil =>
      obtain rfl := Except.ok.inj accepted
      simp
  | cons record rest hypothesis =>
      simp only [ofRecords, bind_eq_ok_iff] at accepted
      obtain ⟨relation, first, others, later, made⟩ := accepted
      obtain rfl := Except.ok.inj made
      exact List.forall_mem_cons.mpr ⟨⟨entity, record, first⟩, hypothesis later⟩

theorem isAccepted_of_placeholderRelations
    {entity : Option String} {attributes : List Attribute} {relations : List Relation}
    (accepted : Draft.placeholderRelations entity attributes = .ok relations) :
    ∀ relation ∈ relations, relation.IsAccepted := by
  induction attributes generalizing relations with
  | nil =>
      obtain rfl := Except.ok.inj accepted
      simp
  | cons attr rest hypothesis =>
      rw [Draft.placeholderRelations] at accepted
      split_ifs at accepted
      · simp only [bind_eq_ok_iff] at accepted
        obtain ⟨relation, first, others, later, made⟩ := accepted
        obtain rfl := Except.ok.inj made
        rw [ofPlaceholder] at first
        split_ifs at first
        exact List.forall_mem_cons.mpr ⟨⟨_, _, first⟩, hypothesis later⟩
      · exact hypothesis accepted

end Relation

/-- The relations of a descriptor in the order of its methods. -/
def Descriptor.relations (descriptor : Descriptor) : List Relation :=
  descriptor.methods.map (·.relation)

/-- The methods of a descriptor are those of the draft that was made first. -/
theorem Component.exists_draft_of_compile
    {registry : Registry} {strict : Bool} {component : Component} {descriptor : Descriptor}
    (compiled : component.compile registry strict = .ok descriptor) :
    ∃ draft, Draft.ofComponent registry component = .ok draft ∧
      descriptor.methods = draft.methods := by
  rw [Component.compile] at compiled
  cases drafted : Draft.ofComponent registry component with
  | error violation =>
      rw [drafted] at compiled
      cases compiled
  | ok draft =>
      rw [drafted] at compiled
      dsimp only at compiled
      rw [Draft.finish] at compiled
      dsimp only at compiled
      repeat' split at compiled
      · cases compiled
      · cases compiled
      · exact ⟨draft, rfl, by rw [← Except.ok.inj compiled]⟩

/-- The methods of a draft are those of the relations that attributes imply or records give. -/
theorem Draft.exists_relations
    {registry : Registry} {component : Component} {draft : Draft}
    (drafted : Draft.ofComponent registry component = .ok draft) :
    ∃ relations : List Relation, (∀ relation ∈ relations, relation.IsAccepted) ∧
      draft.methods =
        relations.map (RelationMethod.ofRelation (some component.entity) registry) := by
  simp only [Draft.ofComponent, bind_eq_ok_iff] at drafted
  obtain ⟨attributes, _, _, _, inline, areInline, listed, areListed, _, _, _, _, made, areMade,
    shape⟩ := drafted
  obtain rfl := Except.ok.inj shape
  rw [Relation.compileAll] at areMade
  cases distinct : Relation.checkDistinct (some component.entity) (inline ++ listed) with
  | error violation =>
      rw [distinct] at areMade
      cases areMade
  | ok _ =>
      rw [distinct] at areMade
      obtain rfl := Except.ok.inj areMade
      refine ⟨inline ++ listed, List.forall_mem_append.mpr ⟨?_, ?_⟩, rfl⟩
      · exact Relation.isAccepted_of_placeholderRelations areInline
      · exact Relation.isAccepted_of_ofRecords areListed

/-- The methods of a component are those of its relations, which records give. -/
theorem Component.relations_of_compile
    {registry : Registry} {strict : Bool} {component : Component} {descriptor : Descriptor}
    (compiled : component.compile registry strict = .ok descriptor) :
    descriptor.methods =
        descriptor.relations.map (RelationMethod.ofRelation (some component.entity) registry) ∧
      ∀ relation ∈ descriptor.relations, relation.IsAccepted := by
  obtain ⟨draft, drafted, methods⟩ := exists_draft_of_compile compiled
  obtain ⟨relations, accepted, made⟩ := Draft.exists_relations drafted
  have same : descriptor.relations = relations := by
    rw [Descriptor.relations, methods, made, List.map_map]
    exact (List.map_congr_left fun relation _ =>
      RelationMethod.relation_ofRelation _ _ _).trans (List.map_id _)
  rw [same]
  exact ⟨methods.trans made, accepted⟩

/-- The methods of a component are those of its relations. -/
theorem Component.methods_of_compile
    {registry : Registry} {strict : Bool} {component : Component} {descriptor : Descriptor}
    (compiled : component.compile registry strict = .ok descriptor) :
    descriptor.methods =
        descriptor.relations.map (RelationMethod.ofRelation (some component.entity) registry) ∧
      ∀ relation ∈ descriptor.relations, relation.NamesModel := by
  obtain ⟨methods, accepted⟩ := relations_of_compile compiled
  exact ⟨methods, fun relation member => (accepted relation member).namesModel⟩

/-! ## The relation that decides -/

namespace Relation

variable {relations : List Relation} {column : String} {relation : Relation}

theorem Decides.mem (decides : Decides relations column relation) : relation ∈ relations := by
  cases decides with
  | named found => exact List.mem_of_find?_eq_some found
  | implied _ found => exact List.mem_of_find?_eq_some found

theorem Decides.targetName
    {attr : Attribute} (decides : Decides relations attr.name relation)
    (models : ∀ relation ∈ relations, relation.NamesModel) :
    Factory.targetName relations attr = relation.model.getD "" := by
  have model (other : Relation) (member : other ∈ relations) :
      Factory.namesColumn attr.name other = (other.foreignKey == some attr.name) ∧
        Factory.impliesColumn attr.name other =
          (other.kind == .belongsTo && other.impliedColumn == attr.name) := by
    have named := models other member
    constructor
    · rw [Factory.namesColumn]
      cases key : other.foreignKey with
      | none => simp
      | some _ => simp [named (.inl (by simp [key]))]
    · rw [Factory.impliesColumn]
      cases kind : other.kind with
      | belongsTo => simp [named (.inr kind), impliedColumn]
      | _ => rfl
  have named : relations.find? (Factory.namesColumn attr.name) =
      relations.find? (·.foreignKey == some attr.name) :=
    List.find?_congr fun other member => (model other member).1
  have implied : relations.find? (Factory.impliesColumn attr.name) =
      relations.find? (fun other => other.kind == .belongsTo && other.impliedColumn == attr.name) :=
    List.find?_congr fun other member => (model other member).2
  rw [Factory.targetName, named, implied]
  cases decides with
  | named found =>
      have keyed := List.find?_some found
      rw [found]
      simp [models relation (List.mem_of_find?_eq_some found) (.inl (by simp_all))]
  | implied unnamed found =>
      have absent : relations.find? (·.foreignKey == some attr.name) = none := by
        simpa using unnamed
      have owner := List.find?_some found
      rw [absent, found]
      simp [models relation (List.mem_of_find?_eq_some found) (.inr (by simp_all))]

/-- A column that a relation does not give as its foreign key is the one that its name implies. -/
theorem foreignKey_eq_none
    (own : relation.column = column) (unnamed : relation.foreignKey ≠ some column) :
    relation.foreignKey = none := by
  cases key : relation.foreignKey with
  | none => rfl
  | some other =>
      rw [Relation.column, key] at own
      exact absurd (key.trans (congrArg some own)) unnamed

/-- The column of a relation to an owner is decided. -/
theorem exists_decides
    (member : relation ∈ relations) (owner : relation.kind = .belongsTo)
    (own : relation.column = column) :
    ∃ decider, Decides relations column decider := by
  cases named : relations.find? (·.foreignKey == some column) with
  | some decider => exact ⟨decider, .named named⟩
  | none =>
      have unnamed : ∀ other ∈ relations, other.foreignKey ≠ some column := by
        simpa using named
      cases implied : relations.find? (fun other =>
          other.kind == .belongsTo && other.impliedColumn == column) with
      | some decider => exact ⟨decider, .implied unnamed implied⟩
      | none =>
          have absent := List.find?_eq_none.mp implied relation member
          have conventional := foreignKey_eq_none own (unnamed relation member)
          simp [owner, ← own, Relation.column, conventional] at absent

/-- Where nothing else speaks of a column, the only relation to an owner with it decides. -/
theorem IsUndisputed.eq_of_decides
    (undisputed : IsUndisputed relations column)
    (only : ∀ other ∈ relations, other.kind = .belongsTo → other.column = column →
      other = relation)
    {decider : Relation} (decides : Decides relations column decider) :
    decider = relation := by
  cases decides with
  | named found =>
      have member := List.mem_of_find?_eq_some found
      have key : decider.foreignKey = some column := by simpa using List.find?_some found
      exact only decider member (undisputed.named decider member key)
        (by rw [Relation.column, key, Option.getD_some])
  | implied unnamed found =>
      have member := List.mem_of_find?_eq_some found
      have test : decider.kind = .belongsTo ∧ decider.impliedColumn = column := by
        simpa using List.find?_some found
      have keyless := undisputed.implied unnamed decider member test.1 test.2
      exact only decider member test.1 (by rw [Relation.column, keyless, Option.getD_none, test.2])

end Relation

theorem Registry.name_resolve (registry : Registry) (name : String) :
    (registry.resolve name).name = Text.studlyCase name := by
  rw [resolve]
  cases registry.neighbourOf? (Text.studlyCase name) <;> split_ifs <;> rfl

/-- Two names are looked up alike exactly when they spell one class name. -/
theorem Registry.resolve_eq_iff (registry : Registry) (left right : String) :
    registry.resolve left = registry.resolve right ↔
      Text.studlyCase left = Text.studlyCase right := by
  constructor
  · intro same
    rw [← registry.name_resolve left, same, name_resolve]
  · intro same
    rw [resolve, resolve, same]

/-! ## Both targets -/

/-- A foreign key that a factory fills from its target, with the only method to an owner that has
its column. -/
structure Descriptor.HasOwner (descriptor : Descriptor) (attr : Attribute)
    (method : RelationMethod) : Prop where
  listed : attr ∈ descriptor.attributes
  foreign : attr.type.isForeignKey = true
  unworded : Factory.nameWord? attr.name = none
  apart : attr.name ∉ systemColumns
  among : method ∈ descriptor.methods
  owner : method.relation.kind = .belongsTo
  column : method.relation.column = attr.name
  only : ∀ other ∈ descriptor.methods, other.relation.kind = .belongsTo →
    other.relation.column = attr.name → other = method

/-- The factory fills a foreign key from a target. -/
theorem Factory.expression?_of_isForeignKey
    (registry : Registry) (relations : List Relation) {attr : Attribute}
    (foreign : attr.type.isForeignKey = true) (unworded : nameWord? attr.name = none)
    (apart : attr.name ∉ systemColumns) :
    ∃ expression, expression? registry relations attr = .ok (some expression) ∧
      expression.target? = some (registry.resolve (targetName relations attr)) := by
  have filled : isSkipped attr = false := by
    rw [isSkipped, Attribute.isPlaceholder]
    cases type : attr.type <;> simp_all [ColumnType.isForeignKey] <;> decide
  rw [expression?, filled, unworded]
  simp [foreign, FactoryExpression.target?]

namespace Descriptor.HasOwner

variable {registry : Registry} {strict : Bool} {component : Component} {descriptor : Descriptor}
  {attr : Attribute} {method : RelationMethod}

/-- The method leads to the model of its relation, the factory to that of the one that decides. -/
theorem targets
    (owned : descriptor.HasOwner attr method)
    (compiled : component.compile registry strict = .ok descriptor) {decider : Relation}
    (decides : Relation.Decides descriptor.relations attr.name decider) :
    method.target = some (registry.resolve (method.relation.model.getD "")) ∧
      ∃ expression,
        Factory.expression? registry descriptor.relations attr = .ok (some expression) ∧
          expression.target? = some (registry.resolve (decider.model.getD "")) := by
  obtain ⟨methods, models⟩ := Component.methods_of_compile compiled
  constructor
  · have among := owned.among
    rw [methods] at among
    obtain ⟨relation, _, rfl⟩ := List.mem_map.mp among
    have owner := owned.owner
    rw [RelationMethod.relation_ofRelation] at owner ⊢
    rw [RelationMethod.ofRelation, owner]
  · rw [← decides.targetName models]
    exact Factory.expression?_of_isForeignKey registry descriptor.relations owned.foreign
      owned.unworded owned.apart

/-- The owner of a column is found among the relations of a component. -/
theorem exists_of_relations
    {column : String} {relations : List Relation} {relation : Relation}
    (read : (component.compile registry strict).toOption.map (fun descriptor =>
      (descriptor.attributes.any fun attr => attr.name == column && attr.type.isForeignKey,
        descriptor.relations)) = some (true, relations))
    (unworded : Factory.nameWord? column = none) (apart : column ∉ systemColumns)
    (owners : relations.filter (fun relation =>
      relation.kind == .belongsTo && relation.column == column) = [relation]) :
    ∃ descriptor attr, component.compile registry strict = .ok descriptor ∧
      descriptor.relations = relations ∧ attr.name = column ∧
        descriptor.HasOwner attr
          (RelationMethod.ofRelation (some component.entity) registry relation) := by
  cases compiled : component.compile registry strict with
  | error error =>
      rw [compiled] at read
      cases read
  | ok descriptor =>
      rw [compiled] at read
      obtain ⟨listed, rfl⟩ := Prod.mk.inj (Option.some.inj read)
      obtain ⟨attr, member, test⟩ := List.any_eq_true.mp listed
      rw [Bool.and_eq_true, beq_iff_eq] at test
      obtain ⟨rfl, foreign⟩ := test
      obtain ⟨methods, _⟩ := Component.methods_of_compile compiled
      have owner (other : Relation) : other = relation ↔ other ∈ descriptor.relations ∧
          other.kind = .belongsTo ∧ other.column = attr.name := by
        rw [← List.mem_singleton, ← owners, List.mem_filter, Bool.and_eq_true, beq_iff_eq,
          beq_iff_eq]
      obtain ⟨among, kind, own⟩ := (owner relation).mp rfl
      have same := RelationMethod.relation_ofRelation (some component.entity) registry
      refine ⟨descriptor, attr, rfl, rfl, rfl, member, foreign, unworded, apart, ?_, ?_, ?_, ?_⟩
      · rw [methods]
        exact List.mem_map_of_mem among
      · rw [same, kind]
      · rw [same, own]
      · intro other otherAmong otherKind otherOwn
        rw [methods] at otherAmong
        obtain ⟨another, anotherAmong, rfl⟩ := List.mem_map.mp otherAmong
        rw [same] at otherKind otherOwn
        rw [(owner another).mpr ⟨anotherAmong, otherKind, otherOwn⟩]

end Descriptor.HasOwner

/-! ## Other relations that speak of the column -/

/-- A record with a name, a type, and perhaps a model and a foreign key. -/
def fieldRecord (name type : String) (model foreignKey : Option String) : Value :=
  .mapping ([(.text "name", .text name), (.text "type", .text type)] ++
    (model.map fun model => (Value.text "model", Value.text model)).toList ++
      (foreignKey.map fun key => (Value.text "foreignKey", Value.text key)).toList)

/-- A module of categories, comments and posts with persons and users. -/
def forumRegistry : Registry :=
  { module := "Forum", siblings := ["Category", "Comment", "Person", "Post", "User"] }

/-- A comment of a post; its answers have a foreign key of another name. -/
def commentOfPost : Component where
  name := "Comment"
  attributes := [fieldRecord "post_id" "foreignId" none none]
  relations :=
    [fieldRecord "answers" "hasMany" (some "Comment") (some "parent_id"),
      fieldRecord "post" "belongsTo" (some "Post") none]

/-- The factory of a foreign key and the method to its owner lead to different targets. -/
def Component.Disagrees (registry : Registry) (component : Component) : Prop :=
  ∃ strict descriptor attr method expression target,
    component.compile registry strict = .ok descriptor ∧ descriptor.HasOwner attr method ∧
      Factory.expression? registry descriptor.relations attr = .ok (some expression) ∧
        expression.target? = some target ∧ method.target ≠ some target

/-- Both targets differ when the relation that decides leads elsewhere. -/
theorem Component.disagrees_of_decides
    {registry : Registry} {component : Component} {column : String} {relations : List Relation}
    {decider relation : Relation} (decides : Relation.Decides relations column decider)
    (read : (component.compile registry true).toOption.map (fun descriptor =>
      (descriptor.attributes.any fun attr => attr.name == column && attr.type.isForeignKey,
        descriptor.relations)) = some (true, relations))
    (unworded : Factory.nameWord? column = none) (apart : column ∉ systemColumns)
    (owners : relations.filter (fun relation =>
      relation.kind == .belongsTo && relation.column == column) = [relation])
    (different : registry.resolve (relation.model.getD "") ≠
      registry.resolve (decider.model.getD "")) :
    component.Disagrees registry := by
  obtain ⟨descriptor, attr, compiled, rfl, rfl, owned⟩ :=
    Descriptor.HasOwner.exists_of_relations read unworded apart owners
  obtain ⟨own, expression, made, target⟩ := owned.targets compiled decides
  rw [RelationMethod.relation_ofRelation] at own
  refine ⟨true, descriptor, attr, _, expression, _, compiled, owned, made, target, fun same => ?_⟩
  exact different (Option.some.inj (own.symm.trans same))

/-- A comment whose answers have the column of its category as their foreign key. -/
def commentOfCategory : Component where
  name := "Comment"
  attributes := [fieldRecord "parent_id" "foreignId" none none]
  relations :=
    [fieldRecord "children" "hasMany" (some "Comment") (some "parent_id"),
      fieldRecord "parent" "belongsTo" (some "Category") none]

/-- A post with two authors, of which the first one has a foreign key of its own. -/
def postOfAuthors : Component where
  name := "Post"
  attributes := [fieldRecord "author_id" "foreignId" none none]
  relations :=
    [fieldRecord "Author" "belongsTo" (some "Person") (some "writer_id"),
      fieldRecord "author" "belongsTo" (some "User") none]

end Scaffold
