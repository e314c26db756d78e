import Scaffold.Proofs.Factory.ForeignTarget
import Scaffold.Proofs.Module.Naming
import Scaffold.Proofs.Text.Correspondence

/-!
# Foreign keys on the table of a sibling

A foreign key that no relation speaks of leads to the model of its constrained table.  On the table
of an entity of the same module it leads to that entity exactly when entity and table name each
other; else the singular of the table is another name, which may belong to nothing.
-/

namespace Scaffold

open Text (Corresponds)

namespace Factory

variable {registry : Registry} {relations : List Relation} {attr : Attribute} {table : String}

/-- The table alone decides to what a foreign key leads. -/
structure IsDecidedByTable (relations : List Relation) (attr : Attribute) (table : String) :
    Prop where
  foreign : attr.type.isForeignKey = true
  constrained : attr.on = some table
  unworded : nameWord? attr.name = none
  unnamed : ∀ relation ∈ relations, namesColumn attr.name relation = false
  unimplied : ∀ relation ∈ relations, impliesColumn attr.name relation = false

theorem IsDecidedByTable.targetName_eq (decided : IsDecidedByTable relations attr table)
    (given : table ≠ "") : targetName relations attr = Text.modelName table := by
  have unnamed : relations.find? (namesColumn attr.name) = none := by
    simpa using decided.unnamed
  have unimplied : relations.find? (impliesColumn attr.name) = none := by
    simpa using decided.unimplied
  have filtered : (some table).filter (!·.isEmpty) = some table := by
    simp [given]
  rw [targetName, unnamed, unimplied, decided.constrained, filtered]
  rfl

theorem expression?_of_systemColumn (system : attr.name ∈ systemColumns) :
    expression? registry relations attr = .ok none := by
  rw [expression?, if_pos]
  simp [isSkipped, system]

end Factory

/-- The place of an entity of the module itself. -/
def Registry.sibling (registry : Registry) (entity : String) : Target :=
  ⟨entity, .sibling registry.module (registry.modelName entity "")⟩

/-- A name leads to a sibling exactly when it spells its class name. -/
theorem Registry.resolve_eq_sibling_iff {registry : Registry} {entity : String}
    (known : entity ∈ registry.siblings) (name : String) :
    registry.resolve name = registry.sibling entity ↔ Text.studlyCase name = entity := by
  constructor
  · intro same
    rw [← registry.name_resolve name, same]
    rfl
  · rintro rfl
    rw [resolve, if_pos (by simpa using known), sibling]

theorem ModuleDefinition.isClassName_of_reviewNames {definition : ModuleDefinition}
    (passes : Review.errors definition.reviewNames = []) {component : Component}
    (member : component ∈ definition.components) : isClassName component.entity = true := by
  rw [reviewNames] at passes
  split_ifs at passes with none
  · simp [Review.errors] at passes
  · exact ((reviewEntities_spec passes).1 component member).1

/--
A foreign key on the table of a sibling leads to that sibling exactly when they name each other.  It
leads to the model of the table in any case, unless its column belongs to the framework.
-/
theorem Factory.target_eq_sibling_iff
    {definition : ModuleDefinition} (passes : Review.errors definition.reviewNames = [])
    {component : Component} (member : component ∈ definition.components) {registry : Registry}
    (known : component.entity ∈ registry.siblings) {relations : List Relation} {attr : Attribute}
    (decided : IsDecidedByTable relations attr component.table) :
    (attr.name ∈ systemColumns → expression? registry relations attr = .ok none) ∧
      (attr.name ∉ systemColumns → ∃ expression target,
        expression? registry relations attr = .ok (some expression) ∧
          expression.target? = some target ∧ target.name = Text.modelName component.table ∧
            (target = registry.sibling component.entity ↔
              Corresponds component.entity component.table)) := by
  refine ⟨expression?_of_systemColumn, fun apart => ?_⟩
  have className := definition.isClassName_of_reviewNames passes member
  have spelled : Text.studlyCase (Text.modelName component.table) =
      Text.modelName component.table := Text.studlyCase_studlyCase _
  obtain ⟨expression, made, target⟩ :=
    expression?_of_isForeignKey registry relations decided.foreign decided.unworded apart
  rw [decided.targetName_eq (Text.tableName_spec className).1] at target
  refine ⟨expression, _, made, target, (registry.name_resolve _).trans spelled, ?_⟩
  rw [registry.resolve_eq_sibling_iff known, spelled, Text.corresponds_iff className]
  exact ⟨fun model => ⟨component.table_eq.symm, model⟩, And.right⟩

/-- The categories of posts. -/
def postCategory : Component :=
  { name := "post_category" }

/-- A module of posts and their categories. -/
def blogOfCategories : ModuleDefinition :=
  ⟨"Blog", [{ name := "Post" }, postCategory]⟩

/-- A foreign key on a table. -/
def keyOnTable (name table : String) : Attribute :=
  { name, type := .foreignId, on := some table }

theorem corresponds_postCategory : Corresponds postCategory.entity postCategory.table := by
  have entity : postCategory.entity =
      String.ofList (Text.classCharacters (["post".toList] ++ ["category".toList])) := by
    decide +kernel
  have table : postCategory.table =
      String.ofList (Text.tableCharacters (["post".toList] ++ ["categories".toList])) := by
    decide +kernel
  have inflects : Text.Inflects "category".toList "categories".toList := by
    refine .regular (by decide +kernel) (by decide +kernel) ?_
    exact @Text.InflectsByEnding.consonantY "category".toList (by decide) (by decide)
  have apart : Text.StayApart (["post".toList] ++ ["categories".toList]) :=
    .cons_cons (.inl (by decide)) (.singleton _)
  rw [entity, table]
  exact .word (by decide) inflects apart (.inl (by decide)) (by decide)

/-- The categories of posts are found by their table. -/
theorem Factory.target_eq_sibling_iff_category :
    Review.errors blogOfCategories.reviewNames = [] ∧ postCategory ∈ blogOfCategories.components ∧
      let registry := blogOfCategories.register { module := "Blog" }
      let attr := keyOnTable "topic_id" postCategory.table
      postCategory.entity ∈ registry.siblings ∧ IsDecidedByTable [] attr postCategory.table ∧
        ∃ expression, expression? registry [] attr = .ok (some expression) ∧
          expression.target? = some (registry.sibling "PostCategory") := by
  have passes : Review.errors blogOfCategories.reviewNames = [] := by decide +kernel
  have member : postCategory ∈ blogOfCategories.components :=
    List.mem_cons_of_mem _ List.mem_cons_self
  have entity : postCategory.entity = "PostCategory" := by decide +kernel
  have known : postCategory.entity ∈
      (blogOfCategories.register { module := "Blog" }).siblings := by
    decide +kernel
  have decided : Factory.IsDecidedByTable [] (keyOnTable "topic_id" postCategory.table)
      postCategory.table :=
    ⟨rfl, rfl, by decide +kernel, by simp, by simp⟩
  obtain ⟨expression, target, made, found, -, same⟩ :=
    (target_eq_sibling_iff passes member known decided).2 (by decide)
  refine ⟨passes, member, known, decided, expression, made, ?_⟩
  rw [found, same.mpr corresponds_postCategory, entity]

/-- A module of menus. -/
def shopOfMenus : ModuleDefinition :=
  ⟨"Shop", [{ name := "Menu" }]⟩

/-- Menus are not found by their table, since its singular is taken to end in `us`. -/
theorem Factory.target_misses_sibling :
    Review.errors shopOfMenus.reviewNames = [] ∧
      let registry := shopOfMenus.register { module := "Shop" }
      let attr := keyOnTable "author_id" (Text.tableName "Menu")
      "Menu" ∈ shopOfMenus.entities ∧ "Menu" ∈ registry.siblings ∧
        IsDecidedByTable [] attr (Text.tableName "Menu") ∧
          ∃ expression, expression? registry [] attr = .ok (some expression) ∧
            expression.target? = some ⟨"Menus", .unknown "Shop" 0⟩ := by
  refine ⟨by decide +kernel, by decide +kernel, by decide +kernel,
    ⟨rfl, rfl, by decide +kernel, by simp, by simp⟩, ?_⟩
  exact ⟨⟨"author_id", .byTarget ⟨"Menus", .unknown "Shop" 0⟩, "Menus::factory()"⟩,
    by decide +kernel, rfl⟩

end Scaffold
