import Scaffold.Proofs.Module.Isolation

/-!
# What a component takes from its siblings

A component sees its siblings only by their names.  So two modules with the same entities give a
component that has the same records in both the same outcome, however the components are ordered,
whatever the records of the siblings are, and whether the siblings compile.
-/

namespace Scaffold

/-- Two components describe one entity by the same records; its name may be spelled differently. -/
structure Component.SameRecords (left right : Component) : Prop where
  entity : left.entity = right.entity
  attributes : left.attributes = right.attributes
  relations : left.relations = right.relations
  indexes : left.indexes = right.indexes

/-- The outcome that a component has alone, unless it stops its module. -/
def Component.outcome? (registry : Registry) (strict : Bool) (component : Component) :
    Option (Except Violation Descriptor) :=
  match component.compile registry strict with
  | .ok descriptor => some (.ok descriptor)
  | .error (.violation violation) => some (.error violation)
  | .error (.factory _) => none

/-- All outcomes that a compilation has for an entity. -/
def ModuleCompilation.outcomes (compilation : ModuleCompilation) (entity : String) :
    List (Except Violation Descriptor) :=
  (compilation.descriptors.filter (·.entity == entity)).map .ok ++
    (compilation.failures.filter (·.1 == entity)).map fun failure => .error failure.2

/-! ## The same records among the same names -/

namespace Component

variable {left right : Component}

theorem SameRecords.ofComponent (same : left.SameRecords right) (registry : Registry) :
    Draft.ofComponent registry left =
      (fun draft => { draft with component := left }) <$> Draft.ofComponent registry right := by
  simp only [Draft.ofComponent, same.entity, same.attributes, same.relations, same.indexes,
    map_bind, map_pure]

theorem component_of_ofComponent
    {registry : Registry} {component : Component} {draft : Draft}
    (drafted : Draft.ofComponent registry component = .ok draft) :
    draft.component = component := by
  have same : component.SameRecords component := ⟨rfl, rfl, rfl, rfl⟩
  have again := same.ofComponent registry
  rw [drafted] at again
  exact congrArg Draft.component (Except.ok.inj again)

/-- The spelling of the name does not count. -/
theorem SameRecords.compile (same : left.SameRecords right) (registry : Registry) (strict : Bool) :
    left.compile registry strict = right.compile registry strict := by
  have table : left.table = right.table :=
    congrArg (fun entity => Text.snakeCase (Text.plural entity)) same.entity
  rw [Component.compile, Component.compile, same.ofComponent]
  cases drafted : Draft.ofComponent registry right with
  | error violation => rfl
  | ok draft =>
      have kept := component_of_ofComponent drafted
      subst kept
      simp only [Functor.map, Except.map, Draft.finish, Draft.relationWarnings, same.entity, table]

end Component

/-- Modules with the same entities make the same names known. -/
theorem ModuleDefinition.register_agrees
    {first second : ModuleDefinition}
    (same : ∀ entity, entity ∈ first.entities ↔ entity ∈ second.entities) (registry : Registry) :
    (first.register registry).Agrees (second.register registry) where
  module := by rw [register, register, Registry.foldl_addSibling, Registry.foldl_addSibling]
  resolve name := by
    have siblings (entity : String) :
        ((first.entities.map Text.studlyCase).foldl addText registry.siblings).contains entity =
          ((second.entities.map Text.studlyCase).foldl addText registry.siblings).contains
            entity := by
      rw [Bool.eq_iff_iff, List.contains_iff_mem, List.contains_iff_mem,
        Registry.mem_foldl_addText, Registry.mem_foldl_addText]
      simp only [List.mem_map, same]
    rw [register, register, Registry.foldl_addSibling, Registry.foldl_addSibling]
    simp only [Registry.resolve, siblings]
    rfl

/-! ## The outcomes of one module -/

namespace Component

variable {registry : Registry} {strict : Bool} {components : List Component}

/-- The component of an entity, which is no other's. -/
theorem filter_entity
    (distinct : (components.map (·.entity)).Nodup) {component : Component}
    (member : component ∈ components) :
    components.filter (·.entity == component.entity) = [component] := by
  induction components with
  | nil => simp at member
  | cons other rest hypothesis =>
      obtain ⟨new, distinctRest⟩ := List.nodup_cons.mp distinct
      rcases List.mem_cons.mp member with rfl | later
      · rw [List.filter_cons_of_pos (by simp), List.filter_eq_nil_iff.mpr]
        intro other among
        rw [beq_iff_eq]
        exact fun same => new (List.mem_map.mpr ⟨other, among, same⟩)
      · rw [List.filter_cons_of_neg, hypothesis distinctRest later]
        rw [beq_iff_eq]
        exact fun same => new (List.mem_map.mpr ⟨component, later, same.symm⟩)

theorem filter_descriptors (components : List Component) (entity : String) :
    (components.filterMap fun component =>
        (component.compile registry strict).toOption).filter (·.entity == entity) =
      (components.filter (·.entity == entity)).filterMap fun component =>
        (component.compile registry strict).toOption := by
  rw [List.filter_filterMap, List.filterMap_filter]
  refine List.filterMap_congr fun component _ => ?_
  cases compiled : component.compile registry strict with
  | error error => simp [Except.toOption]
  | ok descriptor =>
      rw [← (compile_spec compiled).1]
      simp [Except.toOption, Option.filter]

theorem filter_failures (components : List Component) (entity : String) :
    (components.filterMap fun component =>
        (component.violation? registry strict).map (component.entity, ·)).filter (·.1 == entity) =
      (components.filter (·.entity == entity)).filterMap fun component =>
        (component.violation? registry strict).map (component.entity, ·) := by
  rw [List.filter_filterMap, List.filterMap_filter]
  refine List.filterMap_congr fun component _ => ?_
  cases component.violation? registry strict <;> simp [Option.filter]

theorem SameRecords.outcome?
    {left right : Component} (same : left.SameRecords right) (registry : Registry)
    (strict : Bool) :
    left.outcome? registry strict = right.outcome? registry strict := by
  rw [Component.outcome?, Component.outcome?, same.compile]

/-- The outcome of a component is its descriptor or its violation. -/
theorem toList_outcome? (registry : Registry) (strict : Bool) (component : Component) :
    (component.outcome? registry strict).toList =
      (component.compile registry strict).toOption.toList.map .ok ++
        (component.violation? registry strict).toList.map .error := by
  rw [outcome?, violation?]
  cases component.compile registry strict with
  | ok descriptor => rfl
  | error error => cases error <;> rfl

theorem isSome_outcome?
    {component : Component} (fits : ¬ component.Overflows registry) :
    (component.outcome? registry strict).isSome = true := by
  rw [outcome?]
  rcases component.compile_cases registry strict with
    ⟨descriptor, compiled⟩ | ⟨violation, compiled⟩ | beyond
  · rw [compiled]; rfl
  · rw [compiled]; rfl
  · exact absurd beyond fits

end Component

/-- A module is asked to compile an entity. -/
def isAsked (only : Option (List String)) (entity : String) : Bool :=
  only.all (·.contains entity)

theorem ModuleDefinition.compile_asked
    (definition : ModuleDefinition) (registry : Registry) (strict : Bool)
    (only : Option (List String)) :
    definition.compile registry strict only =
      ModuleCompilation.addAll strict { registry := definition.register registry }
        (definition.components.filter fun component => isAsked only component.entity) := by
  cases only <;> rfl

/-- Descriptors follow the order of the components. -/
theorem ModuleDefinition.sublist_compile
    (definition : ModuleDefinition) (registry : Registry) (strict : Bool)
    (only : Option (List String)) :
    ((definition.compile registry strict only).descriptors.map (·.entity)).Sublist
      definition.entities := by
  rw [compile_asked]
  exact (ModuleCompilation.addAll_spec strict _ _).1.trans (List.filter_sublist.map _)

/-- The outcomes for an entity are the one that its component has alone, if that is asked for. -/
theorem ModuleDefinition.outcomes_compile
    {definition : ModuleDefinition} (distinct : definition.entities.Nodup) {registry : Registry}
    {strict : Bool} {only : Option (List String)}
    (ends : (definition.compile registry strict only).stopped = none) {component : Component}
    (member : component ∈ definition.components) :
    (definition.compile registry strict only).outcomes component.entity =
        (if isAsked only component.entity then
          (component.outcome? (definition.register registry) strict).toList
        else []) ∧
      (isAsked only component.entity = true →
        (component.outcome? (definition.register registry) strict).isSome = true) := by
  rw [compile_asked] at ends ⊢
  have fits := (ModuleCompilation.stopped_addAll_iff rfl _).mp ends
  obtain ⟨descriptors, failures⟩ :=
    @ModuleCompilation.addAll_outcomes strict _ rfl _ fits (by
      simpa [Keyed.keys] using distinct.sublist (List.filter_sublist.map _))
  have own : (definition.components.filter fun other => isAsked only other.entity).filter
      (·.entity == component.entity) =
        if isAsked only component.entity then [component] else [] := by
    rw [List.filter_comm, Component.filter_entity distinct member]
    split_ifs with asked <;> simp [asked]
  constructor
  · rw [ModuleCompilation.outcomes, descriptors, failures, List.nil_append, List.nil_append,
      Component.filter_descriptors, Component.filter_failures, own]
    cases isAsked only component.entity with
    | false => rfl
    | true =>
        rw [if_pos rfl, if_pos rfl, Component.toList_outcome?]
        cases compiled : (component.compile (definition.register registry) strict).toOption <;>
          cases violated : component.violation? (definition.register registry) strict <;>
            simp [compiled, violated]
  · intro asked
    exact Component.isSome_outcome? (fits component (by simp [member, asked]))

/--
Two modules with the same entities give a component that has the same records in both one and the
same outcome, however the components are ordered and whatever its siblings are.  Descriptors follow
the order of the components.
-/
theorem ModuleDefinition.compile_ignores_siblings
    {first second : ModuleDefinition} (firstDistinct : first.entities.Nodup)
    (secondDistinct : second.entities.Nodup)
    (same : ∀ entity, entity ∈ first.entities ↔ entity ∈ second.entities) (registry : Registry)
    (strict : Bool) (only : Option (List String)) :
    let compilation := first.compile registry strict only
    let other := second.compile registry strict only
    (compilation.stopped = none → other.stopped = none →
      ∀ left ∈ first.components, ∀ right ∈ second.components, left.SameRecords right →
        if isAsked only left.entity then
          ∃ outcome, compilation.outcomes left.entity = [outcome] ∧
            other.outcomes left.entity = [outcome]
        else compilation.outcomes left.entity = [] ∧ other.outcomes left.entity = []) ∧
      (compilation.descriptors.map (·.entity)).Sublist first.entities ∧
        (other.descriptors.map (·.entity)).Sublist second.entities := by
  dsimp only
  refine ⟨?_, sublist_compile first _ _ _, sublist_compile second _ _ _⟩
  intro firstEnds secondEnds left leftMember right rightMember records
  obtain ⟨here, some⟩ := outcomes_compile firstDistinct firstEnds leftMember
  obtain ⟨there, _⟩ := outcomes_compile secondDistinct secondEnds rightMember
  have agrees : left.outcome? (first.register registry) strict =
      right.outcome? (second.register registry) strict := by
    rw [records.outcome?, Component.outcome?, Component.outcome?,
      (register_agrees same registry).compile]
  rw [← records.entity, ← agrees] at there
  rw [here, there]
  split_ifs with asked
  · obtain ⟨outcome, found⟩ := Option.isSome_iff_exists.mp (some asked)
    rw [found]
    exact ⟨outcome, rfl, rfl⟩
  · exact ⟨rfl, rfl⟩

/-- A page that a post belongs to. -/
def pageOfPost : Document.Value :=
  .mapping [(.text "name", .text "page"), (.text "type", .text "belongsTo"),
    (.text "model", .text "Page")]

/-- A module of posts and pages, in which the page has an attribute without a type. -/
def shopOfPosts : ModuleDefinition :=
  ⟨"Shop", [{ name := "Post", relations := [pageOfPost] },
    { name := "Page", attributes := [.mapping []] }]⟩

/-- A module of pages and posts, in which the page has no records. -/
def shopOfPostsLast : ModuleDefinition :=
  ⟨"Shop", [{ name := "Page" }, { name := "post", relations := [pageOfPost] }]⟩

/-- The post has one outcome in both modules, though the page fails in one of them. -/
theorem compile_ignores_siblings_post :
    shopOfPosts.entities.Nodup ∧ shopOfPostsLast.entities.Nodup ∧
      (∀ entity, entity ∈ shopOfPosts.entities ↔ entity ∈ shopOfPostsLast.entities) ∧
        Keyed.keys (shopOfPosts.compile { module := "Shop" } true none).failures = ["Page"] ∧
          ∃ outcome, (shopOfPosts.compile { module := "Shop" } true none).outcomes "Post" =
              [outcome] ∧
            (shopOfPostsLast.compile { module := "Shop" } true none).outcomes "Post" =
              [outcome] := by
  have firstEntities : shopOfPosts.entities = ["Post", "Page"] := by decide +kernel
  have secondEntities : shopOfPostsLast.entities = ["Page", "Post"] := by decide +kernel
  have firstDistinct : shopOfPosts.entities.Nodup := by simp [firstEntities]
  have secondDistinct : shopOfPostsLast.entities.Nodup := by simp [secondEntities]
  have same (entity : String) :
      entity ∈ shopOfPosts.entities ↔ entity ∈ shopOfPostsLast.entities := by
    simp [firstEntities, secondEntities, or_comm]
  have spelled : (Component.mk "Post" [] [pageOfPost] []).entity = "Post" := by decide +kernel
  have outcome := (ModuleDefinition.compile_ignores_siblings firstDistinct secondDistinct same
    { module := "Shop" } true none).1 (by decide +kernel) (by decide +kernel)
    ⟨"Post", [], [pageOfPost], []⟩ (List.mem_cons_self ..) ⟨"post", [], [pageOfPost], []⟩
    (List.mem_cons_of_mem _ (List.mem_cons_self ..)) ⟨by decide +kernel, rfl, rfl, rfl⟩
  have asked : isAsked none "Post" = true := rfl
  rw [spelled, if_pos asked] at outcome
  exact ⟨firstDistinct, secondDistinct, same, by decide +kernel, outcome⟩

end Scaffold
