import Scaffold.Module.Compilation
import Scaffold.Module.Review
import Scaffold.Proofs.Keyed
import Scaffold.Proofs.Output.Places

/-!
# The names of a reviewed module

A definition whose review has no errors names its module and its entities by class names, and no two
entities by the same one.  What is compiled from it is named likewise.
-/

namespace Scaffold

theorem Review.errors_append (left right : Review) :
    Review.errors (left ++ right) = Review.errors left ++ Review.errors right :=
  List.filter_append ..

namespace ModuleDefinition

variable {definition : ModuleDefinition}

/-- A definition names everything by class names, and entities apart. -/
structure IsNamed (definition : ModuleDefinition) : Prop where
  module : isClassName definition.studlyName = true
  entities : ∀ component ∈ definition.components, isClassName component.entity = true
  distinct : definition.entities.Nodup

theorem reviewEntities_spec
    {known : Keyed String} {components : List Component}
    (passes : Review.errors (definition.reviewEntities known components) = []) :
    (∀ component ∈ components, isClassName component.entity = true ∧
      component.entity ∉ Keyed.keys known) ∧ (components.map (·.entity)).Nodup := by
  induction components generalizing known with
  | nil => exact ⟨by simp, .nil⟩
  | cons component rest hypothesis =>
      rw [reviewEntities, Review.errors_append, List.append_eq_nil_iff] at passes
      obtain ⟨first, others⟩ := passes
      rw [reviewEntity] at first
      by_cases isClass : isClassName component.entity = true
      · rw [if_neg (by simp [isClass])] at first
        rw [Review.errors_append, Review.errors_append, List.append_eq_nil_iff,
          List.append_eq_nil_iff] at first
        have new : Keyed.get? known component.entity = none := by
          cases found : Keyed.get? known component.entity with
          | none => rfl
          | some earlier => simp [found, Review.errors] at first
        have unknown : Keyed.has known component.entity = false := by simp [Keyed.has, new]
        rw [if_neg (by simp [isClass, unknown])] at others
        obtain ⟨named, distinct⟩ := hypothesis others
        refine ⟨fun other member => ?_, List.nodup_cons.mpr ⟨fun among => ?_, distinct⟩⟩
        · rcases List.mem_cons.mp member with rfl | later
          · exact ⟨isClass, Keyed.get?_eq_none_iff.mp new⟩
          · exact ⟨(named other later).1, fun old =>
              (named other later).2 (Keyed.mem_keys_put.mpr (.inl old))⟩
        · obtain ⟨other, later, same⟩ := List.mem_map.mp among
          exact (named other later).2 (Keyed.mem_keys_put.mpr (.inr same))
      · rw [if_pos (by simp [isClass])] at first
        simp [Review.errors] at first

/-- A review without errors accepts the names of a definition. -/
theorem isNamed_of_review
    {config : Option Config} (passes : Review.errors (definition.review config false) = []) :
    definition.IsNamed := by
  rw [review, Review.errors_append, Review.errors_append, Review.errors_append,
    List.append_eq_nil_iff, List.append_eq_nil_iff, List.append_eq_nil_iff] at passes
  obtain ⟨⟨⟨name, names⟩, _⟩, _⟩ := passes
  have module : isClassName definition.studlyName = true := by
    rw [reviewName] at name
    by_contra notClass
    rw [if_pos (by simp [notClass])] at name
    simp [Review.errors] at name
  rw [reviewNames] at names
  split_ifs at names with none
  · simp [Review.errors] at names
  · obtain ⟨named, distinct⟩ := reviewEntities_spec names
    exact ⟨module, fun component member => (named component member).1, distinct⟩

end ModuleDefinition

/-! ## What is compiled -/

/-- The table of a component is that of its entity. -/
theorem Component.table_eq (component : Component) :
    component.table = Text.tableName component.entity := by
  rw [table, Text.tableName, Text.tableName, entity, Text.studlyCase_studlyCase]

theorem Component.compile_spec
    {registry : Registry} {strict : Bool} {component : Component} {descriptor : Descriptor}
    (compiled : component.compile registry strict = .ok descriptor) :
    descriptor.entity = component.entity ∧ descriptor.table = component.table := by
  rw [Component.compile] at compiled
  cases drafted : Draft.ofComponent registry component with
  | error violation =>
      rw [drafted] at compiled
      cases compiled
  | ok draft =>
      have same : draft.component = component := by
        rw [Draft.ofComponent] at drafted
        simp only [bind, Except.bind, pure, Except.pure] at drafted
        repeat' split at drafted
        all_goals first
          | exact congrArg Draft.component (Except.ok.inj drafted).symm
          | cases drafted
      rw [drafted] at compiled
      dsimp only at compiled
      rw [Draft.finish] at compiled
      dsimp only at compiled
      repeat' split at compiled
      · cases compiled
      · cases compiled
      · rw [← Except.ok.inj compiled, same]
        exact ⟨rfl, rfl⟩

/-- Descriptors are compiled from components in order. -/
theorem ModuleCompilation.addAll_spec (strict : Bool) (compilation : ModuleCompilation)
    (components : List Component) :
    ((compilation.addAll strict components).descriptors.map (·.entity)).Sublist
        (compilation.descriptors.map (·.entity) ++ components.map (·.entity)) ∧
      ∀ descriptor ∈ (compilation.addAll strict components).descriptors,
        descriptor ∈ compilation.descriptors ∨ ∃ component ∈ components,
          descriptor.entity = component.entity ∧ descriptor.table = component.table := by
  induction components generalizing compilation with
  | nil => exact ⟨by simp [addAll], fun _ => .inl⟩
  | cons component rest hypothesis =>
      have step : (compilation.add strict component).descriptors = compilation.descriptors ∨
          ∃ descriptor, (compilation.add strict component).descriptors =
            compilation.descriptors ++ [descriptor] ∧ descriptor.entity = component.entity ∧
              descriptor.table = component.table := by
        rw [add]
        dsimp only
        split
        · rename_i descriptor compiled
          exact .inr ⟨descriptor, rfl, Component.compile_spec compiled⟩
        · exact .inl rfl
        · exact .inl rfl
      have next : ((compilation.add strict component).descriptors.map (·.entity)).Sublist
            (compilation.descriptors.map (·.entity) ++ [component.entity]) ∧
          ∀ descriptor ∈ (compilation.add strict component).descriptors,
            descriptor ∈ compilation.descriptors ∨
              descriptor.entity = component.entity ∧ descriptor.table = component.table := by
        rcases step with same | ⟨descriptor, more, entity, table⟩
        · rw [same]
          exact ⟨List.sublist_append_left _ _, fun _ => .inl⟩
        · rw [more, List.map_append, List.map_singleton, entity]
          refine ⟨List.Sublist.refl _, fun other member => ?_⟩
          rcases List.mem_append.mp member with old | new
          · exact .inl old
          · rw [List.mem_singleton.mp new]
            exact .inr ⟨entity, table⟩
      rw [addAll]
      split_ifs
      · refine ⟨next.1.trans ?_, fun descriptor member => ?_⟩
        · simp
        · rcases next.2 descriptor member with old | new
          · exact .inl old
          · exact .inr ⟨component, by simp, new⟩
      · obtain ⟨sublist, among⟩ := hypothesis (compilation.add strict component)
        refine ⟨sublist.trans ?_, fun descriptor member => ?_⟩
        · have whole := next.1.append_right (rest.map (·.entity))
          simpa using whole
        · rcases among descriptor member with early | ⟨other, later, same⟩
          · rcases next.2 descriptor early with old | new
            · exact .inl old
            · exact .inr ⟨component, by simp, new⟩
          · exact .inr ⟨other, by simp [later], same⟩

/-- What is compiled from a named definition is named. -/
theorem ModuleDefinition.IsNamed.compile
    {definition : ModuleDefinition} (named : definition.IsNamed) (registry : Registry)
    (strict : Bool) (only : Option (List String)) :
    ((definition.compile registry strict only).descriptors.map (·.entity)).Nodup ∧
      ∀ descriptor ∈ (definition.compile registry strict only).descriptors,
        descriptor.IsNamed ∧ descriptor.entity ∈ definition.entities := by
  obtain ⟨components, selected, compiled⟩ : ∃ components : List Component,
      components.Sublist definition.components ∧ definition.compile registry strict only =
        ({ registry := definition.register registry } : ModuleCompilation).addAll strict
          components :=
    ⟨_, List.filter_sublist, rfl⟩
  rw [compiled]
  obtain ⟨sublist, among⟩ := ModuleCompilation.addAll_spec strict
    ({ registry := definition.register registry } : ModuleCompilation) components
  refine ⟨?_, fun descriptor member => ?_⟩
  · refine named.distinct.sublist (sublist.trans ?_)
    rw [List.map_nil, List.nil_append]
    exact selected.map _
  · rcases among descriptor member with impossible | ⟨component, chosen, entity, table⟩
    · cases impossible
    · have given := selected.subset chosen
      have isClass := named.entities component given
      obtain ⟨nonempty, characters⟩ := Text.tableName_spec isClass
      rw [entity]
      refine ⟨⟨by rw [entity]; exact isClass, ?_, ?_⟩, List.mem_map_of_mem given⟩
      · rw [table]
        exact nonempty
      · rw [table]
        exact characters

end Scaffold
