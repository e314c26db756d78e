import Scaffold.Proofs.Entity.TargetImports
import Scaffold.Proofs.Factory.DeclarationOrder
import Scaffold.Proofs.Module.Naming

/-!
# Targets of a compiled entity

What an entity is compiled into belongs to the registry that it is compiled with: its module, the
targets of its relation methods and those of its factory.
-/

namespace Scaffold

namespace Factory

variable {registry : Registry} {relations : List Relation}

theorem isTarget_of_expression?
    {attr : Attribute} {expression : FactoryExpression}
    (made : expression? registry relations attr = .ok (some expression)) :
    ∀ target ∈ expression.target?, registry.IsTarget target := by
  have fills : filling? registry relations attr = some expression := by
    rw [filling?, made]
    rfl
  have kept := isSkipped_of_filling? fills
  cases worded : nameWord? attr.name with
  | some pair =>
      rw [filling?_of_word kept worded] at fills
      obtain rfl := Option.some.inj fills
      rintro target ⟨⟩
  | none =>
      cases foreign : attr.type.isForeignKey with
      | true =>
          rw [filling?_of_target kept worded foreign] at fills
          obtain rfl := Option.some.inj fills
          rintro target ⟨⟩
          exact ⟨_, rfl⟩
      | false =>
          have noTarget := rule_ne_byTarget worded foreign fills
          intro target given
          rw [FactoryExpression.target?] at given
          split at given
          · rename_i ruled
            exact absurd ruled (noTarget _)
          · cases given

/-- Every target of a factory is one of its registry. -/
theorem isTarget_of_expressions
    {attributes : List Attribute} {found result : Keyed FactoryExpression}
    (resolved : expressions registry relations attributes found = .ok result)
    (before : ∀ entry ∈ found, ∀ target ∈ entry.2.target?, registry.IsTarget target) :
    ∀ entry ∈ result, ∀ target ∈ entry.2.target?, registry.IsTarget target := by
  induction attributes generalizing found with
  | nil =>
      obtain rfl := Except.ok.inj resolved
      exact before
  | cons attr rest hypothesis =>
      rw [expressions] at resolved
      cases made : expression? registry relations attr with
      | error error =>
          rw [made] at resolved
          cases resolved
      | ok filling =>
          rw [made] at resolved
          cases filling with
          | none => exact hypothesis resolved before
          | some expression =>
              refine hypothesis resolved fun entry member => ?_
              rcases Keyed.mem_of_mem_put member with rfl | old
              · exact isTarget_of_expression? made
              · exact before entry old

end Factory

/-- The module and the targets of a descriptor are those of a registry that knows its entity. -/
structure Descriptor.IsCompiledIn (registry : Registry) (descriptor : Descriptor) : Prop where
  module : descriptor.module = registry.module
  entity : isClassName descriptor.entity = true
  known : descriptor.entity ∈ registry.siblings
  methods : ∀ method ∈ descriptor.methods, ∀ target ∈ method.target, registry.IsTarget target
  factory : ∀ entry ∈ descriptor.factory, ∀ target ∈ entry.2.target?, registry.IsTarget target

/-- The module and the targets of the relation methods of a descriptor are those of a registry. -/
structure Descriptor.RelatesIn (registry : Registry) (descriptor : Descriptor) : Prop where
  module : descriptor.module = registry.module
  methods : ∀ method ∈ descriptor.methods, ∀ target ∈ method.target, registry.IsTarget target

theorem Descriptor.IsCompiledIn.relatesIn
    {registry : Registry} {descriptor : Descriptor} (compiled : descriptor.IsCompiledIn registry) :
    descriptor.RelatesIn registry :=
  ⟨compiled.module, compiled.methods⟩

theorem RelationMethod.isTarget_ofRelation
    (entity : Option String) (registry : Registry) (relation : Relation) :
    ∀ target ∈ (ofRelation entity registry relation).target, registry.IsTarget target := by
  rw [ofRelation.eq_def]
  cases relation.kind with
  | morphTo => rintro target ⟨⟩
  | _ =>
      rintro target ⟨⟩
      exact ⟨_, rfl⟩

/-- A draft keeps the registry that its relations are resolved in. -/
theorem Draft.registry_of_ofComponent
    {registry : Registry} {component : Component} {draft : Draft}
    (drafted : Draft.ofComponent registry component = .ok draft) : draft.registry = registry := by
  simp only [Draft.ofComponent, bind_eq_ok_iff] at drafted
  obtain ⟨_, _, _, _, _, _, _, _, _, _, _, _, _, _, made⟩ := drafted
  rw [← Except.ok.inj made]

theorem Draft.finish_spec
    {draft : Draft} {strict : Bool} {descriptor : Descriptor}
    (finished : draft.finish strict = .ok descriptor) :
    descriptor.module = draft.registry.module ∧
      Factory.expressions draft.registry draft.relations draft.attributes [] =
        .ok descriptor.factory := by
  rw [finish] at finished
  cases made : Factory.expressions draft.registry draft.relations draft.attributes [] with
  | error error =>
      rw [made] at finished
      cases finished
  | ok factory =>
      rw [made] at finished
      dsimp only at finished
      split at finished
      · cases finished
      · rw [← Except.ok.inj finished]
        exact ⟨rfl, rfl⟩

/-- A component is compiled into a draft of its registry, which is then completed. -/
theorem Component.exists_finish_of_compile
    {registry : Registry} {strict : Bool} {component : Component} {descriptor : Descriptor}
    (compiled : component.compile registry strict = .ok descriptor) :
    ∃ draft : Draft, draft.registry = registry ∧ draft.finish strict = .ok descriptor := by
  rw [Component.compile] at compiled
  cases drafted : Draft.ofComponent registry component with
  | error violation =>
      rw [drafted] at compiled
      cases compiled
  | ok draft =>
      rw [drafted] at compiled
      exact ⟨draft, Draft.registry_of_ofComponent drafted, compiled⟩

/-- What a component is compiled into relates to targets of its registry. -/
theorem Component.relatesIn
    {registry : Registry} {strict : Bool} {component : Component} {descriptor : Descriptor}
    (compiled : component.compile registry strict = .ok descriptor) :
    descriptor.RelatesIn registry := by
  obtain ⟨draft, rfl, finished⟩ := component.exists_finish_of_compile compiled
  refine ⟨(Draft.finish_spec finished).1, fun method member => ?_⟩
  rw [(component.methods_of_compile compiled).1] at member
  obtain ⟨relation, -, rfl⟩ := List.mem_map.mp member
  exact RelationMethod.isTarget_ofRelation _ _ _

/-- A component of a reviewed definition is compiled within the registry of its module. -/
theorem Component.isCompiledIn
    {registry : Registry} {strict : Bool} {component : Component} {descriptor : Descriptor}
    (compiled : component.compile registry strict = .ok descriptor)
    (className : isClassName component.entity = true)
    (known : component.entity ∈ registry.siblings) : descriptor.IsCompiledIn registry := by
  obtain ⟨module, methods⟩ := component.relatesIn compiled
  have entity := (component.compile_spec compiled).1
  obtain ⟨draft, rfl, finished⟩ := component.exists_finish_of_compile compiled
  rw [← entity] at className known
  exact ⟨module, className, known, methods,
    Factory.isTarget_of_expressions (Draft.finish_spec finished).2 (List.forall_mem_nil _)⟩

end Scaffold
