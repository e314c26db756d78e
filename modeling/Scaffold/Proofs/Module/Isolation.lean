import Scaffold.Proofs.Decimal.Overflow
import Scaffold.Proofs.Document.Reading
import Scaffold.Proofs.Entity.Agreement
import Scaffold.Proofs.Module.Naming

/-!
# Components that fail

A component with a violation is recorded under its entity and leaves its siblings as they are.  One
thing stops a whole module: the largest number of a decimal column that is made up by its type, when
more than 308 of its digits stand before the point.  Without such a column every component of a
module has its own outcome, and the outcome is the one that it has alone.
-/

namespace Scaffold

/-! ## What stops a module -/

/-- The largest number of a column that a factory fills by its decimal type is beyond the doubles. -/
def Attribute.Overflows (attr : Attribute) : Prop :=
  Factory.isSkipped attr = false ∧ Factory.nameWord? attr.name = none ∧
    attr.type ∈ [ColumnType.decimal, .double, .float] ∧
      attr.places.getD 2 + 308 < attr.total.getD 8

theorem Factory.decimalExpression_eq_error_iff {attr : Attribute} {error : FactoryError} :
    decimalExpression attr = .error error ↔ attr.places.getD 2 + 308 < attr.total.getD 8 := by
  rw [← Decimal.largestNumber?_eq_none_iff, decimalExpression]
  cases error
  cases largestNumber? (attr.total.getD 8) (attr.places.getD 2) <;> simp

theorem Factory.typeExpression_eq_error_iff {attr : Attribute} {error : FactoryError} :
    typeExpression attr = .error error ↔ attr.type ∈ [ColumnType.decimal, .double, .float] ∧
      attr.places.getD 2 + 308 < attr.total.getD 8 := by
  have decimal : (decimalExpression attr).map (fun expression => (FactoryRule.byType "decimal",
      expression)) = .error error ↔ attr.places.getD 2 + 308 < attr.total.getD 8 := by
    rw [← @decimalExpression_eq_error_iff attr error]
    cases decimalExpression attr <;> simp [Except.map]
  rw [typeExpression.eq_def]
  cases attr.type <;> simp [decimal]

theorem Factory.expression?_eq_error_iff
    {registry : Registry} {relations : List Relation} {attr : Attribute} {error : FactoryError} :
    expression? registry relations attr = .error error ↔ attr.Overflows := by
  rw [expression?, Attribute.Overflows, ← @typeExpression_eq_error_iff attr error]
  by_cases skipped : isSkipped attr = true
  · simp [skipped]
  · rw [if_neg skipped]
    cases nameWord? attr.name with
    | some word => simp
    | none =>
        dsimp only
        by_cases foreign : attr.type.isForeignKey = true
        · -- a foreign key has no decimal type
          have other : attr.type ∉ [ColumnType.decimal, .double, .float] := by
            intro decimal
            cases type : attr.type <;> simp_all [ColumnType.isForeignKey]
          rw [if_pos foreign, typeExpression_eq_error_iff]
          simp [other]
        · rw [if_neg foreign]
          cases typeExpression attr <;> simp [Except.map, skipped]

theorem Factory.expressions_eq_error_iff
    {registry : Registry} {relations : List Relation} {attributes : List Attribute}
    {found : Keyed FactoryExpression} {error : FactoryError} :
    expressions registry relations attributes found = .error error ↔
      ∃ attr ∈ attributes, attr.Overflows := by
  induction attributes generalizing found with
  | nil => simp [expressions]
  | cons attr rest hypothesis =>
      rw [expressions, List.exists_mem_cons_iff, ← @expression?_eq_error_iff registry relations attr
        error]
      cases expression? registry relations attr with
      | error other => simp [bind, Except.bind]
      | ok made =>
          cases made with
          | none => simpa [bind, Except.bind] using hypothesis
          | some expression => simpa [bind, Except.bind] using hypothesis

/-- A component can be read, and the factory of one of its attributes overflows. -/
def Component.Overflows (registry : Registry) (component : Component) : Prop :=
  ∃ draft, Draft.ofComponent registry component = .ok draft ∧
    ∃ attr ∈ draft.attributes, attr.Overflows

theorem Component.compile_eq_factory_iff
    {registry : Registry} {strict : Bool} {component : Component} {error : FactoryError} :
    component.compile registry strict = .error (.factory error) ↔ component.Overflows registry := by
  rw [Component.compile, Overflows]
  cases Draft.ofComponent registry component with
  | error violation => simp
  | ok draft =>
      simp only [Except.ok.injEq, exists_eq_left', Draft.finish]
      rw [← @Factory.expressions_eq_error_iff draft.registry draft.relations draft.attributes []
        error]
      cases Factory.expressions draft.registry draft.relations draft.attributes [] with
      | error other => simp
      | ok factory =>
          simp only [reduceCtorEq, iff_false]
          split <;> simp

/-! ## The outcomes of the components -/

/-- The violation of a component that does not compile. -/
def Component.violation? (registry : Registry) (strict : Bool) (component : Component) :
    Option Violation :=
  match component.compile registry strict with
  | .error (.violation violation) => some violation
  | _ => none

/-- A component compiles, has a violation, or stops the module. -/
theorem Component.compile_cases (registry : Registry) (strict : Bool) (component : Component) :
    (∃ descriptor, component.compile registry strict = .ok descriptor) ∨
      (∃ violation, component.compile registry strict = .error (.violation violation)) ∨
        component.Overflows registry := by
  cases compiled : component.compile registry strict with
  | ok descriptor => exact .inl ⟨descriptor, rfl⟩
  | error error =>
      cases error with
      | violation violation => exact .inr (.inl ⟨violation, rfl⟩)
      | factory error => exact .inr (.inr (compile_eq_factory_iff.mp compiled))

namespace ModuleCompilation

variable {strict : Bool} {compilation : ModuleCompilation} {component : Component}

theorem registry_add : (compilation.add strict component).registry = compilation.registry := by
  rw [add]
  dsimp only
  split <;> rfl

theorem stopped_add_iff (running : compilation.stopped = none) :
    (compilation.add strict component).stopped = none ↔
      ¬ component.Overflows compilation.registry := by
  rw [← @Component.compile_eq_factory_iff compilation.registry strict component .numberTooLarge, add]
  dsimp only
  split
  · rename_i compiled
    simp [compiled, running]
  · rename_i compiled
    simp [compiled, running]
  · rename_i error compiled
    cases error
    simp [compiled]

/-- A component that does not stop the module adds its outcome. -/
theorem add_spec
    (fits : ¬ component.Overflows compilation.registry)
    (fresh : component.entity ∉ Keyed.keys compilation.failures) :
    (compilation.add strict component).descriptors = compilation.descriptors ++
        (component.compile compilation.registry strict).toOption.toList ∧
      (compilation.add strict component).failures = compilation.failures ++
        ((component.violation? compilation.registry strict).map (component.entity, ·)).toList := by
  rw [add]
  dsimp only
  rcases component.compile_cases compilation.registry strict with
    ⟨descriptor, compiled⟩ | ⟨violation, compiled⟩ | beyond
  · simp [Component.violation?, compiled, Except.toOption]
  · simp [Component.violation?, compiled, Except.toOption, Keyed.put_of_not_mem fresh]
  · exact absurd beyond fits

theorem stopped_addAll_iff (running : compilation.stopped = none) (components : List Component) :
    (compilation.addAll strict components).stopped = none ↔
      ∀ component ∈ components, ¬ component.Overflows compilation.registry := by
  induction components generalizing compilation with
  | nil => simpa [addAll] using running
  | cons component rest hypothesis =>
      have step := @stopped_add_iff strict compilation component running
      rw [addAll, List.forall_mem_cons]
      cases next : (compilation.add strict component).stopped with
      | some error =>
          rw [next] at step
          rw [if_pos (by simp)]
          simpa [next] using fun fits => absurd (step.mpr fits) (by simp)
      | none =>
          rw [if_neg (by simp), hypothesis next, registry_add]
          exact (and_iff_right (step.mp next)).symm

/-- Components none of which stops the module add their outcomes in order. -/
theorem addAll_outcomes
    (running : compilation.stopped = none) {components : List Component}
    (fits : ∀ component ∈ components, ¬ component.Overflows compilation.registry)
    (fresh : (Keyed.keys compilation.failures ++ components.map (·.entity)).Nodup) :
    (compilation.addAll strict components).descriptors = compilation.descriptors ++
        components.filterMap (fun component =>
          (component.compile compilation.registry strict).toOption) ∧
      (compilation.addAll strict components).failures = compilation.failures ++
        components.filterMap (fun component =>
          (component.violation? compilation.registry strict).map (component.entity, ·)) := by
  induction components generalizing compilation with
  | nil => simp [addAll]
  | cons component rest hypothesis =>
      obtain ⟨fit, fitRest⟩ := List.forall_mem_cons.mp fits
      have next := (@stopped_add_iff strict compilation component running).mpr fit
      obtain ⟨descriptors, failures⟩ := @add_spec strict compilation component fit (by
        intro member
        exact (List.nodup_append.mp fresh).2.2 _ member component.entity (by simp) rfl)
      have apart : (Keyed.keys (compilation.add strict component).failures ++
          rest.map (·.entity)).Nodup := by
        refine fresh.sublist ?_
        rw [failures]
        cases component.violation? compilation.registry strict <;> simp [Keyed.keys]
      obtain ⟨laterDescriptors, laterFailures⟩ :=
        @hypothesis (compilation.add strict component) next (by rwa [registry_add]) apart
      rw [addAll, if_neg (by simp [next]), laterDescriptors, laterFailures, registry_add,
        descriptors, failures, List.append_assoc, List.append_assoc]
      constructor
      · cases compiled : (component.compile compilation.registry strict).toOption <;>
          simp [compiled]
      · cases violated : component.violation? compilation.registry strict <;> simp [violated]

end ModuleCompilation

/-- Every component that does not stop a module is found once among the outcomes. -/
theorem Component.outcomes_perm
    {registry : Registry} {strict : Bool} {components : List Component}
    (fits : ∀ component ∈ components, ¬ component.Overflows registry) :
    ((components.filterMap fun component => (component.compile registry strict).toOption).map
        (·.entity) ++
      Keyed.keys (components.filterMap fun component =>
        (component.violation? registry strict).map (component.entity, ·))).Perm
      (components.map (·.entity)) := by
  induction components with
  | nil => simp [Keyed.keys]
  | cons component rest hypothesis =>
      obtain ⟨fit, fitRest⟩ := List.forall_mem_cons.mp fits
      have others := hypothesis fitRest
      rcases component.compile_cases registry strict with
        ⟨descriptor, compiled⟩ | ⟨violation, compiled⟩ | beyond
      · have same := (Component.compile_spec compiled).1
        simpa [violation?, compiled, Except.toOption, same] using others
      · have moved := List.perm_middle.trans (others.cons component.entity)
        simpa [violation?, compiled, Except.toOption, Keyed.keys] using moved
      · exact absurd beyond fit

theorem ModuleDefinition.compile_eq (definition : ModuleDefinition) (registry : Registry)
    (strict : Bool) :
    definition.compile registry strict none =
      ModuleCompilation.addAll strict { registry := definition.register registry }
        definition.components := by
  rw [ModuleDefinition.compile, List.filter_true]

/-- A module of two entities, the second of which has an attribute without a type. -/
def shopOfPages : ModuleDefinition :=
  ⟨"Shop", [{ name := "Post" }, { name := "Page", attributes := [.mapping []] }]⟩

/-- A module of two entities, the first of which has a column of 400 digits. -/
def shopOfPrices : ModuleDefinition :=
  let amount : Document.Value :=
    .mapping [(.text "name", .text "amount"), (.text "type", .text "decimal"),
      (.text "total", .int 400), (.text "places", .int 2)]
  ⟨"Shop", [{ name := "Price", attributes := [amount] }, { name := "Post" }]⟩

end Scaffold
