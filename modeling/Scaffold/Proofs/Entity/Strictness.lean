import Scaffold.Proofs.Output.ImportClash
import Scaffold.Proofs.Violation

/-!
# Strict references

References are strict or not.  Where they are not, an unknown target is a warning of the compiled
component; where they are, the first unknown target stops the compilation.  Nothing else depends on
it: a component that breaks a rule breaks the same rule in both cases, and one without warnings is
compiled into the same descriptor.
-/

namespace Scaffold

/-- A component does not compile because of an unknown target. -/
def CompileError.IsUnresolved : CompileError → Prop
  | .violation broken => broken.rule.kind = .unresolvedTarget
  | .factory _ => False

/-- The first target of a descriptor that is not known: of its relations, then of its factory. -/
def Descriptor.firstUnresolved? (descriptor : Descriptor) : Option Target :=
  (descriptor.methodTargets ++ descriptor.factoryTargets).find? (!·.isResolved)

/-- What a lenient compilation becomes when references are strict. -/
def Descriptor.strictly (descriptor : Descriptor) : Except CompileError Descriptor :=
  match descriptor.firstUnresolved? with
  | some target => .error (.violation (Draft.unresolvedViolation descriptor.entity target))
  | none => .ok descriptor

namespace Draft

/-! ## Warnings and unknown targets -/

/-- Relation methods and factory expressions give one warning for each unknown target. -/
theorem length_warnings (draft : Draft) (factory : Keyed FactoryExpression) :
    (draft.relationWarnings ++ factory.filterMap fun (_, expression) =>
      factoryWarning? draft.component.entity expression).length =
      (unresolvedTargets draft.methods factory).length := by
  simp only [relationWarnings, unresolvedTargets, List.length_append,
    List.length_filterMap_eq_countP, RelationMethod.warning?, factoryWarning?, Option.isSome_map]

theorem unresolvedTargets_eq_filter (descriptor : Descriptor) :
    unresolvedTargets descriptor.methods descriptor.factory =
      (descriptor.methodTargets ++ descriptor.factoryTargets).filter (!·.isResolved) := by
  rw [List.filter_append, Descriptor.methodTargets, Descriptor.factoryTargets,
    List.filter_filterMap, List.filter_filterMap]
  rfl

theorem head?_unresolvedTargets (descriptor : Descriptor) :
    (unresolvedTargets descriptor.methods descriptor.factory).head? =
      descriptor.firstUnresolved? := by
  rw [unresolvedTargets_eq_filter, List.head?_filter, Descriptor.firstUnresolved?]

/--
A draft is completed in both cases or in none, up to the unknown targets; they are counted by the
warnings.
-/
theorem finish_cases (draft : Draft) :
    (∃ error, ∀ strict, draft.finish strict = .error (.factory error)) ∨
      ∃ descriptor, draft.finish false = .ok descriptor ∧
        draft.finish true = descriptor.strictly ∧
        (descriptor.warnings = [] ↔ descriptor.firstUnresolved? = none) := by
  simp only [finish]
  cases Factory.expressions draft.registry draft.relations draft.attributes [] with
  | error error => exact .inl ⟨error, fun _ => rfl⟩
  | ok factory =>
      refine .inr ⟨_, rfl, ?_, ?_⟩
      · rw [Descriptor.strictly, ← head?_unresolvedTargets]
        dsimp only
        cases unresolvedTargets draft.methods factory <;> rfl
      · rw [← head?_unresolvedTargets, List.head?_eq_none_iff, ← List.length_eq_zero_iff,
          ← List.length_eq_zero_iff, length_warnings]

end Draft

/-! ## Components -/

namespace Component

/-- A component fails alike in both cases, or is compiled and then judged by its targets. -/
theorem compile_strictly (registry : Registry) (component : Component) :
    (∃ error, ¬ CompileError.IsUnresolved error ∧
        ∀ strict, component.compile registry strict = .error error) ∨
      ∃ descriptor, component.compile registry false = .ok descriptor ∧
        component.compile registry true = descriptor.strictly ∧
        (descriptor.warnings = [] ↔ descriptor.firstUnresolved? = none) := by
  have records := @Draft.stopsWith_ofComponent registry component
  simp only [compile]
  cases drafted : Draft.ofComponent registry component with
  | error violation =>
      exact .inl ⟨.violation violation, (records.error_of_eq drafted).kind_ne, fun _ => rfl⟩
  | ok draft =>
      rcases draft.finish_cases with ⟨error, failed⟩ | completed
      · exact .inl ⟨.factory error, not_false, failed⟩
      · exact .inr completed

/--
With strict references a component compiles exactly when it compiles without warnings, and then to
the same descriptor.  The first unknown target stops exactly the components that compile with a
warning, and every other error is the same in both cases.
-/
theorem compile_strict_eq_lenient (registry : Registry) (component : Component) :
    (∀ descriptor, component.compile registry true = .ok descriptor ↔
        component.compile registry false = .ok descriptor ∧ descriptor.warnings = []) ∧
      ((∃ error, component.compile registry true = .error error ∧ error.IsUnresolved) ↔
        ∃ descriptor, component.compile registry false = .ok descriptor ∧
          descriptor.warnings ≠ []) ∧
      (∀ descriptor, component.compile registry false = .ok descriptor →
        descriptor.warnings ≠ [] →
          ∃ target, descriptor.firstUnresolved? = some target ∧
            component.compile registry true =
              .error (.violation (Draft.unresolvedViolation component.entity target))) ∧
      ∀ error, ¬ CompileError.IsUnresolved error →
        (component.compile registry true = .error error ↔
          component.compile registry false = .error error) := by
  rcases component.compile_strictly registry with
    ⟨error, other, failed⟩ | ⟨descriptor, lenient, strict, warned⟩
  · simp only [failed]
    refine ⟨by simp, ⟨?_, by simp⟩, by simp, by simp⟩
    rintro ⟨_, ⟨⟩, unresolved⟩
    exact absurd unresolved other
  · have entity := (component.compile_spec lenient).1
    rw [lenient, strict, Descriptor.strictly, entity]
    cases found : descriptor.firstUnresolved? with
    | none =>
        have none := warned.mpr found
        simp [none]
    | some target =>
        have some : descriptor.warnings ≠ [] := mt warned.mp (by simp [found])
        refine ⟨?_, ?_, ?_, ?_⟩
        · rintro other
          simp only [reduceCtorEq, Except.ok.injEq, false_iff, not_and]
          rintro rfl
          exact some
        · exact ⟨fun _ => ⟨_, rfl, some⟩, fun _ => ⟨_, rfl, rfl⟩⟩
        · rintro _ ⟨⟩ -
          exact ⟨target, found, rfl⟩
        · rintro error other
          simp only [reduceCtorEq, Except.error.injEq, iff_false]
          rintro rfl
          exact other rfl

/-- A comment names a post that is not known, in its relation and again by its foreign key. -/
theorem compile_strict_eq_lenient_comment :
    ∃ descriptor target, commentOnPost.compile blogRegistry false = .ok descriptor ∧
      descriptor.warnings.length = 2 ∧ target.name = "Post" ∧
      commentOnPost.compile blogRegistry true =
        .error (.violation (Draft.unresolvedViolation "Comment" target)) := by
  have evaluated : (commentOnPost.compile blogRegistry false).toOption.map
      (fun descriptor =>
        (descriptor.warnings.length, descriptor.firstUnresolved?.map (·.name))) =
        some (2, some "Post") := by
    decide +kernel
  cases lenient : commentOnPost.compile blogRegistry false with
  | error error =>
      rw [lenient] at evaluated
      cases evaluated
  | ok descriptor =>
      rw [lenient] at evaluated
      obtain ⟨warned, named⟩ := Prod.mk.inj (Option.some.inj evaluated)
      have some : descriptor.warnings ≠ [] := by
        intro none
        simp [none] at warned
      obtain ⟨-, -, strict, -⟩ := commentOnPost.compile_strict_eq_lenient blogRegistry
      obtain ⟨target, first, failed⟩ := strict descriptor lenient some
      have called : target.name = "Post" := by simpa [first] using named
      have entity : commentOnPost.entity = "Comment" := by decide +kernel
      exact ⟨descriptor, target, rfl, warned, called, entity ▸ failed⟩

end Component

end Scaffold
