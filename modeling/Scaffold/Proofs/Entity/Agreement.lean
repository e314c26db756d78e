import Mathlib.Tactic.SplitIfs
import Scaffold.Entity.Discovery
import Scaffold.Module.Compilation
import Scaffold.Proofs.Keyed

/-!
# Registries that agree

A registry counts only by what it resolves each name to.  Two registries that resolve all names in
the same way compile every component to the same descriptor, and two that are built from the same
sets of names agree, however the names are listed.
-/

namespace Scaffold

namespace Registry

/-- Two registries resolve every name in the same way. -/
structure Agrees (left right : Registry) : Prop where
  module : left.module = right.module
  resolve : ∀ name, left.resolve name = right.resolve name

variable {left right : Registry}

/-! ## Compiling -/

theorem Agrees.ofRelation (agrees : Agrees left right) (entity : Option String)
    (relation : Relation) :
    RelationMethod.ofRelation entity left relation =
      RelationMethod.ofRelation entity right relation := by
  rw [RelationMethod.ofRelation, RelationMethod.ofRelation, agrees.resolve]

theorem Agrees.expressions
    (agrees : Agrees left right) (relations : List Relation) (attributes : List Attribute)
    (found : Keyed FactoryExpression) :
    Factory.expressions left relations attributes found =
      Factory.expressions right relations attributes found := by
  have one (attr : Attribute) :
      Factory.expression? left relations attr = Factory.expression? right relations attr := by
    rw [Factory.expression?, Factory.expression?, agrees.resolve]
  induction attributes generalizing found with
  | nil => rfl
  | cons attr rest hypothesis =>
      rw [Factory.expressions, Factory.expressions, one]
      refine bind_congr fun answer => ?_
      cases answer with
      | none => exact hypothesis found
      | some expression => exact hypothesis _

theorem Agrees.refl (registry : Registry) : Agrees registry registry :=
  ⟨rfl, fun _ => rfl⟩

/-- A component gives the same draft, apart from the registry that the draft keeps. -/
theorem Agrees.ofComponent (agrees : Agrees left right) (component : Component) :
    Draft.ofComponent left component =
      (Draft.ofComponent right component).map fun draft => { draft with registry := left } := by
  have methods (entity : Option String) (relations : List Relation) :
      Relation.compileAll entity left relations = Relation.compileAll entity right relations := by
    rw [Relation.compileAll, Relation.compileAll, funext (agrees.ofRelation entity)]
  rw [Draft.ofComponent, Draft.ofComponent]
  simp only [methods]
  cases Attribute.ofRecords (some component.entity) component.attributes with
  | error violation => rfl
  | ok attributes =>
      dsimp only [bind, Except.bind]
      cases Schema.checkDistinct (some component.entity) attributes with
      | error violation => rfl
      | ok _ =>
          dsimp only
          cases Draft.placeholderRelations (some component.entity) attributes with
          | error violation => rfl
          | ok inline =>
              dsimp only
              cases Relation.ofRecords (some component.entity) component.relations with
              | error violation => rfl
              | ok listed =>
                  dsimp only
                  cases Index.ofRecords (some component.entity) 0 component.indexes with
                  | error violation => rfl
                  | ok indexes =>
                      dsimp only
                      cases Schema.compile (some component.entity) attributes indexes with
                      | error violation => rfl
                      | ok schema =>
                          dsimp only
                          cases Relation.compileAll (some component.entity) right
                              (inline ++ listed) with
                          | error violation => rfl
                          | ok methods => rfl

theorem registry_of_ofComponent
    {registry : Registry} {component : Component} {draft : Draft}
    (drafted : Draft.ofComponent registry component = .ok draft) :
    draft.registry = registry := by
  have same := (Agrees.refl registry).ofComponent component
  rw [drafted] at same
  exact congrArg Draft.registry (Except.ok.inj same)

/-- A component compiles in the same way. -/
theorem Agrees.compile (agrees : Agrees left right) (strict : Bool) (component : Component) :
    component.compile left strict = component.compile right strict := by
  rw [Component.compile, Component.compile, agrees.ofComponent]
  cases drafted : Draft.ofComponent right component with
  | error violation => rfl
  | ok draft =>
      have kept := registry_of_ofComponent drafted
      subst kept
      simp only [Except.map, Draft.finish, Draft.relationWarnings, agrees.expressions, agrees.module]

/-- The components of a module compile in the same way. -/
theorem Agrees.addAll
    (agrees : Agrees left right) (strict : Bool) {first second : ModuleCompilation}
    (components : List Component)
    (firstRegistry : first.registry = left) (secondRegistry : second.registry = right)
    (descriptors : first.descriptors = second.descriptors)
    (stopped : first.stopped = second.stopped) :
    (first.addAll strict components).descriptors = (second.addAll strict components).descriptors ∧
      (first.addAll strict components).stopped = (second.addAll strict components).stopped := by
  induction components generalizing first second with
  | nil => exact ⟨descriptors, stopped⟩
  | cons component rest hypothesis =>
      have next : (first.add strict component).registry = left ∧
          (second.add strict component).registry = right ∧
          (first.add strict component).descriptors = (second.add strict component).descriptors ∧
          (first.add strict component).stopped = (second.add strict component).stopped := by
        rw [ModuleCompilation.add, ModuleCompilation.add, firstRegistry, secondRegistry,
          agrees.compile]
        split <;> exact ⟨rfl, rfl, by simp [descriptors], by simp [stopped]⟩
      obtain ⟨nextLeft, nextRight, nextDescriptors, nextStopped⟩ := next
      rw [ModuleCompilation.addAll, ModuleCompilation.addAll]
      rw [← nextStopped]
      split_ifs
      · exact ⟨nextDescriptors, nextStopped⟩
      · exact hypothesis nextLeft nextRight nextDescriptors nextStopped

/-! ## Names -/

/-- Two registries hold the same names, though perhaps in another order. -/
structure Matches (left right : Registry) : Prop where
  module : left.module = right.module
  moduleNamespace : left.moduleNamespace = right.moduleNamespace
  applicationNamespace : left.applicationNamespace = right.applicationNamespace
  siblings : ∀ entity, entity ∈ left.siblings ↔ entity ∈ right.siblings
  leftNodup : (Keyed.keys left.neighbours).Nodup
  rightNodup : (Keyed.keys right.neighbours).Nodup
  modules : ∀ module, module ∈ Keyed.keys left.neighbours ↔ module ∈ Keyed.keys right.neighbours
  entities : ∀ module entity,
    entity ∈ (Keyed.get? left.neighbours module).getD [] ↔
      entity ∈ (Keyed.get? right.neighbours module).getD []
  /-- A sibling is found before the models of the application are asked for. -/
  application : ∀ entity, entity ∉ left.siblings →
    (entity ∈ left.application ↔ entity ∈ right.application)

theorem Matches.agrees (same : Matches left right) : Agrees left right where
  module := same.module
  resolve name := by
    have keys := (List.perm_ext_iff_of_nodup same.leftNodup same.rightNodup).mpr same.modules
    have length : left.neighbours.length = right.neighbours.length := by
      simpa [Keyed.keys] using keys.length_eq
    have within (module entity : String) :
        ((Keyed.get? left.neighbours module).getD []).contains entity =
          ((Keyed.get? right.neighbours module).getD []).contains entity := by
      rw [Bool.eq_iff_iff, List.contains_iff_mem, List.contains_iff_mem]
      exact same.entities module entity
    have neighbour (entity : String) : left.neighbourOf? entity = right.neighbourOf? entity := by
      rw [neighbourOf?, neighbourOf?, sortedTexts_of_perm keys]
      simp only [within]
    have modelName (entity module : String) :
        left.modelName entity module = right.modelName entity module := by
      simp only [Registry.modelName, namespaceOf, same.module, same.moduleNamespace]
    by_cases sibling : Text.studlyCase name ∈ right.siblings
    · simp only [resolve, List.contains_iff_mem, same.siblings, sibling, if_true, same.module,
        modelName]
    · have application := same.application _ (mt (same.siblings _).mp sibling)
      simp only [resolve, List.contains_iff_mem, same.siblings, sibling, if_false, neighbour,
        modelName, same.module, length, same.applicationNamespace, application]

@[simp]
theorem mem_addText {texts : List String} {text other : String} :
    other ∈ addText texts text ↔ other ∈ texts ∨ other = text := by
  rw [addText]
  split_ifs with known
  · rw [List.contains_iff_mem] at known
    exact ⟨.inl, fun member => member.elim id fun same => same ▸ known⟩
  · simp

theorem mem_foldl_addText {texts known : List String} {text : String} :
    text ∈ texts.foldl addText known ↔ text ∈ known ∨ text ∈ texts := by
  induction texts generalizing known with
  | nil => simp
  | cons first rest hypothesis =>
      rw [List.foldl_cons, hypothesis, mem_addText, List.mem_cons, or_assoc]

theorem Matches.addSibling (same : Matches left right) (entity : String) :
    Matches (left.addSibling entity) (right.addSibling entity) where
  module := same.module
  moduleNamespace := same.moduleNamespace
  applicationNamespace := same.applicationNamespace
  siblings other := by simp [Registry.addSibling, same.siblings]
  leftNodup := same.leftNodup
  rightNodup := same.rightNodup
  modules := same.modules
  entities := same.entities
  application other apart := by
    refine same.application other fun known => apart ?_
    simp [Registry.addSibling, known]

theorem Matches.addSiblings (same : Matches left right) (entities : List String) :
    Matches (entities.foldl Registry.addSibling left) (entities.foldl Registry.addSibling right) := by
  induction entities generalizing left right with
  | nil => exact same
  | cons entity rest hypothesis => exact hypothesis (same.addSibling entity)

/-- A module compiles in the same way. -/
theorem Matches.compile
    (same : Matches left right) (definition : ModuleDefinition) (strict : Bool)
    (only : Option (List String)) :
    (definition.compile left strict only).descriptors =
        (definition.compile right strict only).descriptors ∧
      (definition.compile left strict only).stopped =
        (definition.compile right strict only).stopped :=
  (same.addSiblings definition.entities).agrees.addAll strict _ rfl rfl rfl rfl

/-! ## Building -/

/-- Modules with their entities list a module. -/
def Lists (others : Keyed (List String)) (module : String) : Prop :=
  ∃ pair ∈ others, Text.studlyCase pair.1 = module

/-- Modules with their entities mention an entity of a module. -/
def Mentions (others : Keyed (List String)) (module entity : String) : Prop :=
  ∃ pair ∈ others, Text.studlyCase pair.1 = module ∧
    ∃ name ∈ pair.2, Text.studlyCase name = entity

variable {registry : Registry}

theorem foldl_addSibling (registry : Registry) (entities : List String) :
    entities.foldl addSibling registry =
      { registry with
        siblings := (entities.map Text.studlyCase).foldl addText registry.siblings } := by
  induction entities generalizing registry with
  | nil => rfl
  | cons entity rest hypothesis => rw [List.foldl_cons, hypothesis]; rfl

@[simp]
theorem module_addModule (registry : Registry) (module : String) (entities : List String) :
    (registry.addModule module entities).module = registry.module := by
  simp only [addModule]
  split_ifs
  · rw [foldl_addSibling]
  · rfl

theorem mem_siblings_addModule {module : String} {entities : List String} {entity : String} :
    entity ∈ (registry.addModule module entities).siblings ↔
      entity ∈ registry.siblings ∨
        Text.studlyCase module = registry.module ∧ ∃ name ∈ entities, Text.studlyCase name = entity := by
  simp only [addModule]
  split_ifs with own
  · rw [beq_iff_eq] at own
    simp [foldl_addSibling, mem_foldl_addText, own]
  · rw [beq_iff_eq] at own
    simp [own]

theorem mem_keys_addModule {module other : String} {entities : List String} :
    other ∈ Keyed.keys (registry.addModule module entities).neighbours ↔
      other ∈ Keyed.keys registry.neighbours ∨
        other ≠ registry.module ∧ Text.studlyCase module = other := by
  simp only [addModule]
  split_ifs with own
  · rw [beq_iff_eq] at own
    rw [foldl_addSibling, own]
    exact ⟨.inl, fun known => known.elim id fun other => absurd other.2.symm other.1⟩
  · rw [beq_iff_eq] at own
    rw [Keyed.mem_keys_put]
    constructor
    · rintro (known | rfl)
      · exact .inl known
      · exact .inr ⟨own, rfl⟩
    · rintro (known | ⟨_, rfl⟩)
      · exact .inl known
      · exact .inr rfl

theorem nodup_addModule
    (nodup : (Keyed.keys registry.neighbours).Nodup) (module : String) (entities : List String) :
    (Keyed.keys (registry.addModule module entities).neighbours).Nodup := by
  simp only [addModule]
  split_ifs
  · rw [foldl_addSibling]
    exact nodup
  · exact Keyed.nodup_keys_put nodup _ _

theorem mem_entities_addModule {module other : String} {entities : List String} {entity : String} :
    entity ∈ (Keyed.get? (registry.addModule module entities).neighbours other).getD [] ↔
      entity ∈ (Keyed.get? registry.neighbours other).getD [] ∨
        other ≠ registry.module ∧ Text.studlyCase module = other ∧
          ∃ name ∈ entities, Text.studlyCase name = entity := by
  simp only [addModule]
  split_ifs with own
  · rw [beq_iff_eq] at own
    rw [foldl_addSibling, own]
    exact ⟨.inl, fun known => known.elim id fun other => absurd other.2.1.symm other.1⟩
  · rw [beq_iff_eq] at own
    rw [Keyed.get?_put]
    split_ifs with here
    · subst here
      simp [mem_foldl_addText, own]
    · simp [here]

/-- Add modules to a registry in turn. -/
def addModules (registry : Registry) (others : Keyed (List String)) : Registry :=
  others.foldl (fun registry pair => registry.addModule pair.1 pair.2) registry

theorem addModules_cons (registry : Registry) (pair : String × List String)
    (others : Keyed (List String)) :
    registry.addModules (pair :: others) = (registry.addModule pair.1 pair.2).addModules others :=
  rfl

theorem lists_cons {pair : String × List String} {others : Keyed (List String)} {module : String} :
    Lists (pair :: others) module ↔ Text.studlyCase pair.1 = module ∨ Lists others module := by
  simp [Lists]

theorem mentions_cons
    {pair : String × List String} {others : Keyed (List String)} {module entity : String} :
    Mentions (pair :: others) module entity ↔
      (Text.studlyCase pair.1 = module ∧ ∃ name ∈ pair.2, Text.studlyCase name = entity) ∨
        Mentions others module entity := by
  simp only [Mentions, List.mem_cons, exists_eq_or_imp]

/-- What a registry knows after modules were added to it. -/
structure Adds (registry : Registry) (others : Keyed (List String)) (all : Registry) : Prop where
  module : all.module = registry.module
  moduleNamespace : all.moduleNamespace = registry.moduleNamespace
  applicationNamespace : all.applicationNamespace = registry.applicationNamespace
  application : all.application = registry.application
  siblings : ∀ entity, entity ∈ all.siblings ↔
    entity ∈ registry.siblings ∨ Mentions others registry.module entity
  nodup : (Keyed.keys registry.neighbours).Nodup → (Keyed.keys all.neighbours).Nodup
  modules : ∀ module, module ∈ Keyed.keys all.neighbours ↔
    module ∈ Keyed.keys registry.neighbours ∨ module ≠ registry.module ∧ Lists others module
  entities : ∀ module entity, entity ∈ (Keyed.get? all.neighbours module).getD [] ↔
    entity ∈ (Keyed.get? registry.neighbours module).getD [] ∨
      module ≠ registry.module ∧ Mentions others module entity

theorem adds_addModules (registry : Registry) (others : Keyed (List String)) :
    registry.Adds others (registry.addModules others) := by
  induction others generalizing registry with
  | nil => constructor <;> simp [addModules, Mentions, Lists]
  | cons pair rest hypothesis =>
      have later := hypothesis (registry.addModule pair.1 pair.2)
      have kept : (registry.addModule pair.1 pair.2).moduleNamespace = registry.moduleNamespace ∧
          (registry.addModule pair.1 pair.2).applicationNamespace =
            registry.applicationNamespace ∧
          (registry.addModule pair.1 pair.2).application = registry.application := by
        simp only [addModule]
        split_ifs
        · rw [foldl_addSibling]
          exact ⟨rfl, rfl, rfl⟩
        · exact ⟨rfl, rfl, rfl⟩
      rw [addModules_cons]
      refine ⟨later.module.trans (module_addModule _ _ _), later.moduleNamespace.trans kept.1,
        later.applicationNamespace.trans kept.2.1, later.application.trans kept.2.2,
        fun entity => ?_, fun nodup => later.nodup (nodup_addModule nodup _ _), fun module => ?_,
        fun module entity => ?_⟩
      · rw [later.siblings, mem_siblings_addModule, module_addModule, mentions_cons, or_assoc]
      · rw [later.modules, mem_keys_addModule, module_addModule, lists_cons, or_assoc,
          ← and_or_left]
      · rw [later.entities, mem_entities_addModule, module_addModule, mentions_cons, or_assoc,
          ← and_or_left]

/-- Registries that are built from the same names match. -/
theorem matches_build
    (module : String) (siblings : List String) {leftOthers rightOthers : Keyed (List String)}
    {leftApplication rightApplication : List String}
    (moduleNamespace applicationNamespace : String)
    (own : ∀ entity, (entity ∈ siblings.map Text.studlyCase ∨
        Mentions leftOthers (Text.studlyCase module) entity) ↔
      (entity ∈ siblings.map Text.studlyCase ∨
        Mentions rightOthers (Text.studlyCase module) entity))
    (lists : ∀ other, other ≠ Text.studlyCase module →
      (Lists leftOthers other ↔ Lists rightOthers other))
    (mentions : ∀ other entity, other ≠ Text.studlyCase module →
      (Mentions leftOthers other entity ↔ Mentions rightOthers other entity))
    (application : ∀ entity, entity ∉ siblings.map Text.studlyCase →
      ¬ Mentions leftOthers (Text.studlyCase module) entity →
      (entity ∈ leftApplication.map Text.studlyCase ↔
        entity ∈ rightApplication.map Text.studlyCase)) :
    Matches
      (build module siblings leftOthers leftApplication moduleNamespace applicationNamespace)
      (build module siblings rightOthers rightApplication moduleNamespace applicationNamespace) := by
  have adds (others : Keyed (List String)) (application : List String) :=
    adds_addModules
      (siblings.foldl addSibling
        { module := Text.studlyCase module
          application := (application.map Text.studlyCase).foldl addText []
          moduleNamespace := strippedNamespace moduleNamespace
          applicationNamespace := strippedNamespace applicationNamespace }) others
  simp only [foldl_addSibling] at adds
  have left := adds leftOthers leftApplication
  have right := adds rightOthers rightApplication
  rw [build, build]
  simp only [foldl_addSibling]
  refine ⟨left.module.trans right.module.symm,
    left.moduleNamespace.trans right.moduleNamespace.symm,
    left.applicationNamespace.trans right.applicationNamespace.symm, fun entity => ?_,
    left.nodup List.nodup_nil, right.nodup List.nodup_nil, fun other => ?_, fun other entity => ?_,
    fun entity apart => ?_⟩
  · refine (left.siblings entity).trans (Iff.trans ?_ (right.siblings entity).symm)
    simpa [mem_foldl_addText] using own entity
  · refine (left.modules other).trans (Iff.trans ?_ (right.modules other).symm)
    simpa [Keyed.keys] using lists other
  · refine (left.entities other entity).trans (Iff.trans ?_ (right.entities other entity).symm)
    simpa [Keyed.get?] using mentions other entity
  · have unknown := mt (left.siblings entity).mpr apart
    rw [not_or] at unknown
    refine Iff.trans (iff_of_eq (congrArg (entity ∈ ·) left.application)) (Iff.trans ?_
      (iff_of_eq (congrArg (entity ∈ ·) right.application.symm)))
    simpa [mem_foldl_addText] using application entity
      (by simpa [mem_foldl_addText] using unknown.1) unknown.2

end Registry

end Scaffold
