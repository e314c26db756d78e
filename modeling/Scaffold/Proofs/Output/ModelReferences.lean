import Scaffold.Proofs.Output.ImportClash
import Scaffold.Proofs.Output.LegibleModel

/-!
# Classes that a model refers to

A model names the targets in its own module and the classes of its relations by short names, and the
targets elsewhere by full names.  Under the imports and the namespace of its file every such name
stands for the class that was meant: the target that the registry has found, or the class of the
relation's kind.
-/

namespace Scaffold

open Scaffold.Php (ClassFile importedName? shortName)

/-! ## What a method refers to -/

/-- The classes in the body of a method are those of its target. -/
theorem RelationMethod.references_ofRelation
    (owner : Option String) (registry : Registry) (relation : Relation) :
    (ofRelation owner registry relation).read.references =
      (ofRelation owner registry relation).target.toList.flatMap fun target =>
        RelationArgument.references (.target target) := by
  have laid : (layoutArguments relation.optionalArguments).flatMap RelationArgument.references =
      [] := by
    refine List.flatMap_eq_nil_iff.mpr fun argument member => ?_
    rcases Relation.mem_layoutArguments member with ⟨text, rfl⟩ | ⟨parameter, -, text, rfl⟩ <;> rfl
  cases kind : relation.kind <;>
    simp [read, ofRelation, kind, RelationKind.takesMorph, laid, RelationArgument.references]

theorem RelationKind.className_mem (kind : RelationKind) : kind.className ∈ all.map className := by
  cases kind <;> decide

theorem RelationKind.className_ne_empty (kind : RelationKind) : kind.className ≠ "" := by
  cases kind <;> decide

theorem RelationKind.not_mem_className (kind : RelationKind) : '\\' ∉ kind.className.toList := by
  cases kind <;> decide

theorem RelationKind.className_injective : Function.Injective className := by
  intro kind other same
  cases kind <;> cases other <;> first | rfl | exact absurd same (by decide)

/-- The name of a target in the module itself is a name. -/
theorem Registry.IsTarget.name_ne_empty
    {registry : Registry} {target : Target} (isTarget : registry.IsTarget target)
    (holds : registry.HoldsClassNames) (isSibling : target.isSibling = true) :
    target.name ≠ "" := by
  cases isTarget.located with
  | sibling known =>
      rintro rfl
      exact absurd (holds.siblings _ known) (by decide)
  | neighbour | application | unknown => cases isSibling

theorem Registry.IsTarget.reference_ne_empty
    {registry : Registry} {target : Target} (isTarget : registry.IsTarget target)
    (holds : registry.HoldsClassNames) {full : String} (known : target.fullName? = some full) :
    target.reference ≠ "" := by
  rcases isTarget.reference_eq with ⟨own, found⟩ | ⟨_, -, spelled⟩
  · rw [own]
    exact isTarget.name_ne_empty holds (found.resolve_right (by simp [known]))
  · rw [spelled]
    simp

/-- A method is found in a file under its own name, with the classes that were meant. -/
structure RelationMethod.IsReadAs (file : ClassFile) (method : RelationMethod)
    (found : Php.Method) : Prop where
  name : found.name = method.wholeName
  returnType : file.resolve found.returnType = some method.relation.kind.fullName
  target : ∀ target ∈ method.target, ∀ full ∈ target.fullName?,
    found.references.map file.resolve = [some full]
  noTarget : method.target = none → found.references = []

namespace Descriptor

variable {config : Config} {registry : Registry} {name model : String} {descriptor : Descriptor}

/-! ## Short names in a model -/

/-- No target in the module itself has the name of another class that a model may use. -/
def HasFreeTargets (descriptor : Descriptor) : Prop :=
  ∀ target ∈ descriptor.methodTargets, target.isSibling = true →
    target.name ∉ ["HasFactory", "Model", descriptor.entity ++ "Factory"] ∧
      target.name ∉ RelationKind.all.map (·.className)

instance (descriptor : Descriptor) : Decidable descriptor.HasFreeTargets :=
  inferInstanceAs (Decidable (∀ target ∈ _, _ → _))

/-- What a name in the block of a model's imports is, by its short name. -/
inductive Imports (config : Config) (model : String) (descriptor : Descriptor) (full : String) :
    Prop
  | factory (short : shortName full = descriptor.entity ++ "Factory")
  | returned {kind : RelationKind} (same : full = kind.fullName)
      (short : shortName full = kind.className)
  | target {target : Target} (member : target ∈ descriptor.methodTargets)
      (isSibling : target.isSibling = true) (other : target.name ≠ model)
      (same : full = config.modelClass descriptor.module target.name)
      (short : shortName full = target.name)

/-- The classes that every model imports have their own short names. -/
theorem shortName_ne_of_mem {short : String} (other : short ∉ ["HasFactory", "Model"]) :
    ∀ full ∈ baseImports, shortName full ≠ short := by
  have shorts : baseImports.map shortName = ["HasFactory", "Model"] := by decide +kernel
  rintro full member rfl
  rw [← shorts] at other
  exact other (List.mem_map_of_mem member)

namespace IsLegible

variable (legible : descriptor.IsLegible config registry)
include legible

theorem clean_entity : '\\' ∉ descriptor.entity.toList :=
  fun within => absurd (legible.entity _ within) (by decide)

variable (clean : '\\' ∉ model.toList)
include clean

theorem mem_block_iff {full : String} :
    full ∈ (descriptor.modelBlock config model).filterMap importedName? ↔
      full = config.factoryClass descriptor.module descriptor.entity ∨
        (∃ method ∈ descriptor.methods, full = method.relation.kind.fullName) ∨
          ∃ target ∈ descriptor.methodTargets, target.isSibling = true ∧ target.name ≠ model ∧
            full = config.modelClass descriptor.module target.name :=
  legible.relates.mem_modelNames_iff legible.serves
    (legible.holds.hasPlainNamespaces legible.serves) clean

theorem imports_of_mem {full : String}
    (member : full ∈ (descriptor.modelBlock config model).filterMap importedName?) :
    descriptor.Imports config model full := by
  rcases (legible.mem_block_iff clean).mp member with
    rfl | ⟨method, -, rfl⟩ | ⟨target, among, isSibling, other, rfl⟩
  · exact .factory (config.shortName_factoryClass _ legible.clean_entity)
  · exact .returned rfl method.relation.kind.fullName_spec.1
  · exact .target among isSibling other rfl (config.shortName_modelClass _
      ((legible.relates.isTarget among).not_mem_name (by decide)))

variable (free : descriptor.HasFreeTargets)
include free

/-- The class that a method returns is the one of its relation's kind. -/
theorem resolve_returnType {method : RelationMethod} (among : method ∈ descriptor.methods) :
    (descriptor.modelFile config model).resolve method.returnType =
      some method.relation.kind.fullName := by
  refine ClassFile.resolve_imported method.relation.kind.className_ne_empty
    method.relation.kind.not_mem_className rfl
    (shortName_ne_of_mem method.relation.kind.className_apart.1)
    (Php.nodup_filterMap_importedName? (nodup_distinct _))
    ((legible.mem_block_iff clean).mpr (.inr (.inl ⟨method, among, rfl⟩)))
    method.relation.kind.fullName_spec.1 fun other member same => ?_
  cases legible.imports_of_mem clean member with
  | factory short =>
      exact absurd (short.symm.trans same) (method.relation.kind.className_apart.2 _)
  | @returned kind full short =>
      rw [full, RelationKind.className_injective (short.symm.trans same)]
  | target found isSibling _ _ short =>
      refine absurd ?_ (free _ found isSibling).2
      rw [← short, same]
      exact method.relation.kind.className_mem

/-- An import of the short name of a target in the module itself is the one of that target. -/
theorem eq_modelClass_of_shortName
    {target : Target} (among : target ∈ descriptor.methodTargets)
    (isSibling : target.isSibling = true) {full : String}
    (member : full ∈ (descriptor.modelBlock config model).filterMap importedName?)
    (same : shortName full = target.name) :
    target.name ≠ model ∧ full = config.modelClass descriptor.module target.name := by
  obtain ⟨apart, kinds⟩ := free target among isSibling
  simp only [List.mem_cons, List.not_mem_nil, or_false, not_or] at apart
  cases legible.imports_of_mem clean member with
  | factory short => exact absurd (same.symm.trans short) apart.2.2
  | @returned kind _ short =>
      rw [← same, short] at kinds
      exact absurd kind.className_mem kinds
  | target _ _ other spelled short =>
      rw [short] at same
      rw [← same]
      exact ⟨other, spelled⟩

/-- The class of a target that is known is the one that the registry has found. -/
theorem resolve_reference {target : Target} (among : target ∈ descriptor.methodTargets)
    {full : String} (known : target.fullName? = some full) :
    (descriptor.modelFile config model).resolve target.reference = some full := by
  have isTarget := legible.relates.isTarget among
  rcases isTarget.reference_eq with ⟨own, found⟩ | ⟨found, knownToo, spelled⟩
  · have isSibling : target.isSibling = true := found.resolve_right (by simp [known])
    have spelled := isTarget.fullName?_of_isSibling legible.serves isSibling
    rw [known, ← legible.relates.module, Option.some.injEq] at spelled
    have nonempty := isTarget.name_ne_empty legible.holds isSibling
    have cleanTarget := isTarget.not_mem_name (c := '\\') (by decide)
    have fixed : target.name ∉ ["HasFactory", "Model"] := fun member =>
      (free target among isSibling).1 (List.mem_append_left [_] member)
    rw [own, spelled]
    by_cases same : target.name = model
    · -- The model does not import itself: its name stands for a class of its own namespace.
      have none : ∀ other ∈ (descriptor.modelFile config model).imports,
          shortName other ≠ target.name := by
        refine List.forall_mem_append.mpr ⟨shortName_ne_of_mem fixed, fun other member short => ?_⟩
        exact (legible.eq_modelClass_of_shortName clean free among isSibling member short).1 same
      exact (ClassFile.resolve_own nonempty cleanTarget none rfl).trans
        (congrArg some (config.namespaceOf_concat [descriptor.module, "Models"] _).symm)
    · exact ClassFile.resolve_imported nonempty cleanTarget rfl (shortName_ne_of_mem fixed)
        (Php.nodup_filterMap_importedName? (nodup_distinct _))
        ((legible.mem_block_iff clean).mpr (.inr (.inr ⟨target, among, isSibling, same, rfl⟩)))
        (config.shortName_modelClass _ cleanTarget) fun other member short =>
          (legible.eq_modelClass_of_shortName clean free among isSibling member short).2
  · rw [spelled, ClassFile.resolve_full, ← knownToo, known]

/-- Every method of a model is read back with the classes that were meant. -/
theorem isReadAs {method : RelationMethod} (among : method ∈ descriptor.methods) :
    method.IsReadAs (descriptor.modelFile config model) method.read := by
  obtain ⟨relation, -, spelled⟩ := legible.methods method among
  have references : method.read.references =
      method.target.toList.flatMap fun target => RelationArgument.references (.target target) := by
    rw [spelled]
    exact RelationMethod.references_ofRelation _ _ _
  refine ⟨rfl, legible.resolve_returnType clean free among, fun target given full known => ?_,
    fun none => ?_⟩
  · have found := legible.resolve_reference clean free
      (List.mem_filterMap.mpr ⟨method, among, given⟩) known
    have nonempty := (legible.relates.methods method among target given).reference_ne_empty
      legible.holds known
    rw [references, given]
    simp [RelationArgument.references, nonempty, found]
  · rw [references, none]
    rfl

end IsLegible

/-- The model of an entity is rendered alone from the built-in stub. -/
theorem files_model (builtin : config.UsesBuiltinStubs) (key : Option String)
    (names : Keyed String) (clean : Bool) (tree : Disk.Tree) :
    (descriptor.generate config (config.shelf clean tree) key [.model] names).files =
      .ok [{
        path := "Models/" ++ (Keyed.get? names "model").getD descriptor.entity ++ ".php"
        content := (descriptor.modelPlan config
          ((Keyed.get? names "model").getD descriptor.entity)).content
        entity := some descriptor.entity }] := by
  have isBuiltin : ∀ plan ∈ [descriptor.modelPlan config
      ((Keyed.get? names "model").getD descriptor.entity)], plan.IsBuiltin :=
    List.forall_mem_singleton.mpr rfl
  have files := @files_of_renderPlans _ (builtin.load_shelf clean tree) _ isBuiltin [] []
    (List.nodup_singleton _)
  have plans : descriptor.allPlans config key [.model] names =
      [descriptor.modelPlan config ((Keyed.get? names "model").getD descriptor.entity)].map .ok :=
    rfl
  rw [generate, plans, Rendering.output, files]
  rfl

end Descriptor

/--
A component that compiles with a registry of class names in the namespaces of the settings has a
model in which every method of a relation returns the class of its kind and refers to the class that
the registry has found for its target, unless a target in the module is named like another class of
the model.  The imports of the model are different, and each is one of these classes, the factory or
the remark about a target that is not known.
-/
theorem Component.model_references
    {config : Config} (builtin : config.UsesBuiltinStubs) {registry : Registry}
    (serves : registry.Serves config) (holds : registry.HoldsClassNames) {strict : Bool}
    {component : Component} {descriptor : Descriptor}
    (compiled : component.compile registry strict = .ok descriptor)
    (free : descriptor.HasFreeTargets) {names : Keyed String} (given : Descriptor.AreNamed names)
    (key : Option String) (clean : Bool) (tree : Disk.Tree) :
    ∃ file, (descriptor.generate config (config.shelf clean tree) key [.model] names).files =
        .ok [file] ∧
      List.Forall₂ (RelationMethod.IsReadAs (ClassFile.ofText file.content)) descriptor.methods
        (ClassFile.ofText file.content).methods ∧
      (modelImportLines file.content).Nodup ∧
      ∀ line ∈ modelImportLines file.content, descriptor.IsModelImport config line := by
  have legible := Descriptor.isLegible_of_compile serves holds compiled
  obtain ⟨model, named⟩ : ∃ model, Text.nameOr
      (some ((Keyed.get? names "model").getD descriptor.entity)) descriptor.entity = model :=
    ⟨_, rfl⟩
  have alphanum : ∀ c ∈ model.toList, c.isAlphanum = true := by
    rw [← named, Descriptor.nameOr_getD]
    exact given.nameOr "model" legible.entity
  have outside {mark : Char} (other : mark.isAlphanum = false) : mark ∉ model.toList := by
    intro within
    rw [alphanum mark within] at other
    cases other
  have plain := legible.hasPlainModel alphanum
  have read := Descriptor.ofText_modelPlan (named.symm ▸ plain)
  have lines := Descriptor.modelImportLines_content named
    (not_mem_of_isWordPart plain.qualifier (by decide))
    fun line member => legible.isBlockLine (Descriptor.isModelImport_of_mem member)
  refine ⟨_, descriptor.files_model builtin key names clean tree, ?_, ?_, ?_⟩
  · rw [read, named]
    refine List.forall₂_map_right_iff.mpr (List.forall₂_same.mpr fun method member => ?_)
    exact legible.isReadAs (outside (by decide)) free member
  · rw [lines]
    exact nodup_distinct _
  · rw [lines]
    exact fun line member => Descriptor.isModelImport_of_mem member

theorem holdsClassNames_blogOfComments :
    (blogOfComments.register blogRegistry).HoldsClassNames where
  siblings := by decide +kernel
  neighbours := by decide +kernel
  application := by decide +kernel
  moduleNamespace := List.all_eq_true.mp (by decide +kernel)
  applicationNamespace := List.all_eq_true.mp (by decide +kernel)

/-- The model of a comment refers to the class of posts in its module. -/
theorem Component.model_references_comment :
    ∃ descriptor file,
      commentOnPost.compile (blogOfComments.register blogRegistry) true = .ok descriptor ∧
      (descriptor.generate {} (Config.shelf {} false {}) none [.model] []).files = .ok [file] ∧
      List.Forall₂ (RelationMethod.IsReadAs (ClassFile.ofText file.content)) descriptor.methods
        (ClassFile.ofText file.content).methods ∧
      descriptor.methods.map (fun method => method.target.bind (·.fullName?)) =
        [some "Modules\\Blog\\Models\\Post"] := by
  have evaluated : (commentOnPost.compile (blogOfComments.register blogRegistry) true).toOption.map
      (fun descriptor => decide (descriptor.HasFreeTargets) &&
        descriptor.methods.map (fun method => method.target.bind (·.fullName?)) ==
          [some "Modules\\Blog\\Models\\Post"]) = some true := by
    decide +kernel
  have builtin : ({} : Config).UsesBuiltinStubs := by decide
  have given : Descriptor.AreNamed [] := nofun
  cases compiled : commentOnPost.compile (blogOfComments.register blogRegistry) true with
  | error error =>
      rw [compiled] at evaluated
      cases evaluated
  | ok descriptor =>
      rw [compiled] at evaluated
      have checked := Option.some.inj evaluated
      rw [Bool.and_eq_true, decide_eq_true_eq, beq_iff_eq] at checked
      have serves := serves_blogRegistry.register blogOfComments
      obtain ⟨file, generated, methods, -⟩ := model_references builtin serves
        holdsClassNames_blogOfComments compiled checked.1 given none false {}
      exact ⟨descriptor, file, rfl, generated, methods, checked.2⟩

end Scaffold
