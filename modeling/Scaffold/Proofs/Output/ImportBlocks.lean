import Scaffold.Proofs.Ledger.Saving
import Scaffold.Proofs.Output.EntityImports

/-!
# Blocks of imports

The block of a factory imports the known targets of its foreign keys.  The block of a model imports
its factory, the siblings that its relations lead to and the classes of these relations.  Neither
imports the model itself.  The names in a block are different, but two of them, or one and a name
above the block, may have the same last segment.
-/

namespace Scaffold

open Scaffold.Php (NamesApart declaredName? folderName? importLine importedName? shortName)

/-! ## Full names in a block -/

namespace Config

variable (config : Config)

theorem namespaceOf_concat (parts : List String) (name : String) :
    config.namespaceOf (parts ++ [name]) = config.namespaceOf parts ++ "\\" ++ name := by
  rw [namespaceOf, ← List.cons_append, String.intercalate_append_of_ne_nil (List.cons_ne_nil _ _)
    (List.cons_ne_nil _ _), String.intercalate_singleton, ← namespaceOf]

theorem namespaceOf_append_pair (parts : List String) (folder name : String) :
    config.namespaceOf (parts ++ [folder, name]) =
      config.namespaceOf parts ++ "\\" ++ folder ++ "\\" ++ name := by
  rw [← List.singleton_append, ← List.append_assoc, namespaceOf_concat, namespaceOf_concat]

/-- The full name of the factory of an entity. -/
def factoryClass (module entity : String) : String :=
  config.namespaceOf [module, "Database", "Factories", entity ++ "Factory"]

theorem shortName_modelClass (module : String) {entity : String} (clean : '\\' ∉ entity.toList) :
    shortName (config.modelClass module entity) = entity := by
  rw [modelClass, ← List.singleton_append, namespaceOf_append_pair]
  exact Php.shortName_append clean _

theorem folderName?_modelClass {module entity : String} (clean : '\\' ∉ entity.toList) :
    folderName? (config.modelClass module entity) = some "Models" := by
  rw [modelClass, ← List.singleton_append, namespaceOf_append_pair]
  exact Php.folderName?_append (by decide) clean _

theorem factoryClass_eq (module entity : String) :
    config.factoryClass module entity =
      config.namespaceOf [module, "Database"] ++ "\\" ++ "Factories" ++ "\\" ++
        (entity ++ "Factory") :=
  config.namespaceOf_append_pair [module, "Database"] "Factories" (entity ++ "Factory")

theorem shortName_factoryClass (module : String) {entity : String} (clean : '\\' ∉ entity.toList) :
    shortName (config.factoryClass module entity) = entity ++ "Factory" := by
  rw [factoryClass_eq]
  exact Php.shortName_append (by simp [clean]) _

theorem folderName?_factoryClass {module entity : String} (clean : '\\' ∉ entity.toList) :
    folderName? (config.factoryClass module entity) = some "Factories" := by
  rw [factoryClass_eq]
  exact Php.folderName?_append (by decide) (by simp [clean]) _

end Config

/-- The full name of the class of a relation. -/
def RelationKind.fullName (kind : RelationKind) : String :=
  "Illuminate\\Database\\Eloquent" ++ "\\" ++ "Relations" ++ "\\" ++ kind.className

theorem RelationKind.fullName_spec (kind : RelationKind) :
    shortName kind.fullName = kind.className ∧ folderName? kind.fullName = some "Relations" ∧
      '\n' ∉ kind.fullName.toList := by
  have clean : '\\' ∉ kind.className.toList ∧ '\n' ∉ kind.className.toList := by
    cases kind <;> decide
  refine ⟨Php.shortName_append clean.1 _, Php.folderName?_append (by decide) clean.1 _, ?_⟩
  unfold fullName
  simp [clean.2]

/-- A name with an ending is none of the texts without it. -/
theorem append_not_mem {ending : String} {texts : List String}
    (other : ∀ text ∈ texts, ¬ ending.toList <:+ text.toList) (name : String) :
    name ++ ending ∉ texts := by
  intro member
  refine other _ member ?_
  rw [String.toList_append]
  exact List.suffix_append _ _

/-- The class of a relation has none of the other names in a model. -/
theorem RelationKind.className_apart (kind : RelationKind) :
    kind.className ∉ ["HasFactory", "Model"] ∧ ∀ name, name ++ "Factory" ≠ kind.className := by
  have endings : ∀ text ∈ [kind.className], ¬ "Factory".toList <:+ text.toList := by
    cases kind <;> decide
  exact ⟨by cases kind <;> decide, fun name same =>
    append_not_mem endings name (List.mem_singleton.mpr same)⟩

theorem RelationMethod.returnImport_eq (method : RelationMethod) :
    method.returnImport = importLine method.relation.kind.fullName := by
  have start : "use Illuminate\\Database\\Eloquent\\Relations\\" =
      "use " ++ "Illuminate\\Database\\Eloquent" ++ "\\" ++ "Relations" ++ "\\" := by simp
  unfold returnImport importLine RelationKind.fullName returnType
  rw [start]
  simp only [String.append_assoc]

/-! ## Targets -/

namespace Registry.IsTarget

variable {registry : Registry} {target : Target} {config : Config}

/-- A target in the module itself is a model of the module. -/
theorem fullName?_of_isSibling (isTarget : registry.IsTarget target)
    (serves : registry.Serves config) (isSibling : target.isSibling = true) :
    target.fullName? = some (config.modelClass registry.module target.name) := by
  have within : registry.namespaceOf "" = config.namespaceOf [registry.module] := by
    rw [namespaceOf, serves.moduleNamespace]
    simp [Config.namespaceOf, String.intercalate_cons_of_ne_nil]
  have mark : "\\Models" = "\\" ++ "Models" := by decide
  cases isTarget.located with
  | @sibling entity =>
      change some (registry.modelName entity "") = _
      rw [modelName_eq, mark, ← String.append_assoc, Config.modelClass, ← List.singleton_append,
        Config.namespaceOf_append_pair, ← within]
  | neighbour | application | unknown => cases isSibling

/-- A target of the name of a sibling is that sibling. -/
theorem isSibling_of_mem (isTarget : registry.IsTarget target)
    (known : target.name ∈ registry.siblings) : target.isSibling = true := by
  cases isTarget.located with
  | sibling => rfl
  | neighbour unknown | application unknown | unknown unknown => exact absurd known unknown

/-- The full name of a target is that of a model when the target has its name. -/
theorem fullName_eq_modelClass_iff (isTarget : registry.IsTarget target)
    (serves : registry.Serves config) {full : String} (known : target.fullName? = some full)
    {entity : String} (clean : '\\' ∉ entity.toList)
    (sibling : target.name = entity → target.isSibling = true) :
    full = config.modelClass registry.module entity ↔ target.name = entity := by
  constructor
  · rintro rfl
    rw [← isTarget.shortName_fullName known]
    exact config.shortName_modelClass _ clean
  · intro same
    have found := isTarget.fullName?_of_isSibling serves (sibling same)
    rw [known, same] at found
    exact Option.some.inj found

end Registry.IsTarget

namespace Descriptor

variable {config : Config} {registry : Registry} {descriptor : Descriptor} {names : Keyed String}

/-- The targets of the foreign keys that a factory fills. -/
def factoryTargets (descriptor : Descriptor) : List Target :=
  descriptor.factory.filterMap (·.2.target?)

/-- The names that a model uses for other classes than those of entities. -/
def takenInModel (descriptor : Descriptor) : List String :=
  ["HasFactory", "Model", descriptor.entity ++ "Factory"] ++ descriptor.methods.map (·.returnType)

/-- The targets of relation methods. -/
def methodTargets (descriptor : Descriptor) : List Target :=
  descriptor.methods.filterMap (·.target)

theorem mem_factoryImports_iff {line : String} :
    line ∈ descriptor.factoryImports ↔
      ∃ target ∈ descriptor.factoryTargets, target.importLine = line := by
  simp only [factoryImports, mem_distinct, List.mem_flatMap, FactoryExpression.imports,
    List.mem_map, Option.mem_toList, factoryTargets, List.mem_filterMap]
  constructor
  · rintro ⟨entry, member, target, given, same⟩
    exact ⟨target, ⟨entry, member, given⟩, same⟩
  · rintro ⟨target, ⟨entry, member, given⟩, same⟩
    exact ⟨entry, member, target, given, same⟩

theorem mem_modelImports_iff {line : String} :
    line ∈ descriptor.modelImports ↔
      (∃ method ∈ descriptor.methods, importLine method.relation.kind.fullName = line) ∨
        ∃ target ∈ descriptor.methodTargets, (target.isSibling = true ∨ target.isResolved = false) ∧
          target.importLine = line := by
  have imports (method : RelationMethod) : line ∈ method.imports ↔
      importLine method.relation.kind.fullName = line ∨
        ∃ target, method.target = some target ∧
          (target.isSibling = true ∨ target.isResolved = false) ∧ target.importLine = line := by
    rw [RelationMethod.imports, method.returnImport_eq, List.mem_append, List.mem_singleton,
      or_comm, eq_comm]
    refine or_congr_right ?_
    cases method.target with
    | none => simp
    | some target =>
        have needed : (target.isSibling || !target.isResolved) = true ↔
            target.isSibling = true ∨ target.isResolved = false := by simp
        simp only [Option.some.injEq, exists_eq_left', ← needed]
        split_ifs with needs
        · simp [needs, eq_comm]
        · simp [needs]
  simp only [modelImports, relationImports, mem_distinct, List.mem_flatMap, imports, methodTargets,
    List.mem_filterMap]
  constructor
  · rintro ⟨method, member, returned | ⟨target, given, needed⟩⟩
    · exact .inl ⟨method, member, returned⟩
    · exact .inr ⟨target, ⟨method, member, given⟩, needed⟩
  · rintro (⟨method, member, returned⟩ | ⟨target, ⟨method, member, given⟩, needed⟩)
    · exact ⟨method, member, .inl returned⟩
    · exact ⟨method, member, .inr ⟨target, given, needed⟩⟩

theorem mem_modelBlock_iff {name line : String} :
    line ∈ descriptor.modelBlock config name ↔
      line = importLine (config.factoryClass descriptor.module descriptor.entity) ∨
        line ∈ descriptor.modelImports ∧
          line ≠ importLine (config.modelClass descriptor.module name) := by
  rw [modelBlock, mem_distinct, List.mem_cons, List.mem_filter, bne_iff_ne]
  exact Iff.rfl

/-- The targets of the methods are targets of the registry. -/
theorem RelatesIn.isTarget (relates : descriptor.RelatesIn registry) {target : Target}
    (member : target ∈ descriptor.methodTargets) : registry.IsTarget target := by
  obtain ⟨method, among, given⟩ := List.mem_filterMap.mp member
  exact relates.methods method among target given

/-- A model imports its factory, the classes of its relations and siblings of other names. -/
theorem RelatesIn.mem_modelNames_iff
    (relates : descriptor.RelatesIn registry) (serves : registry.Serves config)
    (plain : config.HasPlainNamespaces) {name : String} (clean : '\\' ∉ name.toList) {full : String} :
    full ∈ (descriptor.modelBlock config name).filterMap importedName? ↔
      full = config.factoryClass descriptor.module descriptor.entity ∨
        (∃ method ∈ descriptor.methods, full = method.relation.kind.fullName) ∨
          ∃ target ∈ descriptor.methodTargets, target.isSibling = true ∧ target.name ≠ name ∧
            full = config.modelClass descriptor.module target.name := by
  have lines : full ∈ (descriptor.modelBlock config name).filterMap importedName? ↔
      importLine full ∈ descriptor.modelBlock config name := by
    rw [List.mem_filterMap]
    constructor
    · rintro ⟨line, member, imported⟩
      rwa [← Php.eq_importLine imported]
    · exact fun member => ⟨_, member, Php.importedName?_importLine full⟩
  have relation (kind : RelationKind) :
      kind.fullName ≠ config.modelClass descriptor.module name := by
    intro same
    have folders := congrArg folderName? same
    rw [kind.fullName_spec.2.1, config.folderName?_modelClass clean] at folders
    exact absurd (Option.some.inj folders) (by decide)
  have known {target : Target} (among : target ∈ descriptor.methodTargets)
      (isSibling : target.isSibling = true) :
      target.importLine = importLine (config.modelClass descriptor.module target.name) := by
    have isTarget := relates.isTarget among
    refine Php.eq_importLine ((isTarget.read_importLine serves plain).1.trans ?_)
    rw [relates.module]
    exact isTarget.fullName?_of_isSibling serves isSibling
  rw [lines, mem_modelBlock_iff, mem_modelImports_iff, Php.importLine_injective.eq_iff,
    Php.importLine_injective.ne_iff]
  refine or_congr_right ⟨?_, ?_⟩
  · rintro ⟨⟨method, member, same⟩ | ⟨target, among, needed, same⟩, apart⟩
    · exact .inl ⟨method, member, (Php.importLine_injective same).symm⟩
    · have isTarget := relates.isTarget among
      have found : target.fullName? = some full := by
        rw [← (isTarget.read_importLine serves plain).1, same,
          Php.importedName?_importLine]
      have isSibling : target.isSibling = true := by
        refine needed.resolve_right fun unresolved => ?_
        rw [Target.isResolved, found] at unresolved
        cases unresolved
      refine .inr ⟨target, among, isSibling, ?_, ?_⟩
      · rintro rfl
        rw [known among isSibling] at same
        exact apart (Php.importLine_injective same).symm
      · rw [known among isSibling] at same
        exact (Php.importLine_injective same).symm
  · rintro (⟨method, member, rfl⟩ | ⟨target, among, isSibling, apart, rfl⟩)
    · exact ⟨.inl ⟨method, member, rfl⟩, relation _⟩
    · refine ⟨.inr ⟨target, among, .inl isSibling, known among isSibling⟩, fun same => apart ?_⟩
      have isTarget := relates.isTarget among
      have cleanTarget := isTarget.not_mem_name (c := '\\') (by decide)
      have shorts := congrArg shortName same
      rwa [config.shortName_modelClass _ cleanTarget, config.shortName_modelClass _ clean] at shorts

namespace Suits

variable (suits : descriptor.Suits config registry names)
include suits

theorem isTarget_of_factory {target : Target} (member : target ∈ descriptor.factoryTargets) :
    registry.IsTarget target := by
  obtain ⟨entry, among, given⟩ := List.mem_filterMap.mp member
  exact suits.compiled.factory entry among target given

theorem isTarget_of_method {target : Target} (member : target ∈ descriptor.methodTargets) :
    registry.IsTarget target :=
  suits.compiled.relatesIn.isTarget member

theorem clean_entity : '\\' ∉ descriptor.entity.toList :=
  not_mem_of_alphanum suits.entity (by decide)

theorem entity_ne_empty : descriptor.entity ≠ "" := by
  intro empty
  have named := suits.compiled.entity
  rw [empty] at named
  exact absurd named (by decide)

/-! ## The block of a factory -/

theorem clean_factoryBlock :
    ∀ line ∈ descriptor.factoryBlock config, '\n' ∉ line.toList ∧ declaredName? line = none := by
  intro line member
  obtain ⟨target, among, rfl⟩ := mem_factoryImports_iff.mp (List.mem_of_mem_filter member)
  obtain ⟨-, undeclared, within⟩ :=
    (suits.isTarget_of_factory among).read_importLine suits.serves suits.plain
  exact ⟨within, undeclared⟩

/-- A factory imports the known targets of other names than its own entity. -/
theorem mem_factoryNames_iff {name : String} :
    name ∈ (descriptor.factoryBlock config).filterMap importedName? ↔
      ∃ target ∈ descriptor.factoryTargets, target.fullName? = some name ∧
        target.name ≠ descriptor.entity := by
  have other {target : Target} (among : target ∈ descriptor.factoryTargets)
      (known : target.fullName? = some name) :
      name ≠ config.modelClass descriptor.module descriptor.entity ↔
        target.name ≠ descriptor.entity := by
    have isTarget := suits.isTarget_of_factory among
    rw [suits.compiled.module]
    exact not_congr (isTarget.fullName_eq_modelClass_iff suits.serves known suits.clean_entity
      fun same => isTarget.isSibling_of_mem (same ▸ suits.compiled.known))
  have read {target : Target} (among : target ∈ descriptor.factoryTargets) :=
    ((suits.isTarget_of_factory among).read_importLine suits.serves suits.plain).1
  simp only [List.mem_filterMap, factoryBlock, List.mem_filter, bne_iff_ne]
  constructor
  · rintro ⟨line, ⟨member, apart⟩, imported⟩
    obtain ⟨target, among, rfl⟩ := mem_factoryImports_iff.mp member
    have known := (read among).symm.trans imported
    rw [Php.eq_importLine imported, Php.importLine_injective.ne_iff] at apart
    exact ⟨target, among, known, (other among known).mp apart⟩
  · rintro ⟨target, among, known, apart⟩
    have imported := (read among).trans known
    refine ⟨target.importLine, ⟨mem_factoryImports_iff.mpr ⟨target, among, rfl⟩, ?_⟩, imported⟩
    rw [Php.eq_importLine imported, Php.importLine_injective.ne_iff]
    exact (other among known).mpr apart

/-- A factory stays apart from what it imports unless its entity or a target has a name it uses. -/
theorem namesApart_factory :
    NamesApart (["Factory", descriptor.entity] ++
        ((descriptor.factoryBlock config).filterMap importedName?).map shortName)
        (descriptor.entity ++ "Factory") ↔
      descriptor.entity ≠ "Factory" ∧
        ∀ target ∈ descriptor.factoryTargets, target.isResolved = true →
          target.name ≠ descriptor.entity →
            target.name ≠ "Factory" ∧ target.name ≠ descriptor.entity ++ "Factory" := by
  have nodup : ((descriptor.factoryBlock config).filterMap importedName?).Nodup :=
    Php.nodup_filterMap_importedName? ((nodup_distinct _).filter _)
  have short {target : Target} (among : target ∈ descriptor.factoryTargets) {name : String}
      (known : target.fullName? = some name) : shortName name = target.name :=
    (suits.isTarget_of_factory among).shortName_fullName known
  have injective : ∀ name ∈ (descriptor.factoryBlock config).filterMap importedName?,
      ∀ other ∈ (descriptor.factoryBlock config).filterMap importedName?,
        shortName name = shortName other → name = other := by
    intro name member other memberToo same
    obtain ⟨target, among, known, -⟩ := suits.mem_factoryNames_iff.mp member
    obtain ⟨second, amongToo, knownToo, -⟩ := suits.mem_factoryNames_iff.mp memberToo
    rw [short among known, short amongToo knownToo] at same
    obtain rfl := (suits.isTarget_of_factory among).eq_of_name
      (suits.isTarget_of_factory amongToo) same
    exact Option.some.inj (known.symm.trans knownToo)
  rw [Php.namesApart_append_iff nodup, and_iff_left injective]
  refine and_congr ?_ ⟨fun fresh target among resolved apart => ?_, fun fresh name member => ?_⟩
  · rw [ne_comm]
    simp [Php.namesApart_cons_iff, Php.namesApart_nil, suits.entity_ne_empty]
  · obtain ⟨name, known⟩ := Option.isSome_iff_exists.mp resolved
    have free := fresh name (suits.mem_factoryNames_iff.mpr ⟨target, among, known, apart⟩)
    rw [short among known] at free
    exact ⟨fun same => free.1 (by simp [same]), free.2⟩
  · obtain ⟨target, among, known, apart⟩ := suits.mem_factoryNames_iff.mp member
    have free := fresh target among (Option.isSome_iff_exists.mpr ⟨name, known⟩) apart
    rw [short among known]
    exact ⟨by simp [free.1, apart], free.2⟩

/-! ## The block of a model -/

theorem clean_modelBlock (name : String) :
    ∀ line ∈ descriptor.modelBlock config name, '\n' ∉ line.toList ∧ declaredName? line = none := by
  have imports {full : String} (within : '\n' ∉ full.toList) :
      '\n' ∉ (importLine full).toList ∧ declaredName? (importLine full) = none :=
    ⟨by simp [importLine, within], Php.declaredName?_importLine full⟩
  intro line member
  rcases mem_modelBlock_iff.mp member with rfl | ⟨imported, -⟩
  · have named := suits.classNamed ["Database", "Factories"] (by decide)
      (suits.entity_append "Factory" (by decide))
    exact imports (named.not_mem suits.plain)
  · rcases mem_modelImports_iff.mp imported with ⟨method, -, rfl⟩ | ⟨target, among, -, rfl⟩
    · exact imports method.relation.kind.fullName_spec.2.2
    · obtain ⟨-, undeclared, within⟩ :=
        (suits.isTarget_of_method among).read_importLine suits.serves suits.plain
      exact ⟨within, undeclared⟩

/-- The name of the factory or of a class of a relation. -/
def IsFixed (config : Config) (descriptor : Descriptor) (full : String) : Prop :=
  full = config.factoryClass descriptor.module descriptor.entity ∨
    ∃ method ∈ descriptor.methods, full = method.relation.kind.fullName

theorem shortName_factoryClass :
    shortName (config.factoryClass descriptor.module descriptor.entity) =
      descriptor.entity ++ "Factory" :=
  config.shortName_factoryClass _ suits.clean_entity

theorem mem_takenInModel_iff {short : String} :
    short ∈ descriptor.takenInModel ↔
      short ∈ ["HasFactory", "Model"] ∨ ∃ full, IsFixed config descriptor full ∧
        shortName full = short := by
  simp only [takenInModel, List.mem_append, List.mem_cons, List.not_mem_nil, or_false, List.mem_map,
    or_assoc, IsFixed, or_and_right, exists_or, exists_eq_left, suits.shortName_factoryClass]
  refine or_congr_right (or_congr_right (or_congr eq_comm ⟨?_, ?_⟩))
  · rintro ⟨method, member, rfl⟩
    exact ⟨_, ⟨method, member, rfl⟩, method.relation.kind.fullName_spec.1⟩
  · rintro ⟨_, ⟨method, member, rfl⟩, rfl⟩
    exact ⟨method, member, method.relation.kind.fullName_spec.1.symm⟩

theorem ne_modelClass_of_isFixed {full : String} (fixed : IsFixed config descriptor full)
    {name : String} (clean : '\\' ∉ name.toList) :
    full ≠ config.modelClass descriptor.module name := by
  intro same
  have folders := congrArg folderName? same
  rw [config.folderName?_modelClass clean] at folders
  rcases fixed with rfl | ⟨method, -, rfl⟩
  · rw [config.folderName?_factoryClass suits.clean_entity] at folders
    exact absurd (Option.some.inj folders) (by decide)
  · rw [method.relation.kind.fullName_spec.2.1] at folders
    exact absurd (Option.some.inj folders) (by decide)

theorem eq_of_isFixed {full other : String} (fixed : IsFixed config descriptor full)
    (fixedToo : IsFixed config descriptor other) (same : shortName full = shortName other) :
    full = other := by
  rcases fixed with rfl | ⟨method, -, rfl⟩ <;> rcases fixedToo with rfl | ⟨second, -, rfl⟩
  · rfl
  · rw [suits.shortName_factoryClass, second.relation.kind.fullName_spec.1] at same
    exact absurd same (second.relation.kind.className_apart.2 _)
  · rw [suits.shortName_factoryClass, method.relation.kind.fullName_spec.1] at same
    exact absurd same.symm (method.relation.kind.className_apart.2 _)
  · rw [method.relation.kind.fullName_spec.1, second.relation.kind.fullName_spec.1] at same
    unfold RelationKind.fullName
    rw [same]

theorem isFixed_apart_iff :
    (∀ full, IsFixed config descriptor full → shortName full ∉ ["HasFactory", "Model"]) ↔
      descriptor.entity ≠ "Has" := by
  have factory : descriptor.entity ++ "Factory" ∈ ["HasFactory", "Model"] ↔
      descriptor.entity = "Has" := by
    have joined : "HasFactory" = "Has" ++ "Factory" := by decide
    have other : descriptor.entity ++ "Factory" ∉ ["Model"] := append_not_mem (by decide) _
    rw [List.mem_cons, or_iff_left other, joined, String.append_left_inj]
  constructor
  · intro fresh has
    exact fresh _ (.inl rfl) (by rw [suits.shortName_factoryClass]; exact factory.mpr has)
  · rintro other full (rfl | ⟨method, -, rfl⟩)
    · rw [suits.shortName_factoryClass]
      exact fun among => other (factory.mp among)
    · rw [method.relation.kind.fullName_spec.1]
      exact method.relation.kind.className_apart.1

/-- A model stays apart from what it imports unless one of its names is taken by another class. -/
theorem namesApart_model {name : String} (clean : '\\' ∉ name.toList) :
    NamesApart (["HasFactory", "Model"] ++
        ((descriptor.modelBlock config name).filterMap importedName?).map shortName) name ↔
      descriptor.entity ≠ "Has" ∧ name ∉ descriptor.takenInModel ∧
        ∀ target ∈ descriptor.methodTargets, target.isSibling = true → target.name ≠ name →
          target.name ∉ descriptor.takenInModel := by
  have nodup : ((descriptor.modelBlock config name).filterMap importedName?).Nodup :=
    Php.nodup_filterMap_importedName? (nodup_distinct _)
  have members {full : String} :
      full ∈ (descriptor.modelBlock config name).filterMap importedName? ↔
        IsFixed config descriptor full ∨ ∃ target ∈ descriptor.methodTargets,
          target.isSibling = true ∧ target.name ≠ name ∧
            full = config.modelClass descriptor.module target.name := by
    rw [suits.compiled.relatesIn.mem_modelNames_iff suits.serves suits.plain clean, IsFixed,
      or_assoc]
  have cleanTarget {target : Target} (among : target ∈ descriptor.methodTargets) :
      '\\' ∉ target.name.toList :=
    (suits.isTarget_of_method among).not_mem_name (by decide)
  have fixedPair : NamesApart ["HasFactory", "Model"] name ↔ name ∉ ["HasFactory", "Model"] := by
    simp [Php.namesApart_cons_iff, Php.namesApart_nil]
  rw [Php.namesApart_append_iff nodup, ← suits.isFixed_apart_iff, fixedPair]
  simp only [suits.mem_takenInModel_iff, not_or, not_exists, not_and]
  constructor
  · rintro ⟨own, fresh, injective⟩
    refine ⟨fun full fixed => (fresh full (members.mpr (.inl fixed))).1,
      ⟨own, fun full fixed => (fresh full (members.mpr (.inl fixed))).2⟩,
      fun target among isSibling other => ?_⟩
    have member := members.mpr (.inr ⟨target, among, isSibling, other, rfl⟩)
    have short := config.shortName_modelClass descriptor.module (cleanTarget among)
    refine ⟨short ▸ (fresh _ member).1, fun full fixed same => ?_⟩
    exact suits.ne_modelClass_of_isFixed fixed (cleanTarget among)
      (injective _ (members.mpr (.inl fixed)) _ member (same.trans short.symm))
  · rintro ⟨apart, ⟨own, ownFixed⟩, free⟩
    refine ⟨own, fun full member => ?_, fun full member other memberToo same => ?_⟩
    · rcases members.mp member with fixed | ⟨target, among, isSibling, different, rfl⟩
      · exact ⟨apart full fixed, ownFixed full fixed⟩
      · rw [config.shortName_modelClass _ (cleanTarget among)]
        exact ⟨(free target among isSibling different).1, different⟩
    · rcases members.mp member with fixed | ⟨target, among, isSibling, different, rfl⟩ <;>
        rcases members.mp memberToo with
          fixedToo | ⟨second, amongToo, isSiblingToo, differentToo, rfl⟩
      · exact suits.eq_of_isFixed fixed fixedToo same
      · rw [config.shortName_modelClass _ (cleanTarget amongToo)] at same
        exact absurd same ((free second amongToo isSiblingToo differentToo).2 full fixed)
      · rw [config.shortName_modelClass _ (cleanTarget among)] at same
        exact absurd same.symm ((free target among isSibling different).2 other fixedToo)
      · rw [config.shortName_modelClass _ (cleanTarget among),
          config.shortName_modelClass _ (cleanTarget amongToo)] at same
        rw [same]

end Suits

end Descriptor

end Scaffold
