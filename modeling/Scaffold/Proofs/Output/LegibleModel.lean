import Scaffold.Proofs.Output.ModelFile

/-!
# Models that can be read

The names in the model of a compiled component can stand in code: those of the component are made of
letters and digits, and so are those of its targets when the registry holds names of classes.  The
block of imports is found in the file of the model line by line.
-/

namespace Scaffold

open Scaffold.Php (Spells importLine importTokens importedName? isWordPart)

/-! ## Names of a registry -/

/--
The entities that a registry knows have names of classes, and its namespaces are made of the
characters of names and backslashes.
-/
structure Registry.HoldsClassNames (registry : Registry) : Prop where
  siblings : ∀ entity ∈ registry.siblings, isClassName entity = true
  neighbours : ∀ pair ∈ registry.neighbours, ∀ entity ∈ pair.2, isClassName entity = true
  application : ∀ entity ∈ registry.application, isClassName entity = true
  moduleNamespace : ∀ c ∈ registry.moduleNamespace.toList, isWordPart c = true
  applicationNamespace : ∀ c ∈ registry.applicationNamespace.toList, isWordPart c = true

theorem isWordPart_of_isAlphanum {c : Char} (alphanum : c.isAlphanum = true) :
    isWordPart c = true := by
  simp [isWordPart, Php.isNamePart, alphanum]

theorem not_mem_of_isWordPart {text : String} (parts : ∀ c ∈ text.toList, isWordPart c = true)
    {mark : Char} (isMark : isWordPart mark = false) : mark ∉ text.toList := by
  intro within
  rw [parts mark within] at isMark
  cases isMark

/-- A target outside the module is named by its full name, and every other one by its own. -/
theorem Registry.IsTarget.reference_eq
    {registry : Registry} {target : Target} (isTarget : registry.IsTarget target) :
    (target.reference = target.name ∧ (target.isSibling = true ∨ target.fullName? = none)) ∨
      ∃ full, target.fullName? = some full ∧ target.reference = "\\" ++ full := by
  cases isTarget.located with
  | sibling => exact .inl ⟨rfl, .inl rfl⟩
  | unknown => exact .inl ⟨rfl, .inr rfl⟩
  | neighbour | application => exact .inr ⟨_, rfl, rfl⟩

namespace Registry.HoldsClassNames

variable {config : Config} {registry : Registry} (holds : registry.HoldsClassNames)
  (serves : registry.Serves config)
include holds serves

theorem hasPlainNamespaces : config.HasPlainNamespaces where
  modules := not_mem_of_isWordPart (serves.moduleNamespace ▸ holds.moduleNamespace) (by decide)
  application :=
    not_mem_of_isWordPart (serves.applicationNamespace ▸ holds.applicationNamespace) (by decide)

/-- A namespace of words below the namespace of all modules is a word. -/
theorem isWordPart_namespaceOf {parts : List String}
    (words : ∀ part ∈ parts, ∀ c ∈ part.toList, isWordPart c = true) :
    ∀ c ∈ (config.namespaceOf parts).toList, isWordPart c = true := by
  intro c within
  rw [Config.namespaceOf, String.toList_intercalate] at within
  rcases Text.mem_of_mem_intercalate within with rfl | ⟨characters, member, inside⟩
  · decide
  · obtain ⟨part, among, rfl⟩ := List.mem_map.mp member
    rcases List.mem_cons.mp among with rfl | below
    · exact (serves.moduleNamespace ▸ holds.moduleNamespace) c inside
    · exact words part below c inside

variable {target : Target} (isTarget : registry.IsTarget target)
include isTarget

theorem isWordPart_fullName {full : String} (known : target.fullName? = some full) :
    ∀ c ∈ full.toList, isWordPart c = true :=
  isTarget.forall_mem_fullName serves (fun _ => isWordPart_of_isAlphanum) (by decide)
    (serves.moduleNamespace ▸ holds.moduleNamespace)
    (serves.applicationNamespace ▸ holds.applicationNamespace) known

theorem isWordPart_reference : ∀ c ∈ target.reference.toList, isWordPart c = true := by
  rcases isTarget.reference_eq with ⟨same, -⟩ | ⟨full, known, same⟩
  · rw [same]
    exact fun c within => isWordPart_of_isAlphanum (isTarget.alphanum c within)
  · rw [same, String.toList_append, List.forall_mem_append]
    exact ⟨by simp [isWordPart], holds.isWordPart_fullName serves isTarget known⟩

end Registry.HoldsClassNames

/-! ## The block of imports -/

/-- A line of a block of imports stays within its line and is read as what it imports. -/
structure IsBlockLine (line : String) : Prop where
  nonempty : line ≠ ""
  within : '\n' ∉ line.toList
  spells : Spells (line ++ "\n") ((importedName? line).elim [] importTokens)

theorem isBlockLine_importLine
    {full : String} (nonempty : full ≠ "") (parts : ∀ c ∈ full.toList, isWordPart c = true) :
    IsBlockLine (importLine full) := by
  have within : '\n' ∉ full.toList := not_mem_of_isWordPart parts (by decide)
  refine ⟨by simp [importLine], by simp [importLine, within], ?_⟩
  rw [Php.importedName?_importLine]
  exact Php.spells_importLine nonempty parts

theorem isBlockLine_remark
    {text : String} (within : '\n' ∉ ("//" ++ text).toList)
    (imports : importedName? ("//" ++ text) = none) : IsBlockLine ("//" ++ text) := by
  have inside : '\n' ∉ text.toList := fun member =>
    within (by rw [String.toList_append]; exact List.mem_append_right _ member)
  refine ⟨by simp, within, ?_⟩
  rw [imports]
  exact Php.spells_comment inside

/-- The lines in the file of a model behind the import of its base class, up to an empty one. -/
def modelImportLines (text : String) : List String :=
  let base := importLine "Illuminate\\Database\\Eloquent\\Model"
  (((Text.parts '\n' text).dropWhile (· ≠ base)).drop 1).takeWhile (· ≠ "")

namespace Descriptor

variable {config : Config} {registry : Registry} {name model : String} {descriptor : Descriptor}

/-- The lines of a model's file above its class. -/
def modelHeadLines (config : Config) (model : String) (descriptor : Descriptor) : List String :=
  ["<?php", "", "namespace " ++ config.namespaceOf [descriptor.module, "Models"] ++ ";", "",
    importLine "Illuminate\\Database\\Eloquent\\Factories\\HasFactory",
    importLine "Illuminate\\Database\\Eloquent\\Model"] ++
      (descriptor.modelBlock config model ++ [""])

theorem modelHead_eq_terminated (config : Config) (model : String) (descriptor : Descriptor) :
    descriptor.modelHead config model =
      Text.terminated (descriptor.modelHeadLines config model) ++
        ("class " ++ (model ++ " extends Model\n")) := by
  have start : "<?php\n\nnamespace " = "<?php" ++ ("\n" ++ ("" ++ ("\n" ++ "namespace "))) := rfl
  have fixed : ";\n\nuse Illuminate\\Database\\Eloquent\\Factories\\HasFactory;\n" ++
      "use Illuminate\\Database\\Eloquent\\Model;\n" = ";" ++ ("\n" ++ ("" ++ ("\n" ++
        (importLine "Illuminate\\Database\\Eloquent\\Factories\\HasFactory" ++ ("\n" ++
          (importLine "Illuminate\\Database\\Eloquent\\Model" ++ "\n")))))) := rfl
  have keyword : "\nclass " = "" ++ ("\n" ++ "class ") := rfl
  have block := Text.joinLines_append_lineEnd (modelBlock_ne_nil config model descriptor)
  unfold modelHead modelHeadLines
  rw [start, fixed, keyword, block]
  simp only [Text.terminated_append, Text.terminated, String.append_assoc, String.empty_append]

theorem modelImportLines_eq
    {text : String} {others : List String}
    (cut : Text.parts '\n' text = descriptor.modelHeadLines config model ++ others)
    (nonempty : ∀ line ∈ descriptor.modelBlock config model, line ≠ "") :
    modelImportLines text = descriptor.modelBlock config model := by
  have base : importLine "Illuminate\\Database\\Eloquent\\Model" ∉
      ["<?php", "", importLine "Illuminate\\Database\\Eloquent\\Factories\\HasFactory"] := by
    decide +kernel
  have qualifier (name : String) : "namespace " ++ name ++ ";" ≠
      importLine "Illuminate\\Database\\Eloquent\\Model" := by
    intro same
    have starts := congrArg (fun text => text.toList.head?) same
    simp [importLine, String.toList_append] at starts
  have within : ∀ line ∈ descriptor.modelBlock config model, decide (line ≠ "") = true :=
    fun line member => decide_eq_true (nonempty line member)
  simp only [List.mem_cons, List.not_mem_nil, or_false, not_or] at base
  rw [modelImportLines, cut, modelHeadLines]
  simp only [List.cons_append, List.nil_append, List.append_assoc, List.dropWhile_cons, ne_eq,
    Ne.symm base.1, Ne.symm base.2.1, Ne.symm base.2.2, qualifier, decide_true, not_false_eq_true,
    if_true, not_true_eq_false, decide_false, Bool.false_eq_true, if_false, List.drop_succ_cons,
    List.drop_zero]
  rw [List.takeWhile_append_of_pos within]
  simp

/-- The block of imports is found in the file of a model line by line. -/
theorem modelImportLines_content
    (named : Text.nameOr (some name) descriptor.entity = model)
    (qualifier : '\n' ∉ (config.namespaceOf [descriptor.module, "Models"]).toList)
    (block : ∀ line ∈ descriptor.modelBlock config model, IsBlockLine line) :
    modelImportLines (descriptor.modelPlan config name).content =
      descriptor.modelBlock config model := by
  have clean : ∀ line ∈ descriptor.modelHeadLines config model, '\n' ∉ line.toList := by
    have plain : ∀ line ∈ ["<?php", "", "namespace " ++
        config.namespaceOf [descriptor.module, "Models"] ++ ";", "",
        importLine "Illuminate\\Database\\Eloquent\\Factories\\HasFactory",
        importLine "Illuminate\\Database\\Eloquent\\Model"], '\n' ∉ line.toList := by
      simp only [List.forall_mem_cons]
      exact ⟨by decide, by decide, by simp [qualifier], by decide, by decide, by decide,
        List.forall_mem_nil _⟩
    refine List.forall_mem_append.mpr ⟨plain, List.forall_mem_append.mpr ⟨?_, by decide⟩⟩
    exact fun line member => (block line member).within
  have lines := Text.parts_terminated_append clean
    ("class " ++ (model ++ " extends Model\n") ++ descriptor.modelBody)
  rw [← String.append_assoc, ← modelHead_eq_terminated, ← named, ← content_modelPlan,
    named] at lines
  exact modelImportLines_eq lines fun line member => (block line member).nonempty

/-! ## A compiled model -/

/-- What the lines in the block of a model's imports are. -/
inductive IsModelImport (config : Config) (descriptor : Descriptor) : String → Prop
  /-- The factory of the entity. -/
  | factory : IsModelImport config descriptor
      (importLine (config.factoryClass descriptor.module descriptor.entity))
  /-- The class that the method of a relation returns. -/
  | returned {method : RelationMethod} (member : method ∈ descriptor.methods) :
      IsModelImport config descriptor (importLine method.relation.kind.fullName)
  /-- The class of a known target in the module itself. -/
  | target {target : Target} (member : target ∈ descriptor.methodTargets)
      (isSibling : target.isSibling = true) {full : String}
      (known : target.fullName? = some full) : IsModelImport config descriptor (importLine full)
  /-- The remark about a target that is not known. -/
  | remark {target : Target} (member : target ∈ descriptor.methodTargets)
      (unknown : target.isResolved = false) : IsModelImport config descriptor target.importLine

theorem isModelImport_of_mem {line : String} (member : line ∈ descriptor.modelBlock config model) :
    descriptor.IsModelImport config line := by
  rcases mem_modelBlock_iff.mp member with rfl | ⟨imported, -⟩
  · exact .factory
  · rcases mem_modelImports_iff.mp imported with ⟨method, among, rfl⟩ | ⟨target, among, needed, rfl⟩
    · exact .returned among
    · cases known : target.fullName? with
      | none => exact .remark among (by rw [Target.isResolved, known]; rfl)
      | some full =>
          have isSibling : target.isSibling = true := by
            refine needed.resolve_right fun unknown => ?_
            rw [Target.isResolved, known] at unknown
            cases unknown
          have line : target.importLine = importLine full := by
            rw [Target.importLine, known]
            rfl
          rw [line]
          exact .target among isSibling known

end Descriptor

theorem Config.namespaceOf_ne_empty (config : Config) (part : String) (parts : List String) :
    config.namespaceOf (part :: parts) ≠ "" := by
  rw [namespaceOf, String.intercalate_cons_cons]
  simp

namespace Descriptor

variable {config : Config} {registry : Registry} {name model : String} {descriptor : Descriptor}

/-- What is known of a descriptor whose model is read back. -/
structure IsLegible (config : Config) (registry : Registry) (descriptor : Descriptor) : Prop where
  serves : registry.Serves config
  holds : registry.HoldsClassNames
  relates : descriptor.RelatesIn registry
  entity : ∀ c ∈ descriptor.entity.toList, c.isAlphanum = true
  table : ∀ c ∈ descriptor.table.toList, c ≠ '\\' ∧ c ≠ '\''
  methods : ∀ method ∈ descriptor.methods, ∃ relation : Relation, relation.IsAccepted ∧
    method = RelationMethod.ofRelation (some descriptor.entity) registry relation

/-- A component is compiled into a descriptor whose model can be read. -/
theorem isLegible_of_compile
    (serves : registry.Serves config) (holds : registry.HoldsClassNames) {strict : Bool}
    {component : Component} (compiled : component.compile registry strict = .ok descriptor) :
    descriptor.IsLegible config registry := by
  obtain ⟨entity, table⟩ := component.compile_spec compiled
  obtain ⟨methods, accepted⟩ := component.relations_of_compile compiled
  refine ⟨serves, holds, component.relatesIn compiled, fun c within => ?_, fun c within => ?_,
    fun method member => ?_⟩
  · rw [entity] at within
    exact Text.isAlphanum_of_mem_studlyCase within
  · rw [table] at within
    have character := Text.isNameCharacter_of_mem_snakeCase within
    constructor <;> (rintro rfl; revert character; decide)
  · rw [methods] at member
    obtain ⟨relation, among, rfl⟩ := List.mem_map.mp member
    exact ⟨relation, accepted relation among, by rw [entity]⟩

namespace IsLegible

variable (legible : descriptor.IsLegible config registry)
include legible

theorem isWordPart_entity : ∀ c ∈ descriptor.entity.toList, isWordPart c = true :=
  fun c within => isWordPart_of_isAlphanum (legible.entity c within)

/-- A namespace of words in the module is a word. -/
theorem isWordPart_namespaceOf {parts : List String}
    (words : ∀ part ∈ parts, ∀ c ∈ part.toList, isWordPart c = true) :
    ∀ c ∈ (config.namespaceOf (descriptor.module :: parts)).toList, isWordPart c = true := by
  refine legible.holds.isWordPart_namespaceOf legible.serves
    (List.forall_mem_cons.mpr ⟨?_, words⟩)
  obtain ⟨given, spelled⟩ := legible.serves.module
  rw [legible.relates.module, spelled]
  exact fun c within => isWordPart_of_isAlphanum (Text.isAlphanum_of_mem_studlyCase within)

/-- What stands in the block of a model's imports is read line by line. -/
theorem isBlockLine {line : String} (isImport : descriptor.IsModelImport config line) :
    IsBlockLine line := by
  cases isImport with
  | factory =>
      refine isBlockLine_importLine (config.namespaceOf_ne_empty _ _)
        (legible.isWordPart_namespaceOf ?_)
      simp only [List.forall_mem_cons, String.toList_append, List.forall_mem_append]
      exact ⟨List.all_eq_true.mp (by decide), List.all_eq_true.mp (by decide),
        ⟨legible.isWordPart_entity, List.all_eq_true.mp (by decide)⟩, List.forall_mem_nil _⟩
  | @returned method member =>
      have named : ∀ kind ∈ RelationKind.all, kind.fullName ≠ "" ∧
          kind.fullName.toList.all isWordPart = true := by
        decide +kernel
      have known : method.relation.kind ∈ RelationKind.all := by
        cases method.relation.kind <;> decide
      obtain ⟨nonempty, parts⟩ := named _ known
      exact isBlockLine_importLine nonempty (List.all_eq_true.mp parts)
  | @target target member isSibling full known =>
      have isTarget := legible.relates.isTarget member
      refine isBlockLine_importLine ?_
        (legible.holds.isWordPart_fullName legible.serves isTarget known)
      rw [isTarget.fullName?_of_isSibling legible.serves isSibling, Option.some.injEq] at known
      rw [← known]
      exact config.namespaceOf_ne_empty _ _
  | @remark target member unknown =>
      have isTarget := legible.relates.isTarget member
      have missing : target.fullName? = none := by simpa [Target.isResolved] using unknown
      obtain ⟨imports, -, within⟩ := isTarget.read_importLine legible.serves
        (legible.holds.hasPlainNamespaces legible.serves)
      obtain ⟨text, spelled⟩ : ∃ text, target.importLine = "//" ++ text := by
        have start : "// TODO: resolve the namespace of model '" =
            "//" ++ " TODO: resolve the namespace of model '" := by
          decide
        rw [Target.importLine, missing]
        simp only [start, String.append_assoc]
        exact ⟨_, rfl⟩
      rw [missing, spelled] at imports
      rw [spelled] at within ⊢
      exact isBlockLine_remark within imports

/-- Every method of a relation can stand in code. -/
theorem isPlain_method {method : RelationMethod} (member : method ∈ descriptor.methods) :
    method.IsPlain := by
  obtain ⟨relation, ⟨owner, record, accepted⟩, rfl⟩ := legible.methods method member
  have same := RelationMethod.relation_ofRelation (some descriptor.entity) registry relation
  refine ⟨?_, ?_, fun argument among => ?_⟩
  · rw [same]
    exact Relation.isIdentifier_name accepted
  · have owned : (RelationMethod.ofRelation (some descriptor.entity) registry relation).entity =
        some descriptor.entity := by
      cases kind : relation.kind <;> simp [RelationMethod.ofRelation, kind]
    intro within
    rw [owned, Text.nameOr] at within
    split_ifs at within
    · exact absurd within (by decide)
    · exact absurd (legible.entity _ within) (by decide)
  · rcases Relation.mem_arguments among with ⟨model, -, rfl⟩ | ⟨text, rfl⟩ |
      ⟨parameter, known, text, rfl⟩
    · exact legible.holds.isWordPart_reference legible.serves ⟨model, rfl⟩
    · trivial
    · intro c within
      rw [isWordPart, (RelationKind.isNamePart_of_mem_parameters known).2 c within, Bool.true_or]

theorem hasPlainModel (alphanum : ∀ c ∈ model.toList, c.isAlphanum = true) :
    descriptor.HasPlainModel config model where
  qualifier := legible.isWordPart_namespaceOf
    (List.forall_mem_singleton.mpr (List.all_eq_true.mp (by decide)))
  model := fun c within => isWordPart_of_isAlphanum (alphanum c within)
  entity := legible.isWordPart_entity
  table := legible.table
  block := fun _ member => (legible.isBlockLine (isModelImport_of_mem member)).spells
  methods := fun _ member => legible.isPlain_method member

end IsLegible

end Descriptor

end Scaffold
