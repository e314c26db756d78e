import Scaffold.Proofs.Entity.CompiledTargets
import Scaffold.Proofs.Output.BuiltinFiles
import Scaffold.Proofs.Stub.Heads

/-!
# What the files of an entity import

The file of a plan imports the names that stand in its stub, the names that it is given and those of
its block, and declares the class that it is named after.  So its imports are apart exactly when
these short names are.
-/

namespace Scaffold

open Scaffold.Php (ImportsApart NamesApart declaredName? importLine importedName? importedNames
  shortName)
open Scaffold.Stub (Head valueOf)

theorem not_mem_of_alphanum {text : String} (alphanum : ∀ c ∈ text.toList, c.isAlphanum = true)
    {mark : Char} (isMark : mark.isAlphanum = false) : mark ∉ text.toList := by
  intro within
  rw [alphanum mark within] at isMark
  cases isMark

/-! ## Full names -/

/-- A full name of words below the namespace of all modules, and its last word. -/
def Config.Names (config : Config) (full short : String) : Prop :=
  ∃ parts, full = config.namespaceOf (parts ++ [short]) ∧
    ∀ part ∈ parts ++ [short], ∀ c ∈ part.toList, c.isAlphanum = true

theorem Config.not_mem_namespaceOf
    {config : Config} (plain : config.HasPlainNamespaces) {parts : List String}
    (alphanum : ∀ part ∈ parts, ∀ c ∈ part.toList, c.isAlphanum = true) :
    '\n' ∉ (config.namespaceOf parts).toList := by
  intro within
  rw [namespaceOf, String.toList_intercalate] at within
  rcases Text.mem_of_mem_intercalate within with impossible | ⟨characters, member, inside⟩
  · exact absurd impossible (by decide)
  · obtain ⟨part, among, rfl⟩ := List.mem_map.mp member
    rcases List.mem_cons.mp among with rfl | below
    · exact plain.modules inside
    · exact not_mem_of_alphanum (alphanum part below) (by decide) inside

namespace Config.Names

variable {config : Config} {full short : String}

theorem shortName_eq (named : config.Names full short) : shortName full = short := by
  obtain ⟨parts, rfl, alphanum⟩ := named
  have last := alphanum short (List.mem_append_right _ (List.mem_singleton_self _))
  rw [namespaceOf, ← List.cons_append]
  exact Php.shortName_intercalate (not_mem_of_alphanum last (by decide)) (List.cons_ne_nil _ _)

theorem not_mem (named : config.Names full short) (plain : config.HasPlainNamespaces) :
    '\n' ∉ full.toList := by
  obtain ⟨parts, rfl, alphanum⟩ := named
  exact not_mem_namespaceOf plain alphanum

end Config.Names

/-! ## Blocks of imports -/

/-- A block of lines is read line by line. -/
theorem Php.read_joinLines
    {lines : List String} (clean : ∀ line ∈ lines, '\n' ∉ line.toList)
    (undeclared : ∀ line ∈ lines, declaredName? line = none) :
    (Text.parts '\n' (Text.joinLines lines)).filterMap importedName? =
        lines.filterMap importedName? ∧
      ∀ line ∈ Text.parts '\n' (Text.joinLines lines), declaredName? line = none := by
  by_cases empty : lines = []
  · subst empty
    decide
  · have cut : Text.parts '\n' (Text.joinLines lines) = lines := Text.parts_intercalate empty clean
    rw [cut]
    exact ⟨rfl, undeclared⟩

theorem Php.eq_importLine
    {line name : String} (imported : importedName? line = some name) : line = importLine name := by
  rw [importedName?] at imported
  split at imported
  · rename_i rest dropped
    split_ifs at imported with ended
    obtain ⟨front, whole, same⟩ := List.dropPrefix?_eq_some_iff.mp dropped
    obtain rfl := Option.some.inj imported
    obtain rfl := eq_of_beq same
    have back : rest.dropLast ++ [';'] = rest := List.dropLast_append_getLast? _ ended
    refine String.toList_inj.mp ?_
    rw [importLine, String.toList_append, String.toList_append, String.toList_ofList, whole, ← back]
    simp
  · cases imported

/-- Different lines import different names. -/
theorem Php.nodup_filterMap_importedName? {lines : List String} (nodup : lines.Nodup) :
    (lines.filterMap importedName?).Nodup := by
  refine nodup.filterMap fun line other name imported importedToo => ?_
  rw [eq_importLine imported, eq_importLine importedToo]

/-! ## Files of plans -/

/--
A plan fills the head of its stub: `fixed` and `given` are the short names of what its file imports
above the block of imports, and `declared` is the name that it declares.
-/
structure FilePlan.Fills (config : Config) (plan : FilePlan) (head : Head)
    (fixed given : List String) (declared : String) : Prop where
  found : Keyed.get? Stub.entityHeads plan.stub = some head
  keys : head.keys.all (Keyed.keys plan.values).contains = true
  namespaced : head.namespaced = true → '\n' ∉ (valueOf plan.values "namespace").toList
  fixedNames : head.fixed.map shortName = fixed
  givenNames : List.Forall₂ config.Names (head.given.map (valueOf plan.values)) given
  declares : valueOf plan.values head.declared = declared
  alphanum : ∀ c ∈ declared.toList, c.isAlphanum = true

namespace FilePlan.Fills

variable {config : Config} {plan : FilePlan} {head : Head} {fixed given : List String}
  {declared : String}

theorem isFilledBy (fills : plan.Fills config head fixed given declared) :
    head.IsFilledBy plan.values := by
  intro key member
  have among : key ∈ Keyed.keys plan.values := by
    simpa using List.all_eq_true.mp fills.keys key member
  rw [← Option.ne_none_iff_isSome, ne_eq, Keyed.get?_eq_none_iff, not_not]
  exact among

theorem entityHeads_spec : ∀ pair ∈ Stub.entityHeads,
    (pair.2.keyword = "class" ∨ pair.2.keyword = "interface") ∧
      ∀ name ∈ pair.2.fixed, '\n' ∉ name.toList := by
  decide +kernel

/-- The values of a head are clean when its block is. -/
theorem isClean (fills : plan.Fills config head fixed given declared)
    (plain : config.HasPlainNamespaces)
    (block : head.hasBlock = true → ∀ line ∈ Text.parts '\n' (valueOf plan.values "imports"),
      declaredName? line = none) : head.IsClean plan.values := by
  obtain ⟨keyword, fixed⟩ := entityHeads_spec _ (Keyed.mem_of_get? fills.found)
  have lines : ∀ full ∈ head.given.map (valueOf plan.values), '\n' ∉ full.toList :=
    ((List.forall₂_and_left _ _).mp
      (fills.givenNames.imp fun _ _ named => ⟨named.not_mem plain, named⟩)).1
  refine ⟨keyword, fills.namespaced, fixed,
    fun key member => lines _ (List.mem_map_of_mem member), block, ?_⟩
  rw [fills.declares]
  exact ⟨not_mem_of_alphanum fills.alphanum (by decide),
    not_mem_of_alphanum fills.alphanum (by decide)⟩

/-- The names of a file are apart when those of its head and of its block are. -/
theorem importsApart_iff (fills : plan.Fills config head fixed given declared)
    (plain : config.HasPlainNamespaces)
    (block : head.hasBlock = true → ∀ line ∈ Text.parts '\n' (valueOf plan.values "imports"),
      declaredName? line = none) :
    ImportsApart plan.content ↔
      NamesApart (fixed ++ given ++
        ((head.blockLines plan.values).filterMap importedName?).map shortName) declared := by
  obtain ⟨stub, builtin, isHead⟩ := Stub.isPrefix_cut_of_mem (Keyed.mem_of_get? fills.found)
  have content : plan.content = Stub.fill plan.values stub := by
    rw [content, builtin]
    rfl
  have short : (head.given.map (valueOf plan.values)).map shortName = given := by
    have names := fills.givenNames.imp fun _ _ named => named.shortName_eq
    rw [← List.forall₂_eq_eq_eq, List.forall₂_map_left_iff]
    exact names
  obtain ⟨imports, declares⟩ := fills.isFilledBy.read (fills.isClean plain block) isHead
  rw [ImportsApart, content, imports, declares, List.map_append, List.map_append, fills.fixedNames,
    short, fills.declares]
  simp

end FilePlan.Fills

/-- A plan fills the head of its stub, which has no block of imports. -/
def FilePlan.FillsBlockless (config : Config) (plan : FilePlan) (fixed given : List String)
    (declared : String) : Prop :=
  ∃ head, plan.Fills config head fixed given declared ∧ head.hasBlock = false

theorem FilePlan.FillsBlockless.importsApart_iff
    {config : Config} {plan : FilePlan} {fixed given : List String} {declared : String}
    (fills : plan.FillsBlockless config fixed given declared) (plain : config.HasPlainNamespaces) :
    ImportsApart plan.content ↔ NamesApart (fixed ++ given) declared := by
  obtain ⟨head, fills, blockless⟩ := fills
  have block : (head.blockLines plan.values).filterMap importedName? = [] := by
    rw [Head.blockLines, blockless]
    rfl
  rw [fills.importsApart_iff plain (by simp [blockless]), block, List.map_nil, List.append_nil]

/-- A plan fills the head of its stub, with lines as its block of imports. -/
def FilePlan.FillsBlock (config : Config) (plan : FilePlan) (lines fixed given : List String)
    (declared : String) : Prop :=
  ∃ head, plan.Fills config head fixed given declared ∧ head.hasBlock = true ∧
    valueOf plan.values "imports" = Text.joinLines lines

theorem FilePlan.FillsBlock.importsApart_iff
    {config : Config} {plan : FilePlan} {lines fixed given : List String} {declared : String}
    (fills : plan.FillsBlock config lines fixed given declared) (plain : config.HasPlainNamespaces)
    (clean : ∀ line ∈ lines, '\n' ∉ line.toList ∧ declaredName? line = none) :
    ImportsApart plan.content ↔
      NamesApart (fixed ++ given ++ (lines.filterMap importedName?).map shortName) declared := by
  obtain ⟨head, fills, hasBlock, imports⟩ := fills
  obtain ⟨imported, undeclared⟩ := Php.read_joinLines (fun line member => (clean line member).1)
    fun line member => (clean line member).2
  rw [fills.importsApart_iff plain fun _ => imports ▸ undeclared, Head.blockLines, hasBlock,
    imports, if_pos rfl, imported]

/-! ## Files without a block of imports -/

namespace Descriptor

variable {config : Config} {registry : Registry} {descriptor : Descriptor} {names : Keyed String}

/-- The name of a class of an entity, which may be given. -/
def nameOf (names : Keyed String) (kind : FileKind) (suffix : String) (descriptor : Descriptor) :
    String :=
  Text.nameOr (Keyed.get? names kind.name) (descriptor.entity ++ suffix)

theorem nameOr_getD (given : Option String) (fallback : String) :
    Text.nameOr (some (given.getD fallback)) fallback = Text.nameOr given fallback := by
  cases given with
  | none =>
      rw [Option.getD_none, Text.nameOr]
      split_ifs <;> rfl
  | some name => rfl

/-- What is known of a descriptor and of the names that are given for its files. -/
structure Suits (config : Config) (registry : Registry) (names : Keyed String)
    (descriptor : Descriptor) : Prop where
  plain : config.HasPlainNamespaces
  serves : registry.Serves config
  compiled : descriptor.IsCompiledIn registry
  given : AreNamed names

namespace Suits

variable (suits : descriptor.Suits config registry names)
include suits

theorem module : ∀ c ∈ descriptor.module.toList, c.isAlphanum = true := by
  obtain ⟨name, spelled⟩ := suits.serves.module
  rw [suits.compiled.module, spelled]
  exact fun c => Text.isAlphanum_of_mem_studlyCase

theorem entity : ∀ c ∈ descriptor.entity.toList, c.isAlphanum = true := by
  obtain ⟨_, _, _, _, alphanum⟩ := Text.exists_of_isClassName suits.compiled.entity
  exact alphanum

theorem entity_append (suffix : String) (checked : suffix.toList.all Char.isAlphanum = true) :
    ∀ c ∈ (descriptor.entity ++ suffix).toList, c.isAlphanum = true :=
  isAlphanum_append suits.entity checked

theorem nameOf (kind : FileKind) (suffix : String)
    (checked : suffix.toList.all Char.isAlphanum = true) :
    ∀ c ∈ (descriptor.nameOf names kind suffix).toList, c.isAlphanum = true :=
  suits.given.nameOr kind.name (suits.entity_append suffix checked)

/-- A namespace in the module stays within its line. -/
theorem namespaceOf {parts : List String}
    (checked : ∀ part ∈ parts, part.toList.all Char.isAlphanum = true) :
    '\n' ∉ (config.namespaceOf (descriptor.module :: parts)).toList :=
  Config.not_mem_namespaceOf suits.plain
    (List.forall_mem_cons.mpr ⟨suits.module, fun part member =>
      List.all_eq_true.mp (checked part member)⟩)

/-- A class in the module is named by its last word. -/
theorem classNamed (parts : List String)
    (checked : ∀ part ∈ parts, part.toList.all Char.isAlphanum = true) {name : String}
    (alphanum : ∀ c ∈ name.toList, c.isAlphanum = true) :
    config.Names (config.namespaceOf (descriptor.module :: parts ++ [name])) name := by
  refine ⟨descriptor.module :: parts, rfl, ?_⟩
  rw [List.cons_append, List.forall_mem_cons, List.forall_mem_append]
  exact ⟨suits.module, fun part member => List.all_eq_true.mp (checked part member),
    List.forall_mem_singleton.mpr alphanum⟩

/-- The model of the entity is named by the entity. -/
theorem modelNamed :
    config.Names (config.modelClass descriptor.module descriptor.entity) descriptor.entity :=
  suits.classNamed ["Models"] (by decide) suits.entity

/-- A contract is named by the entity and its layer. -/
theorem contractNamed (layer contract : String)
    (checked : layer.toList.all Char.isAlphanum = true ∧
      contract.toList.all Char.isAlphanum = true) :
    config.Names (config.namespaceOf
      [descriptor.module, layer, "Contracts", descriptor.entity ++ contract])
      (descriptor.entity ++ contract) :=
  suits.classNamed [layer, "Contracts"]
    (List.forall_mem_cons.mpr ⟨checked.1, List.forall_mem_singleton.mpr (by decide)⟩)
    (suits.entity_append contract checked.2)

variable {key : Option String}

theorem importsApart_migration (keyed : key.isSome = true) :
    (∀ plan ∈ descriptor.planned config key names .migration, ImportsApart plan.content) ↔
      NamesApart ["Migration", "Blueprint", "Schema"]
        ("Create" ++ Text.studlyCase descriptor.table ++ "Table") := by
  obtain ⟨text, rfl⟩ := Option.isSome_iff_exists.mp keyed
  have start :
      ∀ c ∈ ("Create" ++ Text.studlyCase descriptor.table).toList, c.isAlphanum = true := by
    rw [String.toList_append, List.forall_mem_append]
    exact ⟨List.all_eq_true.mp (by decide), fun c => Text.isAlphanum_of_mem_studlyCase⟩
  have fills : (descriptor.migrationPlan text).FillsBlockless config
      ["Migration", "Blueprint", "Schema"] []
        ("Create" ++ Text.studlyCase descriptor.table ++ "Table") :=
    ⟨_, {
      found := rfl
      keys := rfl
      namespaced := nofun
      fixedNames := by decide
      givenNames := .nil
      declares := rfl
      alphanum := isAlphanum_append start (by decide) }, rfl⟩
  exact List.forall_mem_singleton.trans (fills.importsApart_iff suits.plain)

theorem importsApart_controller :
    (∀ plan ∈ descriptor.planned config key names .controller, ImportsApart plan.content) ↔
      NamesApart ["JsonResponse", "Controller", descriptor.nameOf names .request "Request",
        descriptor.entity ++ "ServiceInterface"]
        (descriptor.nameOf names .controller "Controller") := by
  have request := suits.classNamed ["Http", "Requests"] (by decide)
    (suits.nameOf .request "Request" (by decide))
  have contract := suits.contractNamed "Services" "ServiceInterface" (by decide)
  have fills : (descriptor.controllerPlan config ((Keyed.get? names FileKind.controller.name).getD
      (descriptor.entity ++ "Controller")) (Keyed.get? names "request")).FillsBlockless config
        ["JsonResponse", "Controller"]
        [descriptor.nameOf names .request "Request", descriptor.entity ++ "ServiceInterface"]
        (descriptor.nameOf names .controller "Controller") :=
    ⟨_, {
      found := rfl
      keys := rfl
      namespaced := fun _ => suits.namespaceOf (by decide)
      fixedNames := by decide
      givenNames := .cons request (.cons contract .nil)
      declares := nameOr_getD _ _
      alphanum := suits.nameOf _ _ (by decide) }, rfl⟩
  exact List.forall_mem_singleton.trans (fills.importsApart_iff suits.plain)

theorem importsApart_request :
    (∀ plan ∈ descriptor.planned config key names .request, ImportsApart plan.content) ↔
      NamesApart ["FormRequest"] (descriptor.nameOf names .request "Request") := by
  have fills : (descriptor.requestPlan config ((Keyed.get? names FileKind.request.name).getD
      (descriptor.entity ++ "Request"))).FillsBlockless config ["FormRequest"] []
        (descriptor.nameOf names .request "Request") :=
    ⟨_, {
      found := rfl
      keys := rfl
      namespaced := fun _ => suits.namespaceOf (by decide)
      fixedNames := by decide
      givenNames := .nil
      declares := nameOr_getD _ _
      alphanum := suits.nameOf _ _ (by decide) }, rfl⟩
  exact List.forall_mem_singleton.trans (fills.importsApart_iff suits.plain)

theorem importsApart_service :
    (∀ plan ∈ descriptor.planned config key names .service, ImportsApart plan.content) ↔
      NamesApart ["Collection", descriptor.entity]
          (descriptor.nameOf names .service "Service" ++ "Interface") ∧
        NamesApart ["Collection", descriptor.entity, descriptor.entity ++ "RepositoryInterface",
            descriptor.nameOf names .service "Service" ++ "Interface"]
          (descriptor.nameOf names .service "Service") := by
  have own := suits.nameOf .service "Service" (by decide)
  have contract := isAlphanum_append own (by decide : "Interface".toList.all Char.isAlphanum = true)
  have contractNamed := suits.classNamed ["Services", "Contracts"] (by decide) contract
  have repository := suits.contractNamed "Repositories" "RepositoryInterface" (by decide)
  obtain ⟨first, second, planned, fills, fillsToo⟩ : ∃ first second,
      descriptor.planned config key names .service = [first, second] ∧
        first.FillsBlockless config ["Collection"] [descriptor.entity]
          (descriptor.nameOf names .service "Service" ++ "Interface") ∧
        second.FillsBlockless config ["Collection"]
          [descriptor.entity, descriptor.entity ++ "RepositoryInterface",
            descriptor.nameOf names .service "Service" ++ "Interface"]
          (descriptor.nameOf names .service "Service") := by
    refine ⟨_, _, rfl, ⟨_, {
      found := rfl
      keys := rfl
      namespaced := fun _ => suits.namespaceOf (by decide)
      fixedNames := by decide
      givenNames := .cons suits.modelNamed .nil
      declares := rfl
      alphanum := contract }, rfl⟩, ⟨_, {
      found := rfl
      keys := rfl
      namespaced := fun _ => suits.namespaceOf (by decide)
      fixedNames := by decide
      givenNames := .cons suits.modelNamed (.cons repository (.cons contractNamed .nil))
      declares := rfl
      alphanum := own }, rfl⟩⟩
  rw [planned, List.forall_mem_cons, List.forall_mem_singleton]
  exact and_congr (fills.importsApart_iff suits.plain) (fillsToo.importsApart_iff suits.plain)

theorem importsApart_repository :
    (∀ plan ∈ descriptor.planned config key names .repository, ImportsApart plan.content) ↔
      NamesApart ["Collection", descriptor.entity]
          (descriptor.nameOf names .repository "Repository" ++ "Interface") ∧
        NamesApart ["Collection", descriptor.entity,
            descriptor.nameOf names .repository "Repository" ++ "Interface"]
          (descriptor.nameOf names .repository "Repository") := by
  have own := suits.nameOf .repository "Repository" (by decide)
  have contract := isAlphanum_append own (by decide : "Interface".toList.all Char.isAlphanum = true)
  have contractNamed := suits.classNamed ["Repositories", "Contracts"] (by decide) contract
  obtain ⟨first, second, planned, fills, fillsToo⟩ : ∃ first second,
      descriptor.planned config key names .repository = [first, second] ∧
        first.FillsBlockless config ["Collection"] [descriptor.entity]
          (descriptor.nameOf names .repository "Repository" ++ "Interface") ∧
        second.FillsBlockless config ["Collection"]
          [descriptor.entity, descriptor.nameOf names .repository "Repository" ++ "Interface"]
          (descriptor.nameOf names .repository "Repository") := by
    refine ⟨_, _, rfl, ⟨_, {
      found := rfl
      keys := rfl
      namespaced := fun _ => suits.namespaceOf (by decide)
      fixedNames := by decide
      givenNames := .cons suits.modelNamed .nil
      declares := rfl
      alphanum := contract }, rfl⟩, ⟨_, {
      found := rfl
      keys := rfl
      namespaced := fun _ => suits.namespaceOf (by decide)
      fixedNames := by decide
      givenNames := .cons suits.modelNamed (.cons contractNamed .nil)
      declares := rfl
      alphanum := own }, rfl⟩⟩
  rw [planned, List.forall_mem_cons, List.forall_mem_singleton]
  exact and_congr (fills.importsApart_iff suits.plain) (fillsToo.importsApart_iff suits.plain)

theorem importsApart_seeder :
    (∀ plan ∈ descriptor.planned config key names .seeder, ImportsApart plan.content) ↔
      NamesApart ["Seeder", descriptor.entity] (descriptor.entity ++ "Seeder") := by
  have fills : (descriptor.seederPlan config).FillsBlockless config ["Seeder"] [descriptor.entity]
      (descriptor.entity ++ "Seeder") :=
    ⟨_, {
      found := rfl
      keys := rfl
      namespaced := fun _ => suits.namespaceOf (by decide)
      fixedNames := by decide
      givenNames := .cons suits.modelNamed .nil
      declares := rfl
      alphanum := suits.entity_append _ (by decide) }, rfl⟩
  exact List.forall_mem_singleton.trans (fills.importsApart_iff suits.plain)

theorem importsApart_test :
    (∀ plan ∈ descriptor.planned config key names .test, ImportsApart plan.content) ↔
      NamesApart ["RefreshDatabase", "TestCase", descriptor.entity]
        (descriptor.entity ++ "Test") := by
  have fills : (descriptor.testPlan config).FillsBlockless config ["RefreshDatabase", "TestCase"]
      [descriptor.entity] (descriptor.entity ++ "Test") :=
    ⟨_, {
      found := rfl
      keys := rfl
      namespaced := fun _ => suits.namespaceOf (by decide)
      fixedNames := by decide
      givenNames := .cons suits.modelNamed .nil
      declares := rfl
      alphanum := suits.entity_append _ (by decide) }, rfl⟩
  exact List.forall_mem_singleton.trans (fills.importsApart_iff suits.plain)

end Suits

/-! ## Files with a block of imports -/

/-- The lines that the factory imports besides the model. -/
def factoryBlock (config : Config) (descriptor : Descriptor) : List String :=
  descriptor.factoryImports.filter
    (· != importLine (config.modelClass descriptor.module descriptor.entity))

/-- The lines that the model of a name imports for its factory and its relations. -/
def modelBlock (config : Config) (name : String) (descriptor : Descriptor) : List String :=
  distinct (config.importOf
      [descriptor.module, "Database", "Factories", descriptor.entity ++ "Factory"] ::
    descriptor.modelImports.filter (· != config.importOf [descriptor.module, "Models", name]))

namespace Suits

variable (suits : descriptor.Suits config registry names)
include suits

variable {key : Option String}

theorem importsApart_factory
    (clean : ∀ line ∈ descriptor.factoryBlock config, '\n' ∉ line.toList ∧
      declaredName? line = none) :
    (∀ plan ∈ descriptor.planned config key names .factory, ImportsApart plan.content) ↔
      NamesApart (["Factory", descriptor.entity] ++
        ((descriptor.factoryBlock config).filterMap importedName?).map shortName)
        (descriptor.entity ++ "Factory") := by
  have fills : (descriptor.factoryPlan config).FillsBlock config (descriptor.factoryBlock config)
      ["Factory"] [descriptor.entity] (descriptor.entity ++ "Factory") :=
    ⟨_, {
      found := rfl
      keys := rfl
      namespaced := fun _ => suits.namespaceOf (by decide)
      fixedNames := by decide
      givenNames := .cons suits.modelNamed .nil
      declares := rfl
      alphanum := suits.entity_append _ (by decide) }, rfl, rfl⟩
  exact List.forall_mem_singleton.trans (fills.importsApart_iff suits.plain clean)

theorem importsApart_model
    (clean : ∀ line ∈ descriptor.modelBlock config (descriptor.nameOf names .model ""),
      '\n' ∉ line.toList ∧ declaredName? line = none) :
    (∀ plan ∈ descriptor.planned config key names .model, ImportsApart plan.content) ↔
      NamesApart (["HasFactory", "Model"] ++
        ((descriptor.modelBlock config (descriptor.nameOf names .model "")).filterMap
          importedName?).map shortName)
        (descriptor.nameOf names .model "") := by
  have named : descriptor.nameOf names .model "" =
      Text.nameOr (some ((Keyed.get? names FileKind.model.name).getD descriptor.entity))
        descriptor.entity := by
    rw [nameOr_getD, Descriptor.nameOf, String.append_empty]
  have fills : (descriptor.modelPlan config ((Keyed.get? names FileKind.model.name).getD
      descriptor.entity)).FillsBlock config
        (descriptor.modelBlock config (descriptor.nameOf names .model ""))
        ["HasFactory", "Model"] [] (descriptor.nameOf names .model "") :=
    ⟨_, {
      found := rfl
      keys := rfl
      namespaced := fun _ => suits.namespaceOf (by decide)
      fixedNames := by decide
      givenNames := .nil
      declares := named.symm
      alphanum := suits.nameOf _ _ (by decide) }, rfl, by rw [named]; rfl⟩
  exact List.forall_mem_singleton.trans (fills.importsApart_iff suits.plain clean)

end Suits

end Descriptor

end Scaffold
