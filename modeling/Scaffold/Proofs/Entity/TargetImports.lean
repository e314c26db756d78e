import Scaffold.Entity.Discovery
import Scaffold.Module.Compilation
import Scaffold.Module.Config
import Scaffold.Proofs.Entity.Agreement
import Scaffold.Proofs.Factory.ForeignTarget
import Scaffold.Proofs.Php.Imports
import Scaffold.Proofs.Php.Literal

/-!
# Imports of targets

A known target is imported under its full name, whose last segment is its own name, and an unknown
one leaves a remark in place of an import.  Both stay within their line as long as the namespaces of
the settings do.
-/

namespace Scaffold

/-- The namespaces of settings stay within a line. -/
structure Config.HasPlainNamespaces (config : Config) : Prop where
  modules : '\n' ∉ config.moduleNamespace.toList
  application : '\n' ∉ config.appModelNamespace.toList

/-- A registry uses the namespaces of settings, and its modules have names of classes. -/
structure Registry.Serves (registry : Registry) (config : Config) : Prop where
  moduleNamespace : registry.moduleNamespace = config.moduleNamespace
  applicationNamespace : registry.applicationNamespace = config.appModelNamespace
  module : ∃ name, registry.module = Text.studlyCase name
  neighbours : ∀ module ∈ Keyed.keys registry.neighbours, ∃ name, module = Text.studlyCase name

namespace Registry

/-- A registry that is built with the namespaces of settings serves them. -/
theorem serves_build
    {config : Config} (modules : strippedNamespace config.moduleNamespace = config.moduleNamespace)
    (application : strippedNamespace config.appModelNamespace = config.appModelNamespace)
    (module : String) (siblings : List String) (others : Keyed (List String))
    (models : List String) :
    (build module siblings others models config.moduleNamespace config.appModelNamespace).Serves
      config := by
  have adds := adds_addModules
    (siblings.foldl addSibling
      { module := Text.studlyCase module
        application := (models.map Text.studlyCase).foldl addText []
        moduleNamespace := strippedNamespace config.moduleNamespace
        applicationNamespace := strippedNamespace config.appModelNamespace }) others
  rw [foldl_addSibling] at adds
  rw [build, foldl_addSibling]
  refine ⟨adds.moduleNamespace.trans modules, adds.applicationNamespace.trans application,
    ⟨module, adds.module⟩, fun other known => ?_⟩
  rcases (adds.modules other).mp known with impossible | ⟨-, pair, -, named⟩
  · cases impossible
  · exact ⟨pair.1, named.symm⟩

/-- A registry that a run discovers serves the settings of the run. -/
theorem serves_of_discover
    {config : Config} {tree : Disk.Tree} {module : String} {siblings : List String}
    {registry : Registry} (discovered : discover config tree module siblings = .ok registry)
    (modules : strippedNamespace config.moduleNamespace = config.moduleNamespace)
    (application : strippedNamespace config.appModelNamespace = config.appModelNamespace) :
    registry.Serves config := by
  simp only [discover, bind_eq_ok_iff] at discovered
  obtain ⟨found, -, models, -, built⟩ := discovered
  rw [← Except.ok.inj built]
  exact serves_build modules application module siblings _ models

theorem Serves.register
    {registry : Registry} {config : Config} (serves : registry.Serves config)
    (definition : ModuleDefinition) : (definition.register registry).Serves config := by
  rw [ModuleDefinition.register, foldl_addSibling]
  exact ⟨serves.moduleNamespace, serves.applicationNamespace, serves.module, serves.neighbours⟩

/-- The entities of a module are known in its registry. -/
theorem mem_siblings_register (registry : Registry) {definition : ModuleDefinition}
    {component : Component} (member : component ∈ definition.components) :
    component.entity ∈ (definition.register registry).siblings := by
  rw [ModuleDefinition.register, foldl_addSibling]
  refine mem_foldl_addText.mpr (.inr (List.mem_map.mpr ⟨component.entity, ?_, ?_⟩))
  · exact List.mem_map_of_mem member
  · exact Text.studlyCase_studlyCase _

/-! ## Where a target is found -/

/-- Where a registry locates a target. -/
inductive Locates (registry : Registry) : Target → Prop
  | sibling {entity : String} (known : entity ∈ registry.siblings) :
      Locates registry ⟨entity, .sibling registry.module (registry.modelName entity "")⟩
  | neighbour {entity : String} (unknown : entity ∉ registry.siblings) {module : String}
      (member : module ∈ Keyed.keys registry.neighbours) :
      Locates registry ⟨entity, .neighbour module (registry.modelName entity module)⟩
  | application {entity : String} (unknown : entity ∉ registry.siblings) :
      Locates registry ⟨entity, .application (registry.applicationNamespace ++ "\\" ++ entity)⟩
  | unknown {entity : String} (unknown : entity ∉ registry.siblings) (others : Nat) :
      Locates registry ⟨entity, .unknown registry.module others⟩

theorem locates_resolve (registry : Registry) (name : String) :
    registry.Locates (registry.resolve name) := by
  rw [resolve]
  cases found : registry.neighbourOf? (Text.studlyCase name) with
  | some module =>
      have member : module ∈ Keyed.keys registry.neighbours := by
        rw [neighbourOf?] at found
        simpa using List.mem_of_find?_eq_some found
      split_ifs with known
      · exact .sibling (by simpa using known)
      all_goals exact .neighbour (by simpa using known) member
  | none =>
      split_ifs with known
      · exact .sibling (by simpa using known)
      · exact .application (by simpa using known)
      · exact .unknown (by simpa using known) _

/-- A target of a registry: what it finds under some name. -/
def IsTarget (registry : Registry) (target : Target) : Prop :=
  ∃ name, target = registry.resolve name

namespace IsTarget

variable {registry : Registry} {target : Target}

theorem located (isTarget : registry.IsTarget target) : registry.Locates target := by
  obtain ⟨name, rfl⟩ := isTarget
  exact registry.locates_resolve name

theorem alphanum (isTarget : registry.IsTarget target) :
    ∀ c ∈ target.name.toList, c.isAlphanum = true := by
  obtain ⟨name, rfl⟩ := isTarget
  rw [name_resolve]
  exact fun c => Text.isAlphanum_of_mem_studlyCase

/-- Targets of one name are one target. -/
theorem eq_of_name {other : Target} (isTarget : registry.IsTarget target)
    (isOther : registry.IsTarget other) (same : target.name = other.name) : target = other := by
  obtain ⟨name, rfl⟩ := isTarget
  obtain ⟨otherName, rfl⟩ := isOther
  rw [name_resolve, name_resolve] at same
  exact (registry.resolve_eq_iff _ _).mpr same

/-! ## What a target is imported as -/

theorem not_mem_name (isTarget : registry.IsTarget target) {c : Char}
    (mark : c.isAlphanum = false) : c ∉ target.name.toList := by
  intro within
  rw [isTarget.alphanum c within] at mark
  cases mark

theorem modelName_eq (entity module : String) :
    registry.modelName entity module =
      registry.namespaceOf module ++ "\\Models" ++ "\\" ++ entity := by
  have mark : "\\Models\\" = "\\Models" ++ "\\" := by decide
  rw [modelName, mark, ← String.append_assoc]

/-- The short name of a known target is its name. -/
theorem shortName_fullName (isTarget : registry.IsTarget target) {full : String}
    (known : target.fullName? = some full) : Php.shortName full = target.name := by
  have clean := isTarget.not_mem_name (c := '\\') (by decide)
  cases isTarget.located with
  | sibling | neighbour =>
      obtain rfl := Option.some.inj known
      rw [modelName_eq]
      exact Php.shortName_append clean _
  | application =>
      obtain rfl := Option.some.inj known
      exact Php.shortName_append clean _
  | unknown => cases known

/-- What holds of letters, digits, backslashes and the namespaces holds of the full name. -/
theorem forall_mem_fullName (isTarget : registry.IsTarget target) {config : Config}
    (serves : registry.Serves config) {holds : Char → Prop}
    (alphanum : ∀ c, c.isAlphanum = true → holds c) (backslash : holds '\\')
    (modules : ∀ c ∈ config.moduleNamespace.toList, holds c)
    (application : ∀ c ∈ config.appModelNamespace.toList, holds c) {full : String}
    (known : target.fullName? = some full) : ∀ c ∈ full.toList, holds c := by
  have spelled {name : String} (studly : ∃ given, name = Text.studlyCase given) :
      ∀ c ∈ name.toList, holds c := by
    obtain ⟨given, rfl⟩ := studly
    exact fun c within => alphanum c (Text.isAlphanum_of_mem_studlyCase within)
  have folder : ∀ c ∈ "\\Models\\".toList, holds c := by
    have characters : "\\Models\\".toList.all (fun c => c.isAlphanum || c == '\\') = true := by
      decide
    intro c within
    have among := List.all_eq_true.mp characters c within
    rw [Bool.or_eq_true, beq_iff_eq] at among
    rcases among with letter | rfl
    · exact alphanum c letter
    · exact backslash
  have own : ∀ c ∈ target.name.toList, holds c :=
    fun c within => alphanum c (isTarget.alphanum c within)
  have model (module : String) (given : ∀ c ∈ module.toList, holds c) :
      ∀ c ∈ (registry.modelName target.name module).toList, holds c := by
    have named : ∀ c ∈ (if module.isEmpty then registry.module else module).toList, holds c := by
      split_ifs
      · exact spelled serves.module
      · exact given
    simp only [modelName, namespaceOf, serves.moduleNamespace, String.toList_append,
      List.forall_mem_append]
    exact ⟨⟨⟨⟨modules, by simpa using backslash⟩, named⟩, folder⟩, own⟩
  cases isTarget.located with
  | sibling =>
      obtain rfl := Option.some.inj known
      exact model "" (List.forall_mem_nil _)
  | neighbour _ member =>
      obtain rfl := Option.some.inj known
      exact model _ (spelled (serves.neighbours _ member))
  | application =>
      obtain rfl := Option.some.inj known
      simp only [serves.applicationNamespace, String.toList_append, List.forall_mem_append]
      exact ⟨⟨application, by simpa using backslash⟩, own⟩
  | unknown => cases known

/-- The full name of a known target stays within its line. -/
theorem not_mem_fullName (isTarget : registry.IsTarget target) {config : Config}
    (serves : registry.Serves config) (plain : config.HasPlainNamespaces) {full : String}
    (known : target.fullName? = some full) : '\n' ∉ full.toList := by
  have other : ∀ c : Char, c.isAlphanum = true → c ≠ '\n' := by
    rintro c alphanum rfl
    cases alphanum
  have apart {text : String} (within : '\n' ∉ text.toList) : ∀ c ∈ text.toList, c ≠ '\n' :=
    fun c member same => within (same ▸ member)
  exact fun within => isTarget.forall_mem_fullName serves other (by decide) (apart plain.modules)
    (apart plain.application) known _ within rfl

/-- The remark in place of an import neither imports nor declares. -/
theorem read_remark (text : String) :
    Php.importedName? ("// TODO: " ++ text) = none ∧
      Php.declaredName? ("// TODO: " ++ text) = none := by
  constructor
  · have start : ("// TODO: " ++ text).toList = '/' :: ("/ TODO: ".toList ++ text.toList) := by
      rw [String.toList_append]
      rfl
    rw [Php.importedName?, start]
    rfl
  · have start : "// TODO: " ++ text = "//" ++ " " ++ ("TODO: " ++ text) := by
      rw [← String.append_assoc]
      rfl
    rw [start]
    exact Php.declaredName?_word (by decide) (by decide) _

/-- A target is imported under its full name, if it has one, by a line that declares nothing. -/
theorem read_importLine (isTarget : registry.IsTarget target) {config : Config}
    (serves : registry.Serves config) (plain : config.HasPlainNamespaces) :
    Php.importedName? target.importLine = target.fullName? ∧
      Php.declaredName? target.importLine = none ∧ '\n' ∉ target.importLine.toList := by
  cases known : target.fullName? with
  | some full =>
      have line : target.importLine = Php.importLine full := by
        rw [Target.importLine, known]
        rfl
      rw [line]
      refine ⟨Php.importedName?_importLine full, Php.declaredName?_importLine full, ?_⟩
      simp [Php.importLine, isTarget.not_mem_fullName serves plain known]
  | none =>
      have remark : target.importLine = "// TODO: " ++ ("resolve the namespace of model '" ++
          target.name ++ "' (" ++ target.reason ++ ")") := by
        have start : "// TODO: resolve the namespace of model '" =
            "// TODO: " ++ "resolve the namespace of model '" := by decide
        rw [Target.importLine, known]
        simp only [start, String.append_assoc]
      have reason : '\n' ∉ target.reason.toList := by
        cases isTarget.located with
        | unknown _ others =>
            obtain ⟨given, spelled⟩ := serves.module
            have module : '\n' ∉ registry.module.toList := by
              rw [spelled]
              exact fun within => absurd (Text.isAlphanum_of_mem_studlyCase within) (by decide)
            have count : '\n' ∉ (Decimal.writtenInt others).toList := fun within =>
              absurd (Decimal.isNumberCharacter_writtenInt _ _ within) (by decide)
            simp [Target.reason, Target.reason?, module, count]
        | _ => cases known
      rw [remark]
      refine ⟨(read_remark _).1, (read_remark _).2, ?_⟩
      simp [isTarget.not_mem_name (c := '\n') (by decide), reason]

end IsTarget

end Registry

end Scaffold
