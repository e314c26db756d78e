import Scaffold.Proofs.Factory.SiblingTarget
import Scaffold.Proofs.Output.ImportBlocks

/-!
# Clashes of imports

A file knows what it imports by the last segment alone.  The names of an entity, of a relation's
target and of the classes of the framework may meet there, and then the file does not load.  Every
such clash comes from a few names, and entities of other names never run into one.
-/

namespace Scaffold

open Scaffold.Php (ImportsApart NamesApart)

/-! ## Names in the layers -/

namespace Php

theorem namesApart_controller_iff (entity request controller : String) :
    NamesApart ["JsonResponse", "Controller", request, entity ++ "ServiceInterface"] controller ↔
      request ∉ ["JsonResponse", "Controller", entity ++ "ServiceInterface"] ∧
        controller ∉ ["JsonResponse", "Controller", request, entity ++ "ServiceInterface"] := by
  have contract : entity ++ "ServiceInterface" ∉ ["JsonResponse", "Controller"] :=
    append_not_mem (by decide) _
  simp only [namesApart_cons_iff, namesApart_nil, List.mem_cons, List.not_mem_nil] at contract ⊢
  grind

theorem namesApart_service_iff (entity service : String) :
    NamesApart ["Collection", entity] (service ++ "Interface") ∧
        NamesApart ["Collection", entity, entity ++ "RepositoryInterface", service ++ "Interface"]
          service ↔
      entity ∉ ["Collection", service ++ "Interface"] ∧
        service ∉
          ["Collection", entity, entity ++ "Repository", entity ++ "RepositoryInterface"] := by
  have contract : service ++ "Interface" ∉ ["Collection"] := append_not_mem (by decide) _
  have repository : entity ++ "RepositoryInterface" ∉ ["Collection"] := append_not_mem (by decide) _
  have own : service ++ "Interface" ≠ service ∧ entity ++ "RepositoryInterface" ≠ entity := by simp
  -- the two contracts have one name exactly when the service has that of the repository
  have joined : entity ++ "RepositoryInterface" = service ++ "Interface" ↔
      service = entity ++ "Repository" := by
    have whole : "RepositoryInterface" = "Repository" ++ "Interface" := by decide
    rw [whole, ← String.append_assoc, String.append_left_inj, eq_comm]
  simp only [namesApart_cons_iff, namesApart_nil, List.mem_cons, List.not_mem_nil]
    at contract repository ⊢
  grind

theorem namesApart_repository_iff (entity repository : String) :
    NamesApart ["Collection", entity] (repository ++ "Interface") ∧
        NamesApart ["Collection", entity, repository ++ "Interface"] repository ↔
      entity ∉ ["Collection", repository ++ "Interface"] ∧
        repository ∉ ["Collection", entity] := by
  have contract : repository ++ "Interface" ∉ ["Collection"] := append_not_mem (by decide) _
  have own : repository ++ "Interface" ≠ repository := by simp
  simp only [namesApart_cons_iff, namesApart_nil, List.mem_cons, List.not_mem_nil] at contract ⊢
  grind

theorem namesApart_test_iff (entity : String) :
    NamesApart ["RefreshDatabase", "TestCase", entity] (entity ++ "Test") ↔
      entity ∉ ["RefreshDatabase", "TestCase"] := by
  have declared : entity ++ "Test" ∉ ["RefreshDatabase", "TestCase"] :=
    append_not_mem (by decide) _
  have own : entity ++ "Test" ≠ entity := by simp
  simp only [namesApart_cons_iff, namesApart_nil, List.mem_cons, List.not_mem_nil] at declared ⊢
  grind

end Php

/-! ## Names that clash -/

namespace Descriptor

variable {config : Config} {registry : Registry} {descriptor : Descriptor} {names : Keyed String}

/--
The names with which a file of a kind imports two classes of one short name, or one of the name that
it declares itself.
-/
def Clashes (names : Keyed String) (descriptor : Descriptor) : FileKind → Prop
  | .model =>
      let model := descriptor.nameOf names .model ""
      descriptor.entity = "Has" ∨ model ∈ descriptor.takenInModel ∨
        ∃ target ∈ descriptor.methodTargets, target.isSibling = true ∧ target.name ≠ model ∧
          target.name ∈ descriptor.takenInModel
  | .migration => False
  | .controller =>
      let request := descriptor.nameOf names .request "Request"
      let contract := descriptor.entity ++ "ServiceInterface"
      request ∈ ["JsonResponse", "Controller", contract] ∨
        descriptor.nameOf names .controller "Controller" ∈
          ["JsonResponse", "Controller", request, contract]
  | .request => descriptor.nameOf names .request "Request" = "FormRequest"
  | .service =>
      let service := descriptor.nameOf names .service "Service"
      descriptor.entity ∈ ["Collection", service ++ "Interface"] ∨
        service ∈ ["Collection", descriptor.entity, descriptor.entity ++ "Repository",
          descriptor.entity ++ "RepositoryInterface"]
  | .repository =>
      let repository := descriptor.nameOf names .repository "Repository"
      descriptor.entity ∈ ["Collection", repository ++ "Interface"] ∨
        repository ∈ ["Collection", descriptor.entity]
  | .factory =>
      descriptor.entity = "Factory" ∨
        ∃ target ∈ descriptor.factoryTargets, target.isResolved = true ∧
          target.name ≠ descriptor.entity ∧
            target.name ∈ ["Factory", descriptor.entity ++ "Factory"]
  | .seeder => descriptor.entity = "Seeder"
  | .test => descriptor.entity ∈ ["RefreshDatabase", "TestCase"]

instance (names : Keyed String) (descriptor : Descriptor) (kind : FileKind) :
    Decidable (descriptor.Clashes names kind) := by
  cases kind <;> unfold Clashes <;> infer_instance

/-- Without names that are given, only these entities clash in their layers. -/
theorem clashes_standard (nonempty : descriptor.entity ≠ "") :
    ¬ descriptor.Clashes [] .controller ∧
      (descriptor.Clashes [] .request ↔ descriptor.entity = "Form") ∧
      (descriptor.Clashes [] .service ↔ descriptor.entity = "Collection") ∧
      (descriptor.Clashes [] .repository ↔ descriptor.entity = "Collection") := by
  have standard (kind : FileKind) (suffix : String) :
      descriptor.nameOf [] kind suffix = descriptor.entity ++ suffix := rfl
  have collection {ending : String} (other : ¬ ending.toList <:+ "Collection".toList) :
      descriptor.entity ++ ending ≠ "Collection" := fun same =>
    append_not_mem (List.forall_mem_singleton.mpr other) _ (List.mem_singleton.mpr same)
  have own {ending : String} (longer : ending ≠ "") :
      descriptor.entity ≠ descriptor.entity ++ ending :=
    fun same => longer (String.append_eq_left_iff.mp same.symm)
  refine ⟨?_, ?_, ?_, ?_⟩
  · have request : descriptor.entity ++ "Request" ∉ ["JsonResponse", "Controller"] :=
      append_not_mem (by decide) _
    have controller : descriptor.entity ++ "Controller" ∉ ["JsonResponse"] :=
      append_not_mem (by decide) _
    simp only [List.mem_cons, List.not_mem_nil, or_false, not_or] at request controller
    simp [Clashes, standard, request, controller, nonempty]
  · have joined : "FormRequest" = "Form" ++ "Request" := by decide
    rw [Clashes, standard, joined, String.append_left_inj]
  · have service := @collection "Service" (by decide)
    simp [Clashes, standard, service, own, String.append_assoc]
  · have repository := @collection "Repository" (by decide)
    simp [Clashes, standard, repository, own, String.append_assoc]

namespace Suits

variable (suits : descriptor.Suits config registry names)
include suits

/-- The files of a kind have their imports apart when no name of the entity makes them clash. -/
theorem importsApart_iff {key : Option String} {kind : FileKind}
    (keyed : kind = .migration → key.isSome = true) :
    (∀ plan ∈ descriptor.planned config key names kind, ImportsApart plan.content) ↔
      ¬ descriptor.Clashes names kind := by
  cases kind with
  | model =>
      have clean := not_mem_of_alphanum (suits.nameOf .model "" (by decide))
        (by decide : '\\'.isAlphanum = false)
      rw [suits.importsApart_model (suits.clean_modelBlock _), suits.namesApart_model clean,
        Clashes]
      simp only [not_or, not_exists, not_and, ne_eq]
  | migration =>
      rw [suits.importsApart_migration (keyed rfl), Clashes, not_false_eq_true, iff_true]
      exact ⟨by decide, append_not_mem (by decide) _⟩
  | controller =>
      rw [suits.importsApart_controller, Php.namesApart_controller_iff, Clashes, not_or]
  | request =>
      rw [suits.importsApart_request, Clashes]
      simp [Php.namesApart_cons_iff, Php.namesApart_nil]
  | service => rw [suits.importsApart_service, Php.namesApart_service_iff, Clashes, not_or]
  | repository =>
      rw [suits.importsApart_repository, Php.namesApart_repository_iff, Clashes, not_or]
  | factory =>
      rw [suits.importsApart_factory suits.clean_factoryBlock, suits.namesApart_factory, Clashes]
      simp only [not_or, not_exists, not_and, ne_eq, List.mem_pair]
  | seeder =>
      rw [suits.importsApart_seeder, Clashes, eq_comm]
      simp [Php.namesApart_cons_iff, Php.namesApart_nil, suits.entity_ne_empty]
  | test => rw [suits.importsApart_test, Php.namesApart_test_iff, Clashes]

/-- An entity is rendered with all imports apart when no name makes the chosen kinds clash. -/
theorem exists_files_apart_iff (builtin : config.UsesBuiltinStubs) {key : Option String}
    {kinds : List FileKind} (keyed : .migration ∈ kinds → key.isSome = true) (clean : Bool)
    (tree : Disk.Tree) :
    ∃ files, (descriptor.generate config (config.shelf clean tree) key kinds names).files =
        .ok files ∧
      ((∀ file ∈ files, ImportsApart file.content) ↔
        ∀ kind ∈ kinds, ¬ descriptor.Clashes names kind) := by
  obtain ⟨files, generated, holds⟩ := exists_files_of_generate (builtin.load_shelf clean tree)
    suits.compiled.entity suits.given keyed
  refine ⟨files, generated, (holds ImportsApart).trans ?_⟩
  refine forall₂_congr fun kind chosen => suits.importsApart_iff ?_
  rintro rfl
  exact keyed chosen

end Suits

end Descriptor

/-! ## Entities of reviewed modules -/

theorem ModuleDefinition.errors_reviewNames
    {definition : ModuleDefinition} {settings : Option Config} {withRecords : Bool}
    (passes : Review.errors (definition.review settings withRecords) = []) :
    Review.errors definition.reviewNames = [] := by
  rw [review, Review.errors_append, Review.errors_append, Review.errors_append,
    List.append_eq_nil_iff, List.append_eq_nil_iff, List.append_eq_nil_iff] at passes
  exact passes.1.1.2

/-- A component of a reviewed module is compiled into a descriptor that suits its registry. -/
theorem Component.suits
    {definition : ModuleDefinition} {settings : Option Config} {withRecords : Bool}
    (passes : Review.errors (definition.review settings withRecords) = []) {component : Component}
    (member : component ∈ definition.components) {config : Config} {registry : Registry}
    (plain : config.HasPlainNamespaces) (serves : registry.Serves config) {strict : Bool}
    {descriptor : Descriptor}
    (compiled : component.compile (definition.register registry) strict = .ok descriptor)
    {names : Keyed String} (given : Descriptor.AreNamed names) :
    descriptor.Suits config (definition.register registry) names where
  plain := plain
  serves := serves.register definition
  compiled := component.isCompiledIn compiled
    (definition.isClassName_of_reviewNames (definition.errors_reviewNames passes) member)
    (registry.mem_siblings_register member)
  given := given

/--
A component of a module whose review has no errors, once it compiles, is rendered from the built-in
stubs, and the imports of all its files are apart from each other and from what the files declare
exactly when no name of the entity, of a class that is given for it or of a target makes a chosen
kind of files clash.
-/
theorem Component.imports_apart_iff
    {definition : ModuleDefinition} {settings : Option Config}
    (passes : Review.errors (definition.review settings true) = []) {component : Component}
    (member : component ∈ definition.components) {config : Config}
    (plain : config.HasPlainNamespaces) (builtin : config.UsesBuiltinStubs) {registry : Registry}
    (serves : registry.Serves config) {strict : Bool} {descriptor : Descriptor}
    (compiled : component.compile (definition.register registry) strict = .ok descriptor)
    {names : Keyed String} (given : Descriptor.AreNamed names) {kinds : List FileKind}
    {key : Option String} (keyed : .migration ∈ kinds → key.isSome = true) (clean : Bool)
    (tree : Disk.Tree) :
    ∃ files, (descriptor.generate config (config.shelf clean tree) key kinds names).files =
        .ok files ∧
      ((∀ file ∈ files, ImportsApart file.content) ↔
        ∀ kind ∈ kinds, ¬ descriptor.Clashes names kind) :=
  (component.suits passes member plain serves compiled given).exists_files_apart_iff builtin keyed
    clean tree

/-- A registry that knows the module of blogs alone. -/
def blogRegistry : Registry :=
  .build "Blog" [] [] [] ({} : Config).moduleNamespace ({} : Config).appModelNamespace

theorem serves_blogRegistry : blogRegistry.Serves {} := by
  have modules :
      strippedNamespace ({} : Config).moduleNamespace = ({} : Config).moduleNamespace := by
    decide +kernel
  have application :
      strippedNamespace ({} : Config).appModelNamespace = ({} : Config).appModelNamespace := by
    decide +kernel
  unfold blogRegistry
  exact Registry.serves_build modules application "Blog" [] [] []

theorem hasPlainNamespaces_standard : ({} : Config).HasPlainNamespaces :=
  ⟨by decide, by decide⟩

/-- A comment that belongs to a post. -/
def commentOnPost : Component :=
  { name := "Comment"
    attributes := [.mapping [(.text "name", .text "post_id"), (.text "type", .text "foreignId")]]
    relations := [.mapping [(.text "name", .text "post"), (.text "type", .text "belongsTo"),
      (.text "model", .text "Post")]] }

/-- A module of posts and comments. -/
def blogOfComments : ModuleDefinition :=
  ⟨"Blog", [{ name := "Post" }, commentOnPost]⟩

/-- All files of a comment have their imports apart. -/
theorem Component.imports_apart_iff_comment :
    Review.errors (blogOfComments.review none true) = [] ∧
      commentOnPost ∈ blogOfComments.components ∧
      ∃ descriptor files,
        commentOnPost.compile (blogOfComments.register blogRegistry) true = .ok descriptor ∧
        (descriptor.generate {} (Config.shelf {} false {}) (some "2024_01_15_103000_00")
          FileKind.all []).files = .ok files ∧
        ∀ file ∈ files, ImportsApart file.content := by
  have passes : Review.errors (blogOfComments.review none true) = [] := by
    rw [← List.isEmpty_iff]
    decide +kernel
  have member : commentOnPost ∈ blogOfComments.components :=
    List.mem_cons_of_mem _ List.mem_cons_self
  have evaluated : (commentOnPost.compile (blogOfComments.register blogRegistry) true).toOption.map
      (fun descriptor => FileKind.all.all fun kind => !decide (descriptor.Clashes [] kind)) =
        some true := by
    decide +kernel
  have given : Descriptor.AreNamed [] := nofun
  have keyed : .migration ∈ FileKind.all → (some "2024_01_15_103000_00").isSome = true :=
    fun _ => rfl
  cases compiled : commentOnPost.compile (blogOfComments.register blogRegistry) true with
  | error error =>
      rw [compiled] at evaluated
      cases evaluated
  | ok descriptor =>
      rw [compiled] at evaluated
      obtain ⟨files, generated, apart⟩ := imports_apart_iff passes member
        hasPlainNamespaces_standard rfl serves_blogRegistry compiled given keyed false {}
      refine ⟨passes, member, descriptor, files, rfl, generated, apart.mpr fun kind chosen => ?_⟩
      simpa using List.all_eq_true.mp (Option.some.inj evaluated) kind chosen

/-- A form. -/
def formComponent : Component :=
  { name := "Form" }

/-- A module of forms. -/
def blogOfForms : ModuleDefinition :=
  ⟨"Blog", [formComponent]⟩

/-- The request of a form has the name of the class that it imports. -/
theorem Component.imports_clash_form :
    Review.errors (blogOfForms.review none true) = [] ∧ formComponent ∈ blogOfForms.components ∧
      ∃ descriptor files,
        formComponent.compile (blogOfForms.register blogRegistry) true = .ok descriptor ∧
        (descriptor.generate {} (Config.shelf {} false {}) none [.request] []).files = .ok files ∧
        ∃ file ∈ files, ¬ ImportsApart file.content := by
  have passes : Review.errors (blogOfForms.review none true) = [] := by
    rw [← List.isEmpty_iff]
    decide +kernel
  have member : formComponent ∈ blogOfForms.components := List.mem_cons_self
  have evaluated : (formComponent.compile (blogOfForms.register blogRegistry) true).toOption.map
      (fun descriptor => decide (descriptor.Clashes [] .request)) = some true := by
    decide +kernel
  have given : Descriptor.AreNamed [] := nofun
  cases compiled : formComponent.compile (blogOfForms.register blogRegistry) true with
  | error error =>
      rw [compiled] at evaluated
      cases evaluated
  | ok descriptor =>
      rw [compiled] at evaluated
      have suits := formComponent.suits passes member hasPlainNamespaces_standard
        serves_blogRegistry compiled given
      have keyed : .migration ∈ [FileKind.request] → (none : Option String).isSome = true := by
        decide
      obtain ⟨files, generated, apart⟩ := suits.exists_files_apart_iff rfl keyed false {}
      refine ⟨passes, member, descriptor, files, rfl, generated, ?_⟩
      by_contra noClash
      push Not at noClash
      exact apart.mp noClash .request (List.mem_singleton_self _)
        (of_decide_eq_true (Option.some.inj evaluated))

end Scaffold
