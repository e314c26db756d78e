import Scaffold.Proofs.Ledger.Saving
import Scaffold.Proofs.Output.BuiltinFiles

/-!
# Files of chosen kinds

The files of an entity may be generated for some kinds only, and with names for their classes.  With
the names that the classes have anyhow, what is generated is that part of all files of the entity
which belongs to the chosen kinds.
-/

namespace Scaffold

open Scaffold.Stub (Shelf)

/-! ## Chosen kinds -/

namespace FileKind

theorem ofName?_eq_some_iff_eq_name {spelling : String} {kind : FileKind} :
    ofName? spelling = some kind ↔ spelling = kind.name := by
  constructor
  · intro found
    have named := List.find?_some found
    exact (eq_of_beq named).symm
  · rintro rfl
    cases kind <;> rfl

theorem ofName?_eq_none_iff {spelling : String} :
    ofName? spelling = none ↔ ∀ kind : FileKind, kind.name ≠ spelling := by
  constructor
  · rintro none kind rfl
    rw [ofName?_eq_some_iff_eq_name.mpr rfl] at none
    cases none
  · intro unknown
    cases found : ofName? spelling with
    | none => rfl
    | some kind => exact absurd (ofName?_eq_some_iff_eq_name.mp found).symm (unknown kind)

/-- The kinds with the given names, in the order in which they are generated. -/
def chosen (components : List String) : List FileKind :=
  all.filter (components.contains ·.name)

theorem mem_chosen_iff {components : List String} {kind : FileKind} :
    kind ∈ chosen components ↔ kind.name ∈ components := by
  have listed : kind ∈ all := by cases kind <;> decide
  simp [chosen, listed]

theorem filter_contains_chosen (components : List String) :
    all.filter ((chosen components).contains ·) = chosen components := by
  refine List.filter_congr fun kind _ => ?_
  rw [Bool.eq_iff_iff, List.contains_iff_mem, List.contains_iff_mem, mem_chosen_iff]

theorem chosen_all : chosen (all.map (·.name)) = all := by
  decide

/-- The kinds of names are those with these names, unless some name is unknown. -/
theorem ofNames_spec (components : List String) :
    (∃ kinds, ofNames components = .ok kinds ∧
        all.filter (kinds.contains ·) = chosen components ∧
        ∀ name ∈ components, ∃ kind : FileKind, kind.name = name) ∨
      ∃ unknown, ofNames components = .error (.unknownKinds unknown) ∧ unknown ≠ [] ∧
        unknown.Pairwise (· < ·) ∧
        ∀ name, name ∈ unknown ↔ name ∈ components ∧ ∀ kind : FileKind, kind.name ≠ name := by
  have listed (name : String) :
      name ∈ distinct (components.filter fun name => (ofName? name).isNone) ↔
        name ∈ components ∧ ∀ kind : FileKind, kind.name ≠ name := by
    rw [mem_distinct, List.mem_filter, Option.isNone_iff_eq_none, ofName?_eq_none_iff]
  have apart := nodup_distinct (components.filter fun name => (ofName? name).isNone)
  rw [ofNames]
  generalize distinct (components.filter fun name => (ofName? name).isNone) = unknown
    at listed apart
  cases unknown with
  | nil =>
      refine .inl ⟨_, rfl, List.filter_congr fun kind _ => ?_, fun name member => ?_⟩
      · rw [Bool.eq_iff_iff, List.contains_iff_mem, List.contains_iff_mem, List.mem_filterMap]
        simp [ofName?_eq_some_iff_eq_name]
      · by_contra unknown
        exact List.not_mem_nil ((listed name).mpr ⟨member, not_exists.mp unknown⟩)
  | cons first rest =>
      refine .inr ⟨_, rfl, ?_, sortedTexts_pairwise_lt apart, fun name => ?_⟩
      · exact List.ne_nil_of_mem (mem_sortedTexts.mpr List.mem_cons_self)
      · rw [mem_sortedTexts, listed]

/-- A path lies in the folder of one kind only. -/
theorem eq_of_folder_isPrefix
    {kind other : FileKind} {path : List Char} (first : kind.folder.toList <+: path)
    (second : other.folder.toList <+: path) : kind = other := by
  have apart : ∀ kind ∈ all, ∀ other ∈ all, kind.folder.toList <+: other.folder.toList →
      kind = other := by
    decide
  have every (kind : FileKind) : kind ∈ all := by cases kind <;> decide
  rcases List.prefix_or_prefix_of_prefix first second with within | within
  · exact apart _ (every _) _ (every _) within
  · exact (apart _ (every _) _ (every _) within).symm

/-- What the name of a class of a kind ends with, if the name may be given. -/
def suffix? : FileKind → Option String
  | model => some ""
  | controller => some "Controller"
  | request => some "Request"
  | service => some "Service"
  | repository => some "Repository"
  | _ => none

end FileKind

namespace Descriptor

/-- The names that are given for the classes of an entity are the ones that they have anyhow. -/
def HasDefaultNames (names : Keyed String) (descriptor : Descriptor) : Prop :=
  ∀ (kind : FileKind) (suffix : String), kind.suffix? = some suffix →
    ∀ name, Keyed.get? names kind.name = some name → name = descriptor.entity ++ suffix

theorem hasDefaultNames_nil (descriptor : Descriptor) : descriptor.HasDefaultNames [] := by
  intro kind suffix _ name given
  cases given

/-- The path of a class in a folder. -/
def classPath (folder name : String) : String :=
  folder ++ name ++ ".php"

/-- The paths of the files of a kind. -/
def paths (key : Option String) (descriptor : Descriptor) : FileKind → List String
  | .model => [classPath "Models/" descriptor.entity]
  | .migration => key.toList.map fun key =>
      "Database/Migrations/" ++ Migration.fileName key descriptor.table
  | .controller => [classPath "Http/Controllers/" (descriptor.entity ++ "Controller")]
  | .request => [classPath "Http/Requests/" (descriptor.entity ++ "Request")]
  | .service =>
      [classPath "Services/Contracts/" (descriptor.entity ++ "Service" ++ "Interface"),
        classPath "Services/" (descriptor.entity ++ "Service")]
  | .repository =>
      [classPath "Repositories/Contracts/" (descriptor.entity ++ "Repository" ++ "Interface"),
        classPath "Repositories/" (descriptor.entity ++ "Repository")]
  | .factory => ["Database/Factories/" ++ descriptor.entity ++ "Factory.php"]
  | .seeder => ["Database/Seeders/" ++ descriptor.entity ++ "Seeder.php"]
  | .test => ["Tests/Unit/" ++ descriptor.entity ++ "Test.php"]

/-- What keeps the files of the kinds with the given names from being generated. -/
inductive Obstacle (shelf : Shelf) (key : Option String) (components : List String)
    (descriptor : Descriptor) : RenderError → Prop where
  | unknownKinds {names : List String} (nonempty : names ≠ []) (sorted : names.Pairwise (· < ·))
      (unknown : ∀ name, name ∈ names ↔ name ∈ components ∧ ∀ kind : FileKind, kind.name ≠ name) :
      Obstacle shelf key components descriptor (.unknownKinds names)
  | keyMissing (chosen : "migration" ∈ components) (missing : key = none) :
      Obstacle shelf key components descriptor (.keyMissing descriptor.entity)
  | stub {kind : FileKind} {name : String} {error : Stub.StubError}
      (chosen : kind.name ∈ components) (own : name ∈ kind.stubs)
      (fails : shelf.load name = .error error) :
      Obstacle shelf key components descriptor (.stub error)

/-! ## Plans by default names -/

section Plans

variable {config : Config} {key : Option String} {names : Keyed String} {descriptor : Descriptor}

theorem controllerPlan_of_nameOr {name : String} {left right : Option String}
    (same : Text.nameOr left (descriptor.entity ++ "Request") =
      Text.nameOr right (descriptor.entity ++ "Request")) :
    descriptor.controllerPlan config name left = descriptor.controllerPlan config name right := by
  unfold controllerPlan
  dsimp only
  rw [same]

theorem servicePlans_of_nameOr {left right : Option String}
    (same : Text.nameOr left (descriptor.entity ++ "Service") =
      Text.nameOr right (descriptor.entity ++ "Service")) :
    descriptor.servicePlans config left = descriptor.servicePlans config right := by
  unfold servicePlans
  dsimp only
  rw [same]

theorem repositoryPlans_of_nameOr {left right : Option String}
    (same : Text.nameOr left (descriptor.entity ++ "Repository") =
      Text.nameOr right (descriptor.entity ++ "Repository")) :
    descriptor.repositoryPlans config left = descriptor.repositoryPlans config right := by
  unfold repositoryPlans
  dsimp only
  rw [same]

/-- Names that the classes have anyhow need not be given. -/
theorem plans_of_hasDefaultNames (defaults : descriptor.HasDefaultNames names) (kind : FileKind) :
    descriptor.plans config key names kind = descriptor.plans config key [] kind := by
  have named {kind : FileKind} {suffix : String} (own : kind.suffix? = some suffix) :
      (Keyed.get? names kind.name).getD (descriptor.entity ++ suffix) =
        descriptor.entity ++ suffix := by
    cases given : Keyed.get? names kind.name with
    | none => rfl
    | some name => exact defaults kind suffix own name given
  have replaced {kind : FileKind} {suffix : String} (own : kind.suffix? = some suffix) :
      Text.nameOr (Keyed.get? names kind.name) (descriptor.entity ++ suffix) =
        descriptor.entity ++ suffix := by
    cases given : Keyed.get? names kind.name with
    | none => rfl
    | some name =>
        rw [defaults kind suffix own name given, Text.nameOr]
        split_ifs <;> rfl
  cases kind with
  | model =>
      have name := @named .model _ rfl
      rw [String.append_empty] at name
      calc descriptor.plans config key names .model
        _ = [.ok (descriptor.modelPlan config
              ((Keyed.get? names FileKind.model.name).getD descriptor.entity))] := rfl
        _ = descriptor.plans config key [] .model := by
              rw [name]
              rfl
  | controller =>
      -- A controller names the request of its entity as well.
      calc descriptor.plans config key names .controller
        _ = [.ok (descriptor.controllerPlan config
              ((Keyed.get? names FileKind.controller.name).getD
                (descriptor.entity ++ "Controller"))
              (Keyed.get? names FileKind.request.name))] := rfl
        _ = descriptor.plans config key [] .controller := by
              rw [@named .controller _ rfl,
                @controllerPlan_of_nameOr _ _ _ _ none (@replaced .request _ rfl)]
              rfl
  | request =>
      calc descriptor.plans config key names .request
        _ = [.ok (descriptor.requestPlan config
              ((Keyed.get? names FileKind.request.name).getD (descriptor.entity ++ "Request")))] :=
              rfl
        _ = descriptor.plans config key [] .request := by
              rw [@named .request _ rfl]
              rfl
  | service =>
      exact congrArg (List.map Except.ok)
        (@servicePlans_of_nameOr _ _ _ none (@replaced .service _ rfl))
  | repository =>
      exact congrArg (List.map Except.ok)
        (@repositoryPlans_of_nameOr _ _ _ none (@replaced .repository _ rfl))
  | _ => rfl

theorem map_path_planned (kind : FileKind) :
    (descriptor.planned config key [] kind).map (·.path) = descriptor.paths key kind := by
  cases kind with
  | migration => cases key <;> rfl
  | _ => rfl

theorem map_stub_planned {kind : FileKind} (keyed : kind = .migration → key.isSome = true) :
    (descriptor.planned config key names kind).map (·.stub) = kind.stubs := by
  cases kind with
  | migration =>
      obtain ⟨text, rfl⟩ := Option.isSome_iff_exists.mp (keyed rfl)
      rfl
  | _ => rfl

/-- A contract is not taken for a class beside the folder of contracts, whatever the entity. -/
theorem contractPath_ne_classPath {contracts folder : String} (name : String)
    (inside : folder.length ≤ contracts.length) :
    classPath contracts (name ++ "Interface") ≠ classPath folder name := by
  intro same
  have lengths := congrArg String.length same
  simp only [classPath, String.length_append] at lengths
  have longer : "Interface".length = 9 := rfl
  omega

theorem nodup_paths (kind : FileKind) : (descriptor.paths key kind).Nodup := by
  cases kind with
  | migration => cases key <;> simp [paths]
  | service | repository =>
      refine List.nodup_cons.mpr ⟨fun member => ?_, List.nodup_singleton _⟩
      exact contractPath_ne_classPath _ (by decide) (List.mem_singleton.mp member)
  | _ => exact List.nodup_singleton _

theorem folder_isPrefix_of_mem_paths {kind : FileKind} {path : String}
    (member : path ∈ descriptor.paths key kind) : kind.folder.toList <+: path.toList := by
  rw [← @map_path_planned {}] at member
  obtain ⟨plan, planned, rfl⟩ := List.mem_map.mp member
  exact folder_isPrefix_path planned

/-- The key is of no account for a kind other than migrations. -/
theorem planned_of_key {other : Option String} {kind : FileKind}
    (same : kind = .migration → other = key) :
    descriptor.planned config other [] kind = descriptor.planned config key [] kind := by
  cases kind with
  | migration => rw [same rfl]
  | _ => rfl

end Plans

/-! ## Files of chosen kinds -/

section Files

variable {config : Config} {shelf : Shelf} {key : Option String} {names : Keyed String}
  {components : List String} {descriptor : Descriptor}

/-- The file of a plan, if its stub can be loaded. -/
def fileFrom (shelf : Shelf) (descriptor : Descriptor) (plan : FilePlan) : OutputFile :=
  { path := plan.path, content := plan.contentFrom shelf, entity := some descriptor.entity }

/-- Nothing keeps the files of the kinds with the given names from being generated. -/
structure Allows (shelf : Shelf) (key : Option String) (components : List String) : Prop where
  known : ∀ name ∈ components, ∃ kind : FileKind, kind.name = name
  keyed : "migration" ∈ components → key.isSome = true
  loads : ∀ kind : FileKind, kind.name ∈ components → ∀ name ∈ kind.stubs,
    ∃ stub, shelf.load name = .ok stub

theorem Allows.not_obstacle (allows : Allows shelf key components) (error : RenderError) :
    ¬ descriptor.Obstacle shelf key components error := by
  rintro (@⟨names, nonempty, -, unknown⟩ | ⟨chosen, missing⟩ | @⟨kind, name, _, chosen, own, fails⟩)
  · obtain ⟨name, member⟩ := List.exists_mem_of_ne_nil names nonempty
    obtain ⟨given, apart⟩ := (unknown name).mp member
    obtain ⟨kind, named⟩ := allows.known name given
    exact apart kind named
  · have keyed := allows.keyed chosen
    rw [missing] at keyed
    cases keyed
  · obtain ⟨stub, loaded⟩ := allows.loads kind chosen name own
    rw [loaded] at fails
    cases fails

/-- The files of chosen kinds are those of the plans of these kinds. -/
theorem Allows.generateNamed (allows : Allows shelf key components)
    (defaults : descriptor.HasDefaultNames names) :
    (descriptor.generateNamed config shelf key (some components) names).files =
      .ok (((FileKind.chosen components).flatMap (descriptor.planned config key [])).map
        (descriptor.fileFrom shelf)) := by
  rcases FileKind.ofNames_spec components with
    ⟨kinds, found, chosen, -⟩ | ⟨unknown, -, nonempty, -, apart⟩
  · have plans : descriptor.allPlans config key kinds names =
        (descriptor.allPlanned config key [] kinds).map .ok := by
      rw [← allPlans_eq_allPlanned, allPlans, allPlans,
        List.flatMap_congr fun kind _ => plans_of_hasDefaultNames defaults kind]
      intro migration
      have member : FileKind.migration ∈ FileKind.chosen components := by
        rw [← chosen]
        exact List.mem_filter.mpr ⟨by decide, List.contains_iff_mem.mpr migration⟩
      exact allows.keyed (FileKind.mem_chosen_iff.mp member)
    have loads : ∀ plan ∈ descriptor.allPlanned config key [] kinds,
        ∃ stub, shelf.load plan.stub = .ok stub := by
      rw [allPlanned, chosen]
      intro plan member
      obtain ⟨kind, among, planned⟩ := List.mem_flatMap.mp member
      exact allows.loads kind (FileKind.mem_chosen_iff.mp among) _
        (stub_mem_stubs (mem_planned_iff.mp planned))
    have apart : ((descriptor.allPlanned config key [] kinds).map (·.path)).Nodup :=
      nodup_paths_of_planned (fun kind => by
        rw [map_path_planned]
        exact nodup_paths kind) kinds
    have files := @files_of_renderPlans_of_load _ _ loads [] [] apart
    rw [Descriptor.generateNamed, Option.elim_some, found]
    dsimp only
    rw [generate, Rendering.output, plans, files, ← chosen, allPlanned, List.nil_append,
      Except.map, List.map_map]
    rfl
  · obtain ⟨name, member⟩ := List.exists_mem_of_ne_nil unknown nonempty
    obtain ⟨given, unnamed⟩ := (apart name).mp member
    obtain ⟨kind, named⟩ := allows.known name given
    exact absurd named (unnamed kind)

/-- What stops the generation is in its way. -/
theorem obstacle_of_generateNamed {error : RenderError}
    (stopped : (descriptor.generateNamed config shelf key (some components) names).files =
      .error error) :
    descriptor.Obstacle shelf key components error := by
  rw [Descriptor.generateNamed, Option.elim_some] at stopped
  rcases FileKind.ofNames_spec components with
    ⟨kinds, found, chosen, -⟩ | ⟨unknown, found, nonempty, sorted, apart⟩
  · rw [found] at stopped
    dsimp only at stopped
    rw [generate, Rendering.output] at stopped
    have planStopped : (renderPlans shelf [] []
        (descriptor.allPlans config key kinds names)).files = .error error := by
      cases rendered : (renderPlans shelf [] []
          (descriptor.allPlans config key kinds names)).files with
      | ok files =>
          rw [rendered] at stopped
          cases stopped
      | error other =>
          rw [rendered] at stopped
          cases stopped
          rfl
    rw [allPlans, chosen] at planStopped
    rcases stop_of_renderPlans planStopped with among | ⟨plan, cause, among, fails, rfl⟩
    · obtain ⟨kind, member, planned⟩ := List.mem_flatMap.mp among
      cases kind with
      | migration =>
          cases key with
          | none =>
              cases List.mem_singleton.mp planned
              exact .keyMissing (FileKind.mem_chosen_iff.mp member) rfl
          | some key => cases List.mem_singleton.mp planned
      | service | repository =>
          obtain ⟨_, _, impossible⟩ := List.mem_map.mp planned
          cases impossible
      | _ => cases List.mem_singleton.mp planned
    · obtain ⟨kind, member, planned⟩ := List.mem_flatMap.mp among
      exact .stub (FileKind.mem_chosen_iff.mp member) (stub_mem_stubs planned) fails
  · rw [found] at stopped
    cases stopped
    exact .unknownKinds nonempty sorted apart

/-- Nothing was in the way of files that are generated. -/
theorem allows_of_generateNamed {files : List OutputFile}
    (generated : (descriptor.generateNamed config shelf key (some components) names).files =
      .ok files) :
    Allows shelf key components := by
  rw [Descriptor.generateNamed, Option.elim_some] at generated
  rcases FileKind.ofNames_spec components with
    ⟨kinds, found, chosen, known⟩ | ⟨unknown, found, -, -, -⟩
  · rw [found] at generated
    dsimp only at generated
    rw [generate, Rendering.output, allPlans, chosen] at generated
    cases rendered : (renderPlans shelf [] [] ((FileKind.chosen components).flatMap
        (descriptor.plans config key names))).files with
    | error error =>
        rw [rendered] at generated
        cases generated
    | ok pairs =>
        have keyed : "migration" ∈ components → key.isSome = true := by
          intro migration
          cases key with
          | some key => rfl
          | none =>
              obtain ⟨plan, impossible⟩ := exists_of_mem_of_renderPlans rendered
                (List.mem_flatMap.mpr
                  ⟨.migration, FileKind.mem_chosen_iff.mpr migration, List.mem_singleton_self _⟩)
              cases impossible
        refine ⟨known, keyed, fun kind given name own => ?_⟩
        have stubs := @map_stub_planned config key names descriptor kind (by
          rintro rfl
          exact keyed given)
        rw [← stubs] at own
        obtain ⟨plan, planned, rfl⟩ := List.mem_map.mp own
        exact load_of_mem_of_renderPlans rendered (List.mem_flatMap.mpr
          ⟨kind, FileKind.mem_chosen_iff.mpr given, mem_planned_iff.mp planned⟩)
  · rw [found] at generated
    cases generated

/-- Of the files of all kinds, those of chosen kinds are found by their paths. -/
theorem filter_files_of_paths {wholeKey : Option String} {kinds : List FileKind}
    (same : .migration ∈ kinds → wholeKey = key) (all : List FileKind) :
    ((all.flatMap (descriptor.planned config wholeKey [])).map (descriptor.fileFrom shelf)).filter
        (fun file => file.path ∈ kinds.flatMap (descriptor.paths key)) =
      ((all.filter (kinds.contains ·)).flatMap (descriptor.planned config key [])).map
        (descriptor.fileFrom shelf) := by
  induction all with
  | nil => rfl
  | cons kind rest hypothesis =>
      rw [List.flatMap_cons, List.map_append, List.filter_append, hypothesis, List.filter_cons]
      by_cases member : kind ∈ kinds
      · have own : descriptor.planned config wholeKey [] kind =
            descriptor.planned config key [] kind :=
          planned_of_key fun migration => same (migration ▸ member)
        rw [if_pos (List.contains_iff_mem.mpr member), List.flatMap_cons, List.map_append, own]
        congr 1
        refine List.filter_eq_self.mpr fun file among => ?_
        obtain ⟨plan, planned, rfl⟩ := List.mem_map.mp among
        refine decide_eq_true (List.mem_flatMap.mpr ⟨kind, member, ?_⟩)
        have paths : (descriptor.planned config key [] kind).map (·.path) = _ :=
          map_path_planned kind
        rw [← paths]
        exact List.mem_map_of_mem planned
      · rw [if_neg (by simpa using member)]
        refine List.append_left_eq_self.mpr (List.filter_eq_nil_iff.mpr fun file among => ?_)
        obtain ⟨plan, planned, rfl⟩ := List.mem_map.mp among
        intro listed
        obtain ⟨other, chosen, path⟩ := List.mem_flatMap.mp (of_decide_eq_true listed)
        -- A path starts with the folder of its kind, and the folders of two kinds stand apart.
        have sameKind := FileKind.eq_of_folder_isPrefix (folder_isPrefix_path planned)
          (folder_isPrefix_of_mem_paths path)
        exact member (sameKind ▸ chosen)

/--
Files of chosen kinds are the files of the same paths among those of all kinds, if the names that
are given for classes are the ones that they have anyhow.  Nothing but an unknown kind, a key that
is missing or a stub that cannot be loaded keeps them from being generated, and each of these does.
-/
theorem generateNamed_agrees_with_all
    (defaults : descriptor.HasDefaultNames names) (config : Config) (shelf : Shelf)
    (key : Option String) (components : List String) :
    (∀ error,
      (descriptor.generateNamed config shelf key (some components) names).files = .error error →
        descriptor.Obstacle shelf key components error) ∧
    (∀ error, descriptor.Obstacle shelf key components error →
      ∃ other, (descriptor.generateNamed config shelf key (some components) names).files =
        .error other) ∧
    (∀ files,
      (descriptor.generateNamed config shelf key (some components) names).files = .ok files →
        files.map (·.path) = (FileKind.chosen components).flatMap (descriptor.paths key)) ∧
    ∀ wholeKey whole, ("migration" ∈ components → wholeKey = key) →
      (∀ name ∈ components, ∃ kind : FileKind, kind.name = name) →
      (descriptor.generateNamed config shelf wholeKey (some (FileKind.all.map (·.name))) []).files =
        .ok whole →
      (descriptor.generateNamed config shelf key (some components) names).files =
        .ok (whole.filter fun file =>
          file.path ∈ (FileKind.chosen components).flatMap (descriptor.paths key)) := by
  refine ⟨fun error => obstacle_of_generateNamed, fun error obstacle => ?_,
    fun files generated => ?_, fun wholeKey whole sameKey known all => ?_⟩
  · cases generated :
        (descriptor.generateNamed config shelf key (some components) names).files with
    | error other => exact ⟨other, rfl⟩
    | ok files => exact absurd obstacle ((allows_of_generateNamed generated).not_obstacle error)
  · rw [(allows_of_generateNamed generated).generateNamed defaults] at generated
    rw [← Except.ok.inj generated, List.map_map, List.map_flatMap]
    exact List.flatMap_congr fun kind _ => map_path_planned kind
  · have allowsAll := allows_of_generateNamed all
    have every (kind : FileKind) : kind.name ∈ FileKind.all.map (·.name) :=
      List.mem_map_of_mem (by cases kind <;> decide)
    have allows : Allows shelf key components :=
      { known
        keyed := fun migration => sameKey migration ▸ allowsAll.keyed (every .migration)
        loads := fun kind _ => allowsAll.loads kind (every kind) }
    rw [allowsAll.generateNamed (hasDefaultNames_nil descriptor), FileKind.chosen_all] at all
    rw [allows.generateNamed defaults, ← Except.ok.inj all, filter_files_of_paths fun migration =>
      sameKey (FileKind.mem_chosen_iff.mp migration), FileKind.filter_contains_chosen]

/-- An entity with one field. -/
def postDescriptor : Descriptor where
  entity := "Post"
  module := "Blog"
  table := "posts"
  attributes := [{ name := "title", type := .string }]
  schema := ⟨[], [], []⟩
  fillable := ["title"]
  methods := []
  factory := []
  rules := []
  warnings := []

/-- Names for an entity that are the ones that its classes have anyhow. -/
def postNames : Keyed String :=
  [("service", "PostService"), ("request", "PostRequest"), ("test", "Anything")]

/-- Kinds without a migration need no key, without which not all kinds can be generated. -/
theorem generateNamed_agrees_with_all_posts :
    postDescriptor.HasDefaultNames postNames ∧
      ∃ whole,
        (postDescriptor.generateNamed {} .standard (some "2024_01_15_103000")
          (some (FileKind.all.map (·.name))) []).files = .ok whole ∧
        (postDescriptor.generateNamed {} .standard none
            (some ["service", "controller", "service"]) postNames).files =
          .ok (whole.filter fun file =>
            file.path ∈ ["Http/Controllers/PostController.php",
              "Services/Contracts/PostServiceInterface.php", "Services/PostService.php"]) := by
  have defaults : postDescriptor.HasDefaultNames postNames := by
    have checked : ∀ kind ∈ FileKind.all, ∀ suffix ∈ kind.suffix?,
        ∀ name ∈ Keyed.get? postNames kind.name, name = "Post" ++ suffix := by
      decide
    have every (kind : FileKind) : kind ∈ FileKind.all := by cases kind <;> decide
    exact fun kind => checked kind (every kind)
  have allows : Allows .standard (some "2024_01_15_103000") (FileKind.all.map (·.name)) := by
    have builtin : ∀ kind ∈ FileKind.all, ∀ name ∈ kind.stubs,
        (Keyed.get? Stub.builtin name).isSome = true := by
      decide
    refine ⟨fun name member => ?_, fun _ => rfl, fun kind _ name own => ?_⟩
    · obtain ⟨kind, -, named⟩ := List.mem_map.mp member
      exact ⟨kind, named⟩
    · exact Shelf.load_standard (builtin kind (by cases kind <;> decide) name own)
  have known : ∀ name ∈ ["service", "controller", "service"],
      ∃ kind : FileKind, kind.name = name := by
    simp only [List.forall_mem_cons]
    exact ⟨⟨.service, rfl⟩, ⟨.controller, rfl⟩, ⟨.service, rfl⟩, List.forall_mem_nil _⟩
  have complete := @allows.generateNamed {} _ _ _ _ postDescriptor (hasDefaultNames_nil _)
  exact ⟨defaults, _, complete, (generateNamed_agrees_with_all defaults {} .standard none
    ["service", "controller", "service"]).2.2.2 _ _ (by decide) known complete⟩

end Files

end Descriptor

end Scaffold
