import Scaffold.Proofs.Migration.ExistingKeys
import Scaffold.Proofs.Output.Aggregates

/-!
# The bundle of an entity

An entity that is generated as a whole has one file in each of its folders.  Two entities meet in a
file only when they have the same table, and an entity meets an aggregate only in the seeder of the
module.
-/

namespace Scaffold

open Scaffold.Stub (Shelf)

/-! ## Places -/

/-- The folders of the classes of an entity, with the suffixes of their names. -/
def bundleLayers (config : Config) : List (String × String) :=
  [("Models", ""), ("Http/Controllers", "Controller"), ("Http/Requests", "Request"),
    ("Services/Contracts", "ServiceInterface"), ("Services", "Service"),
    ("Repositories/Contracts", "RepositoryInterface"), ("Repositories", "Repository"),
    ("Database/Factories", "Factory"), ("Database/Seeders", "Seeder")] ++
    if config.generateTests then [("Tests/Unit", "Test")] else []

/-- The places of the files of an entity, each a folder and a name. -/
def bundlePlaces (config : Config) (entity table key : String) : List (String × String) :=
  ("Database/Migrations", Migration.fileName key table) ::
    (bundleLayers config).map fun layer => (layer.1, entity ++ layer.2 ++ ".php")

/-- The places of the aggregates of a module. -/
def aggregatePlaces (config : Config) (module : String) : List (String × String) :=
  [("Providers", module ++ "ServiceProvider" ++ ".php"), ("routes", "api" ++ ".php"),
    ("Database/Seeders", module ++ "DatabaseSeeder" ++ ".php"), ("config", "config" ++ ".php")] ++
    if config.generateWebRoutes then [("routes", "web" ++ ".php")] else []

/-- The path of a place. -/
def placePath (place : String × String) : String :=
  place.1 ++ "/" ++ place.2

/-- The paths of the files of an entity. -/
def bundlePaths (config : Config) (entity table key : String) : List String :=
  (bundlePlaces config entity table key).map placePath

/-- The folders of an entity are different. -/
theorem nodup_bundleLayers (config : Config) :
    ("Database/Migrations" :: (bundleLayers config).map (·.1)).Nodup := by
  cases tests : config.generateTests <;> simp only [bundleLayers, tests] <;> decide

theorem forall_mem_bundleLayers (config : Config) :
    ∀ layer ∈ bundleLayers config,
      layer.1 ∈ fileFolders ∧ layer.2.toList.all Char.isAlphanum = true ∧
        layer.1 ∉ ["Providers", "routes", "config"] ∧
          (layer.1 = "Database/Seeders" → layer.2 = "Seeder") := by
  cases tests : config.generateTests <;> simp only [bundleLayers, tests] <;> decide

/-- Every file of an entity lies in its place. -/
theorem liesIn_of_mem_bundlePlaces
    {config : Config} {entity table key : String}
    (entityNamed : ∀ c ∈ entity.toList, c.isAlphanum = true)
    (tableNamed : ∀ c ∈ table.toList, Text.IsNameCharacter c)
    (keyed : ∀ c ∈ key.toList, Migration.IsKeyCharacter c) {place : String × String}
    (member : place ∈ bundlePlaces config entity table key) :
    LiesIn (placePath place) place.1 place.2 := by
  rcases List.mem_cons.mp member with rfl | among
  · have fileKey : IsFileKey key := fun slash => absurd (keyed '/' slash) (by decide)
    exact liesIn_migration fileKey tableNamed
  · obtain ⟨layer, listed, rfl⟩ := List.mem_map.mp among
    obtain ⟨folder, suffix, _⟩ := forall_mem_bundleLayers config layer listed
    exact liesIn_php layer.1 folder rfl (isAlphanum_append entityNamed suffix)

/-- Every aggregate lies in its place. -/
theorem liesIn_of_mem_aggregatePlaces
    {config : Config} {module : String} (named : ∀ c ∈ module.toList, c.isAlphanum = true)
    {place : String × String} (member : place ∈ aggregatePlaces config module) :
    LiesIn (placePath place) place.1 place.2 := by
  have fixed {folder name : String} (folders : folder ∈ fileFolders)
      (alphanum : name.toList.all Char.isAlphanum = true) :
      LiesIn (placePath (folder, name ++ ".php")) folder (name ++ ".php") :=
    liesIn_php folder folders rfl (List.all_eq_true.mp alphanum)
  have web : place ∈ [("routes", "web" ++ ".php")] → LiesIn (placePath place) place.1 place.2 := by
    intro here
    rw [List.mem_singleton.mp here]
    exact fixed (by decide) (by decide)
  rw [aggregatePlaces, List.mem_append] at member
  rcases member with always | onRequest
  · simp only [List.mem_cons, List.not_mem_nil, or_false] at always
    rcases always with rfl | rfl | rfl | rfl
    · exact liesIn_php "Providers" (by decide) rfl (isAlphanum_append named (by decide))
    · exact fixed (by decide) (by decide)
    · exact liesIn_php "Database/Seeders" (by decide) rfl
        (isAlphanum_append named (by decide))
    · exact fixed (by decide) (by decide)
  · split_ifs at onRequest
    · exact web onRequest
    · cases onRequest

/-! ## Places that meet -/

/-- Migrations of one name are of one table. -/
theorem Migration.table_eq_of_fileName_eq
    {first second table other : String} (inFirst : ∀ c ∈ first.toList, IsKeyCharacter c)
    (inSecond : ∀ c ∈ second.toList, IsKeyCharacter c)
    (same : fileName first table = fileName second other) : table = other := by
  have cut {key : String} (name : String) (keyed : ∀ c ∈ key.toList, IsKeyCharacter c) :
      (fileName key name).toList.dropWhile (fun c => decide (IsKeyCharacter c)) =
        "create_".toList ++ (name.toList ++ tableMark) := by
    have begins : "create_".toList = 'c' :: "reate_".toList := by decide
    have shape : (fileName key name).toList =
        (key.toList ++ ['_']) ++ ("create_".toList ++ (name.toList ++ tableMark)) := by
      have mark : createMark = '_' :: "create_".toList := by decide
      simp only [toList_fileName, mark, List.append_assoc, List.cons_append, List.nil_append]
    have inKey : ∀ c ∈ key.toList ++ ['_'], decide (IsKeyCharacter c) = true := by
      intro c inside
      rcases List.mem_append.mp inside with before | last
      · exact decide_eq_true (keyed c before)
      · rw [List.mem_singleton.mp last]
        decide
    rw [shape, List.dropWhile_append_of_pos inKey, begins, List.cons_append,
      List.dropWhile_cons_of_neg (by decide)]
  have rest := cut table inFirst
  rw [same, cut other inSecond, List.append_cancel_left_eq, List.append_cancel_right_eq] at rest
  exact (String.toList_inj.mp rest).symm

theorem eq_of_append_append_eq {first second suffix ending : String}
    (same : first ++ suffix ++ ending = second ++ suffix ++ ending) : first = second := by
  have letters := congrArg String.toList same
  simp only [String.toList_append, List.append_cancel_right_eq] at letters
  exact String.toList_inj.mp letters

/-- Different entities meet only in the migration of one table. -/
theorem eq_of_mem_bundlePlaces
    {config : Config} {entity table key other otherTable otherKey : String}
    (keyed : ∀ c ∈ key.toList, Migration.IsKeyCharacter c)
    (otherKeyed : ∀ c ∈ otherKey.toList, Migration.IsKeyCharacter c) {place : String × String}
    (member : place ∈ bundlePlaces config entity table key)
    (again : place ∈ bundlePlaces config other otherTable otherKey) :
    entity = other ∨ table = otherTable := by
  obtain ⟨noMigration, folders⟩ := List.nodup_cons.mp (nodup_bundleLayers config)
  have apart {layer : String × String} (listed : layer ∈ bundleLayers config) :
      layer.1 ≠ "Database/Migrations" := by
    rintro same
    exact noMigration (same ▸ List.mem_map_of_mem listed)
  rcases List.mem_cons.mp member with rfl | among
  · rcases List.mem_cons.mp again with same | amongOther
    · exact .inr (Migration.table_eq_of_fileName_eq keyed otherKeyed (Prod.mk.inj same).2)
    · obtain ⟨layer, listed, same⟩ := List.mem_map.mp amongOther
      exact absurd (Prod.mk.inj same).1 (apart listed)
  · obtain ⟨layer, listed, rfl⟩ := List.mem_map.mp among
    rcases List.mem_cons.mp again with same | amongOther
    · exact absurd (Prod.mk.inj same).1 (apart listed)
    · obtain ⟨another, otherListed, same⟩ := List.mem_map.mp amongOther
      obtain ⟨sameFolder, sameName⟩ := Prod.mk.inj same
      obtain rfl := List.inj_on_of_nodup_map folders otherListed listed sameFolder
      exact .inl (eq_of_append_append_eq sameName).symm

/-- An entity meets an aggregate only in the seeder of the module. -/
theorem entity_eq_of_mem_aggregatePlaces
    {config : Config} {module entity table key : String} {place : String × String}
    (member : place ∈ bundlePlaces config entity table key)
    (again : place ∈ aggregatePlaces config module) :
    entity = module ++ "Database" := by
  have folder : place.1 ∈ ["Providers", "routes", "config"] ∨
      place = ("Database/Seeders", module ++ "DatabaseSeeder" ++ ".php") := by
    rw [aggregatePlaces, List.mem_append] at again
    rcases again with always | onRequest
    · simp only [List.mem_cons, List.not_mem_nil, or_false] at always
      rcases always with rfl | rfl | rfl | rfl <;> simp
    · split_ifs at onRequest
      · simp [List.mem_singleton.mp onRequest]
      · cases onRequest
  rcases List.mem_cons.mp member with rfl | among
  · simp at folder
  · obtain ⟨layer, listed, rfl⟩ := List.mem_map.mp among
    obtain ⟨_, _, others, seeder⟩ := forall_mem_bundleLayers config layer listed
    obtain ⟨sameFolder, sameName⟩ := Prod.mk.inj (folder.resolve_left others)
    rw [seeder sameFolder] at sameName
    have split : module ++ "DatabaseSeeder" = module ++ "Database" ++ "Seeder" := by
      rw [String.append_assoc]
      rfl
    rw [split] at sameName
    exact eq_of_append_append_eq sameName

theorem mem_bundlePlaces_seeder (config : Config) (entity table key : String) :
    ("Database/Seeders", entity ++ "Seeder" ++ ".php") ∈ bundlePlaces config entity table key := by
  apply List.mem_cons_of_mem
  apply List.mem_map_of_mem (a := ("Database/Seeders", "Seeder"))
  apply List.mem_append_left
  decide

/-! ## Places that stay apart -/

theorem nodup_bundlePlaces (config : Config) (entity table key : String) :
    (bundlePlaces config entity table key).Nodup := by
  apply List.Nodup.of_map (·.1)
  rw [bundlePlaces, List.map_cons, List.map_map]
  exact nodup_bundleLayers config

theorem nodup_aggregatePlaces (config : Config) (module : String) :
    (aggregatePlaces config module).Nodup := by
  cases web : config.generateWebRoutes <;> simp [aggregatePlaces, web]

variable {config : Config} {module : String} {descriptors : List Descriptor}

/-- The places of the files of whole entities, each with the key of its migration. -/
def entityPlaces (config : Config) (keyOf : Descriptor → String) (descriptors : List Descriptor) :
    List (String × String) :=
  descriptors.flatMap fun descriptor =>
    bundlePlaces config descriptor.entity descriptor.table (keyOf descriptor)

/-- Entities of different tables stay apart. -/
theorem nodup_entityPlaces
    {keyOf : Descriptor → String}
    (keyed : ∀ descriptor ∈ descriptors, ∀ c ∈ (keyOf descriptor).toList,
      Migration.IsKeyCharacter c)
    (entities : (descriptors.map (·.entity)).Nodup) (tables : (descriptors.map (·.table)).Nodup) :
    (entityPlaces config keyOf descriptors).Nodup := by
  apply List.nodup_flatMap.mpr
  constructor
  · intro descriptor _
    exact nodup_bundlePlaces config _ _ _
  · have apart := (List.pairwise_map.mp entities).and (List.pairwise_map.mp tables)
    apply apart.imp_of_mem
    intro first second among amongOther different place member again
    rcases eq_of_mem_bundlePlaces (keyed first among) (keyed second amongOther) member again with
      sameEntity | sameTable
    · exact different.1 sameEntity
    · exact different.2 sameTable

/-- The files of a module stay apart unless an entity has the name of the module's seeder. -/
theorem nodup_places_iff
    {keyOf : Descriptor → String}
    (keyed : ∀ descriptor ∈ descriptors, ∀ c ∈ (keyOf descriptor).toList,
      Migration.IsKeyCharacter c)
    (entities : (descriptors.map (·.entity)).Nodup) (tables : (descriptors.map (·.table)).Nodup) :
    (entityPlaces config keyOf descriptors ++ aggregatePlaces config module).Nodup ↔
      module ++ "Database" ∉ descriptors.map (·.entity) := by
  have seeder : module ++ "DatabaseSeeder" = module ++ "Database" ++ "Seeder" := by
    rw [String.append_assoc]
    rfl
  rw [List.nodup_append]
  constructor
  · rintro ⟨_, _, apart⟩ named
    obtain ⟨descriptor, among, same⟩ := List.mem_map.mp named
    have member : ("Database/Seeders", module ++ "DatabaseSeeder" ++ ".php") ∈
        bundlePlaces config descriptor.entity descriptor.table (keyOf descriptor) := by
      rw [seeder, ← same]
      exact mem_bundlePlaces_seeder _ _ _ _
    apply apart _ (List.mem_flatMap.mpr ⟨descriptor, among, member⟩) _ _ rfl
    simp [aggregatePlaces]
  · intro unnamed
    refine ⟨nodup_entityPlaces keyed entities tables, nodup_aggregatePlaces config module, ?_⟩
    rintro place member _ again rfl
    obtain ⟨descriptor, among, within⟩ := List.mem_flatMap.mp member
    rw [← entity_eq_of_mem_aggregatePlaces within again] at unnamed
    exact unnamed (List.mem_map_of_mem among)

/-- Places of files are as different as their paths. -/
theorem nodup_map_placePath_iff
    {places : List (String × String)}
    (lie : ∀ place ∈ places, LiesIn (placePath place) place.1 place.2) :
    (places.map placePath).Nodup ↔ places.Nodup := by
  constructor
  · exact .of_map _
  · intro nodup
    apply nodup.map_on
    intro first member second otherMember same
    have here := lie first member
    rw [same] at here
    obtain ⟨folder, name⟩ := here.unique (lie second otherMember)
    exact Prod.ext folder name

/-! ## Plans -/

/-- The plans of all files of an entity. -/
def Descriptor.wholePlans (config : Config) (key : String) (descriptor : Descriptor) :
    List FilePlan :=
  [descriptor.modelPlan config descriptor.entity, descriptor.migrationPlan key,
    descriptor.controllerPlan config (descriptor.entity ++ "Controller") none,
    descriptor.requestPlan config (descriptor.entity ++ "Request")] ++
    descriptor.servicePlans config none ++ descriptor.repositoryPlans config none ++
    [descriptor.factoryPlan config, descriptor.seederPlan config] ++
    if config.generateTests then [descriptor.testPlan config] else []

theorem Descriptor.allPlans_standard (config : Config) (key : String) (descriptor : Descriptor) :
    descriptor.allPlans config (some key) (FileKind.standard config) [] =
      (descriptor.wholePlans config key).map .ok := by
  cases tests : config.generateTests <;>
    simp [allPlans, FileKind.standard, FileKind.all, tests, plans, wholePlans, Keyed.get?]

theorem path_eq_placePath
    (folder suffix : String) {start ending : String} (slashed : start = folder ++ "/")
    (ended : ending = suffix ++ ".php") (name : String) :
    start ++ name ++ ending = placePath (folder, name ++ suffix ++ ".php") :=
  path_eq_suffix slashed ended name

theorem path_append_eq_placePath
    (folder suffix : String) {start : String} (slashed : start = folder ++ "/") (name : String) :
    start ++ (name ++ suffix) ++ ".php" = placePath (folder, name ++ suffix ++ ".php") :=
  path_eq slashed (name ++ suffix)

/-- The contract of a class is named after the class. -/
theorem contractPath_eq_placePath
    (folder suffix : String) {start contract : String} (slashed : start = folder ++ "/")
    (joined : suffix ++ "Interface" = contract) (name : String) :
    start ++ (name ++ suffix ++ "Interface") ++ ".php" =
      placePath (folder, name ++ contract ++ ".php") := by
  have whole : name ++ suffix ++ "Interface" = name ++ contract := by
    rw [String.append_assoc, joined]
  rw [whole]
  exact path_append_eq_placePath folder contract slashed name

namespace Descriptor

theorem paths_wholePlans (config : Config) (key : String) (descriptor : Descriptor) :
    ((descriptor.wholePlans config key).map (·.path)).Perm
      (bundlePaths config descriptor.entity descriptor.table key) := by
  have model : (descriptor.modelPlan config descriptor.entity).path =
      placePath ("Models", descriptor.entity ++ "" ++ ".php") :=
    path_eq_placePath "Models" "" (by decide) (by decide) _
  have migration : (descriptor.migrationPlan key).path =
      placePath ("Database/Migrations", Migration.fileName key descriptor.table) := by
    rw [placePath, ← (by decide : "Database/Migrations/" = "Database/Migrations" ++ "/")]
    rfl
  have controller :
      (descriptor.controllerPlan config (descriptor.entity ++ "Controller") none).path =
        placePath ("Http/Controllers", descriptor.entity ++ "Controller" ++ ".php") :=
    path_append_eq_placePath "Http/Controllers" "Controller" (by decide) _
  have request : (descriptor.requestPlan config (descriptor.entity ++ "Request")).path =
      placePath ("Http/Requests", descriptor.entity ++ "Request" ++ ".php") :=
    path_append_eq_placePath "Http/Requests" "Request" (by decide) _
  have service : (descriptor.servicePlans config none).map (·.path) =
      [placePath ("Services/Contracts", descriptor.entity ++ "ServiceInterface" ++ ".php"),
        placePath ("Services", descriptor.entity ++ "Service" ++ ".php")] :=
    congrArg₂ (fun contract own => [contract, own])
      (contractPath_eq_placePath "Services/Contracts" "Service" (by decide)
        (by decide) _)
      (path_append_eq_placePath "Services" "Service" (by decide) _)
  have repository : (descriptor.repositoryPlans config none).map (·.path) =
      [placePath ("Repositories/Contracts", descriptor.entity ++ "RepositoryInterface" ++ ".php"),
        placePath ("Repositories", descriptor.entity ++ "Repository" ++ ".php")] :=
    congrArg₂ (fun contract own => [contract, own])
      (contractPath_eq_placePath "Repositories/Contracts" "Repository" (by decide)
        (by decide) _)
      (path_append_eq_placePath "Repositories" "Repository" (by decide) _)
  have factory : (descriptor.factoryPlan config).path =
      placePath ("Database/Factories", descriptor.entity ++ "Factory" ++ ".php") :=
    path_eq_placePath "Database/Factories" "Factory" (by decide) (by decide) _
  have seeder : (descriptor.seederPlan config).path =
      placePath ("Database/Seeders", descriptor.entity ++ "Seeder" ++ ".php") :=
    path_eq_placePath "Database/Seeders" "Seeder" (by decide) (by decide) _
  have test : (descriptor.testPlan config).path =
      placePath ("Tests/Unit", descriptor.entity ++ "Test" ++ ".php") :=
    path_eq_placePath "Tests/Unit" "Test" (by decide) (by decide) _
  rw [wholePlans, bundlePaths, bundlePlaces, bundleLayers]
  split_ifs
  · simp only [List.map_append, List.map_cons, List.map_nil, model, migration, controller, request,
      service, repository, factory, seeder, test]
    exact .swap _ _ _
  · simp only [List.map_append, List.map_cons, List.map_nil, model, migration, controller, request,
      service, repository, factory, seeder]
    exact .swap _ _ _

end Descriptor

theorem Aggregate.paths_plans (config : Config) (module : String)
    (entities seeders : List String) :
    (Aggregate.plans config module entities seeders).map (·.path) =
      (aggregatePlaces config module).map placePath := by
  have provider : (providerPlan config module entities).path =
      placePath ("Providers", module ++ "ServiceProvider" ++ ".php") :=
    path_eq_placePath "Providers" "ServiceProvider" (by decide) (by decide) _
  have api : (apiPlan config module entities).path = placePath ("routes", "api" ++ ".php") :=
    (by decide : "routes/api.php" = placePath ("routes", "api" ++ ".php"))
  have web : (webPlan config module entities).path = placePath ("routes", "web" ++ ".php") :=
    (by decide : "routes/web.php" = placePath ("routes", "web" ++ ".php"))
  have seeder : (seederPlan config module seeders).path =
      placePath ("Database/Seeders", module ++ "DatabaseSeeder" ++ ".php") :=
    path_eq_placePath "Database/Seeders" "DatabaseSeeder" (by decide) (by decide) _
  have settings : (settingsPlan module).path = placePath ("config", "config" ++ ".php") :=
    (by decide : "config/config.php" = placePath ("config", "config" ++ ".php"))
  rw [plans, aggregatePlaces]
  split_ifs
  · simp only [List.map_append, List.map_cons, List.map_nil, provider, api, web, seeder, settings]
  · simp only [List.map_append, List.map_cons, List.map_nil, provider, api, seeder, settings]

/-! ## Rendering -/

namespace Descriptor

variable {shelf : Shelf} {descriptor : Descriptor}

theorem exists_load_of_mem_stubs
    (builtin : shelf.load = Shelf.standard.load) {kind : FileKind} {name : String}
    (member : name ∈ kind.stubs) : ∃ text, shelf.load name = .ok text := by
  have checked : ∀ name ∈ kind.stubs, (Keyed.get? Stub.builtin name).isSome = true := by
    cases kind <;> decide
  rw [builtin]
  exact Shelf.load_standard (checked name member)

/-- An entity with a key is rendered as a whole. -/
theorem generate_whole
    (config : Config) (builtin : shelf.load = Shelf.standard.load) (named : descriptor.IsNamed)
    {key : String} (keyed : ∀ c ∈ key.toList, Migration.IsKeyCharacter c) :
    ∃ files, (descriptor.generate config shelf (some key) (FileKind.standard config) []).files =
        .ok files ∧
      (files.map (·.path)).Perm (bundlePaths config descriptor.entity descriptor.table key) := by
  obtain ⟨_, _, _, _, entity⟩ := Text.exists_of_isClassName named.entity
  have paths := paths_wholePlans config key descriptor
  have loads : ∀ plan ∈ descriptor.wholePlans config key,
      ∃ text, shelf.load plan.stub = .ok text := by
    intro plan member
    have planned :
        .ok plan ∈ descriptor.allPlans config (some key) (FileKind.standard config) [] := by
      rw [allPlans_standard]
      exact List.mem_map_of_mem member
    obtain ⟨kind, _, among⟩ := List.mem_flatMap.mp planned
    exact exists_load_of_mem_stubs builtin (stub_mem_stubs among)
  have apart : ((descriptor.wholePlans config key).map (·.path)).Nodup := by
    rw [paths.nodup_iff, bundlePaths, nodup_map_placePath_iff]
    · exact nodup_bundlePlaces config _ _ _
    · intro place
      exact liesIn_of_mem_bundlePlaces entity named.tableCharacters keyed
  obtain ⟨pairs, rendered⟩ := exists_files_of_renderPlans loads [] []
  have generated : ∃ files,
      (descriptor.generate config shelf (some key) (FileKind.standard config) []).files =
        .ok files := by
    rw [generate, allPlans_standard, Rendering.output, rendered]
    exact ⟨_, rfl⟩
  obtain ⟨files, generated⟩ := generated
  have own := generated
  rw [generate, allPlans_standard] at own
  refine ⟨files, generated, ?_⟩
  rw [map_path_of_output own apart]
  exact paths

/-- An entity without a key is not rendered. -/
theorem generate_keyless
    (config : Config) (builtin : shelf.load = Shelf.standard.load) (descriptor : Descriptor) :
    (descriptor.generate config shelf none (FileKind.standard config) []).files =
      .error (.keyMissing descriptor.entity) := by
  have begins : ∃ rest, descriptor.allPlans config none (FileKind.standard config) [] =
      .ok (descriptor.modelPlan config descriptor.entity) ::
        .error (.keyMissing descriptor.entity) :: rest := by
    exact ⟨_, rfl⟩
  obtain ⟨rest, planned⟩ := begins
  have first : FileKind.model.name ∈ FileKind.model.stubs := List.mem_singleton_self _
  obtain ⟨text, loaded⟩ := exists_load_of_mem_stubs builtin first
  have modelLoads :
      shelf.load (descriptor.modelPlan config descriptor.entity).stub = .ok text := loaded
  rw [generate, planned, renderPlans, Shelf.render_of_load modelLoads]
  rfl

end Descriptor

end Scaffold
