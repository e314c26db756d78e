import Mathlib.Data.List.Perm.Basic
import Scaffold.Proofs.Output.Bundles
import Scaffold.Proofs.Run.KeyRecovery
import Scaffold.Proofs.Run.Rekeying

/-!
# Rendering whole entities

A rendering of whole entities from the built-in stubs is never stopped.  Every entity with a key has
its bundle, and an entity is left without one exactly when the order of migrations leaves it out:
when another entity has the same table.
-/

namespace Scaffold

open Scaffold.Stub (Shelf)

namespace Migration

variable {descriptors : List Descriptor}

/-- Every entity gets a key when no two share a table. -/
theorem isSome_keys_iff
    {tree : Disk.Tree} {folder : Disk.Path} {sequence : Sequence} {keys : Keyed String}
    (distinct : (descriptors.map (·.entity)).Nodup)
    (assigned : (assignKeys tree folder sequence none descriptors).1 = .ok keys) :
    (∀ descriptor ∈ descriptors, (Keyed.get? keys descriptor.entity).isSome = true) ↔
      DistinctTables descriptors := by
  rw [← subset_order_iff distinct]
  apply forall₂_congr
  intro descriptor member
  have wanted : (order descriptors).filter (wantsMigration none) = order descriptors :=
    List.filter_eq_self.mpr fun _ _ => rfl
  rw [isSome_keys_of_assignKeys assigned, wanted, List.any_eq_true]
  constructor
  · rintro ⟨other, placed, same⟩
    have among := (order_isOrderly descriptors).2 placed
    rwa [← List.inj_on_of_nodup_map distinct among member (by simpa using same)]
  · intro placed
    exact ⟨descriptor, placed, beq_self_eq_true _⟩

theorem exists_isSome_keys
    {tree : Disk.Tree} {folder : Disk.Path} {sequence : Sequence} {keys : Keyed String}
    (some : descriptors ≠ [])
    (assigned : (assignKeys tree folder sequence none descriptors).1 = .ok keys) :
    ∃ descriptor ∈ descriptors, (Keyed.get? keys descriptor.entity).isSome = true := by
  obtain ⟨descriptor, placed⟩ := List.exists_mem_of_ne_nil _ (order_ne_nil some)
  refine ⟨descriptor, (order_isOrderly descriptors).2 placed, ?_⟩
  rw [isSome_keys_of_assignKeys assigned, List.any_eq_true]
  exact ⟨descriptor, List.mem_filter.mpr ⟨placed, rfl⟩, beq_self_eq_true _⟩

end Migration

/-- The files that are rendered for an entity are those of a whole entity. -/
def ModuleRendering.HasBundle (rendering : ModuleRendering) (config : Config)
    (entity table : String) : Prop :=
  ∃ key : String, (∀ c ∈ key.toList, Migration.IsKeyCharacter c) ∧
    ((rendering.files.filter (·.entity == some entity)).map (·.path)).Perm
      (bundlePaths config entity table key)

namespace RenderPlan

variable {plan : RenderPlan} {descriptors : List Descriptor} {descriptor : Descriptor}

/-- A plan that renders whole entities from the built-in stubs. -/
structure IsWhole (plan : RenderPlan) : Prop where
  whole : plan.selection = none
  loads : plan.shelf.load = Shelf.standard.load
  keyed : ∀ entity key, Keyed.get? plan.keys entity = some key →
    ∀ c ∈ key.toList, Migration.IsKeyCharacter c

/-! ## Entities -/

theorem IsWhole.filesOf_eq (isWhole : plan.IsWhole) (descriptor : Descriptor) :
    plan.filesOf descriptor =
      (descriptor.generate plan.config plan.shelf (Keyed.get? plan.keys descriptor.entity)
        (FileKind.standard plan.config) []).files := by
  rw [filesOf, kinds, chosen?, isWhole.whole]
  rfl

/-- An entity with a key is rendered as a whole. -/
theorem IsWhole.exists_filesOf
    (isWhole : plan.IsWhole) (named : descriptor.IsNamed) {key : String}
    (given : Keyed.get? plan.keys descriptor.entity = some key) :
    ∃ files, plan.filesOf descriptor = .ok files ∧
      (files.map (·.path)).Perm
        (bundlePaths plan.config descriptor.entity descriptor.table key) := by
  obtain ⟨files, generated, paths⟩ :=
    Descriptor.generate_whole plan.config isWhole.loads named (isWhole.keyed _ key given)
  refine ⟨files, ?_, paths⟩
  rw [isWhole.filesOf_eq, given]
  exact generated

/-- An entity without a key is skipped. -/
theorem IsWhole.filesOf_keyless
    (isWhole : plan.IsWhole) (keyless : Keyed.get? plan.keys descriptor.entity = none) :
    plan.filesOf descriptor = .error (.keyMissing descriptor.entity) := by
  rw [isWhole.filesOf_eq, keyless]
  exact Descriptor.generate_keyless plan.config isWhole.loads descriptor

theorem IsWhole.entityFiles_ne_nil
    (isWhole : plan.IsWhole) (member : descriptor ∈ descriptors) (named : descriptor.IsNamed)
    (given : (Keyed.get? plan.keys descriptor.entity).isSome = true) :
    plan.entityFiles descriptors ≠ [] := by
  obtain ⟨key, given⟩ := Option.isSome_iff_exists.mp given
  obtain ⟨files, found, paths⟩ := isWhole.exists_filesOf named given
  intro nothing
  rw [entityFiles, List.flatMap_eq_nil_iff] at nothing
  have none := nothing descriptor member
  rw [found, Except.toOption, Option.getD_some] at none
  rw [none] at paths
  exact List.cons_ne_nil _ _ paths.symm.eq_nil

theorem IsWhole.filesOf_ne_tooLong (isWhole : plan.IsWhole) (named : descriptor.IsNamed) :
    plan.filesOf descriptor ≠ .error .tooLong := by
  cases given : Keyed.get? plan.keys descriptor.entity with
  | none =>
      rw [isWhole.filesOf_keyless given]
      intro same
      cases same
  | some key =>
      obtain ⟨files, found, _⟩ := isWhole.exists_filesOf named given
      rw [found]
      intro same
      cases same

theorem entity_of_mem_filesOf
    {files : List OutputFile} (found : plan.filesOf descriptor = .ok files) :
    ∀ file ∈ files, file.entity = some descriptor.entity :=
  fun _ member => entity_of_mem_output found member

/-- Of the files of all entities those of one entity are its own. -/
theorem filter_entityFiles
    (distinct : (descriptors.map (·.entity)).Nodup) (member : descriptor ∈ descriptors) :
    (plan.entityFiles descriptors).filter (·.entity == some descriptor.entity) =
      (plan.filesOf descriptor).toOption.getD [] := by
  have own (other : Descriptor) :
      ∀ file ∈ (plan.filesOf other).toOption.getD [], file.entity = some other.entity := by
    cases found : plan.filesOf other with
    | error error => simp [Except.toOption]
    | ok files => exact entity_of_mem_filesOf found
  have apart {other : Descriptor} (different : other.entity ≠ descriptor.entity) :
      ((plan.filesOf other).toOption.getD []).filter (·.entity == some descriptor.entity) = [] := by
    rw [List.filter_eq_nil_iff]
    intro file among
    rw [own other file among]
    simpa using different
  have whole : ((plan.filesOf descriptor).toOption.getD []).filter
      (·.entity == some descriptor.entity) = (plan.filesOf descriptor).toOption.getD [] := by
    rw [List.filter_eq_self]
    intro file among
    simp [own descriptor file among]
  obtain ⟨before, after, rfl⟩ := List.append_of_mem member
  rw [List.map_append, List.map_cons] at distinct
  have others : ∀ other ∈ before ++ after, other.entity ≠ descriptor.entity := by
    intro other among same
    have moved := (List.perm_middle.nodup_iff.mp distinct)
    rw [← List.map_append] at moved
    exact (List.nodup_cons.mp moved).1 (same ▸ List.mem_map_of_mem among)
  have none {part : List Descriptor} (among : part ⊆ before ++ after) :
      (plan.entityFiles part).filter (·.entity == some descriptor.entity) = [] := by
    rw [entityFiles, List.filter_flatMap, List.flatMap_eq_nil_iff]
    intro other here
    exact apart (others other (among here))
  have split : plan.entityFiles (before ++ descriptor :: after) =
      plan.entityFiles before ++ ((plan.filesOf descriptor).toOption.getD [] ++
        plan.entityFiles after) := by
    rw [entityFiles, List.flatMap_append, List.flatMap_cons]
    rfl
  rw [split, List.filter_append, List.filter_append, none (List.subset_append_left _ _), whole,
    none (List.subset_append_right _ _), List.append_nil, List.nil_append]

/-! ## Renderings that are not stopped -/

theorem stopped_addEntities_eq_none
    {state : ModuleRendering} (running : state.stopped = none)
    (short : ∀ descriptor ∈ descriptors, plan.filesOf descriptor ≠ .error .tooLong) :
    (plan.addEntities descriptors state).stopped = none := by
  induction descriptors generalizing state with
  | nil => exact running
  | cons descriptor rest hypothesis =>
      obtain ⟨first, others⟩ := List.forall_mem_cons.mp short
      have next : (plan.addEntity state descriptor).stopped = none := by
        rw [filesOf] at first
        rw [addEntity]
        dsimp only
        split
        · exact running
        · rename_i same
          exact absurd same first
        · exact running
      have step : plan.addEntities (descriptor :: rest) state =
          plan.addEntities rest (plan.addEntity state descriptor) := by
        rw [addEntities, List.foldl_cons, running]
        rfl
      rw [step]
      exact hypothesis next others

theorem IsWhole.aggregatesOf_eq (isWhole : plan.IsWhole) (module : String) (ledger : Ledger) :
    plan.aggregatesOf module ledger = Aggregate.ofLedger plan.config module ledger := by
  rw [aggregatesOf, Aggregate.ofLedger, Aggregate.generate, Aggregate.generate,
    renderPlans_of_load_eq isWhole.loads]

theorem IsWhole.stopped_addAggregates
    (isWhole : plan.IsWhole) (module : String) {state : ModuleRendering}
    (running : state.stopped = none) : (plan.addAggregates module state).stopped = none := by
  obtain ⟨files, rendered⟩ := Aggregate.exists_ofLedger plan.config module state.ledger
  rw [← isWhole.aggregatesOf_eq, aggregatesOf] at rendered
  rw [addAggregates]
  split_ifs
  · exact running
  · dsimp only
    rw [rendered]
    exact running

/-- Whole entities are rendered to the end. -/
theorem IsWhole.stopped_run
    (isWhole : plan.IsWhole) (named : ∀ descriptor ∈ descriptors, descriptor.IsNamed)
    (module : String) (ledger : Ledger) (report : Report) :
    (plan.run module ledger report descriptors).stopped = none := by
  have running := @stopped_addEntities_eq_none plan descriptors { ledger, report } rfl
    fun descriptor member => isWhole.filesOf_ne_tooLong (named descriptor member)
  have complete := isWhole.stopped_addAggregates module running
  rw [addEntities] at running complete
  rw [run]
  simp only [running, complete, Option.isSome_none, Bool.false_eq_true, if_false]
  exact complete

/-! ## Bundles -/

variable {module : String} {ledger : Ledger} {rendering : ModuleRendering}

/-- The files of an entity are rendered for it and no others. -/
theorem IsWhole.filter_files
    (isWhole : plan.IsWhole) (renders : plan.Renders module descriptors ledger rendering)
    (distinct : (descriptors.map (·.entity)).Nodup) (member : descriptor ∈ descriptors) :
    rendering.files.filter (·.entity == some descriptor.entity) =
      (plan.filesOf descriptor).toOption.getD [] := by
  by_cases nothing : plan.entityFiles descriptors = []
  · rw [renders.nothing nothing, List.filter_nil]
    rw [entityFiles, List.flatMap_eq_nil_iff] at nothing
    exact (nothing descriptor member).symm
  · obtain ⟨aggregates, rendered⟩ := Aggregate.exists_ofLedger plan.config module rendering.ledger
    have others : aggregates.filter (·.entity == some descriptor.entity) = [] := by
      rw [List.filter_eq_nil_iff]
      intro file among
      rw [entity_of_mem_output rendered among]
      simp
    rw [(renders.files nothing).2, isWhole.aggregatesOf_eq, rendered, List.filter_append,
      filter_entityFiles distinct member]
    simp only [Except.toOption, Option.getD_some, others, List.append_nil]

/-- An entity has its bundle exactly when it has a key. -/
theorem IsWhole.hasBundle_iff
    (isWhole : plan.IsWhole) (renders : plan.Renders module descriptors ledger rendering)
    (distinct : (descriptors.map (·.entity)).Nodup) (member : descriptor ∈ descriptors)
    (named : descriptor.IsNamed) :
    rendering.HasBundle plan.config descriptor.entity descriptor.table ↔
      (Keyed.get? plan.keys descriptor.entity).isSome = true := by
  rw [ModuleRendering.HasBundle, isWhole.filter_files renders distinct member]
  cases given : Keyed.get? plan.keys descriptor.entity with
  | none =>
      rw [isWhole.filesOf_keyless given]
      constructor
      · rintro ⟨key, _, none⟩
        exact absurd none.symm.eq_nil (List.cons_ne_nil _ _)
      · exact fun wrong => absurd wrong (by decide)
  | some key =>
      obtain ⟨files, found, paths⟩ := isWhole.exists_filesOf named given
      rw [found]
      exact ⟨fun _ => rfl, fun _ => ⟨key, isWhole.keyed _ key given, paths⟩⟩

/-- The files of whole entities and the aggregates lie in the places of both. -/
theorem IsWhole.paths_perm
    (isWhole : plan.IsWhole) (renders : plan.Renders module descriptors ledger rendering)
    (moduleNamed : ∀ c ∈ module.toList, c.isAlphanum = true) (some : descriptors ≠ [])
    (named : ∀ descriptor ∈ descriptors, descriptor.IsNamed)
    (keyed : ∀ descriptor ∈ descriptors,
      (Keyed.get? plan.keys descriptor.entity).isSome = true) :
    (rendering.files.map (·.path)).Perm
      ((entityPlaces plan.config
          (fun descriptor => (Keyed.get? plan.keys descriptor.entity).getD "") descriptors ++
        aggregatePlaces plan.config module).map placePath) := by
  have own : ∀ descriptor ∈ descriptors,
      (((plan.filesOf descriptor).toOption.getD []).map (·.path)).Perm
        ((bundlePlaces plan.config descriptor.entity descriptor.table
          ((Keyed.get? plan.keys descriptor.entity).getD "")).map placePath) := by
    intro descriptor member
    obtain ⟨key, given⟩ := Option.isSome_iff_exists.mp (keyed descriptor member)
    obtain ⟨files, found, paths⟩ := isWhole.exists_filesOf (named descriptor member) given
    rw [found, given]
    exact paths
  have entities : ((plan.entityFiles descriptors).map (·.path)).Perm
      ((entityPlaces plan.config
        (fun descriptor => (Keyed.get? plan.keys descriptor.entity).getD "") descriptors).map
          placePath) := by
    rw [entityFiles, entityPlaces, List.map_flatMap, List.map_flatMap]
    exact List.Perm.flatMap_left descriptors own
  have rendered : plan.entityFiles descriptors ≠ [] := by
    obtain ⟨first, member⟩ := List.exists_mem_of_ne_nil _ some
    exact isWhole.entityFiles_ne_nil member (named first member) (keyed first member)
  obtain ⟨aggregates, made⟩ := Aggregate.exists_ofLedger plan.config module rendering.ledger
  have places : aggregates.map (·.path) =
      (aggregatePlaces plan.config module).map placePath := by
    rw [← Aggregate.paths_plans plan.config module rendering.ledger.entities
      rendering.ledger.seeders]
    apply map_path_of_output made
    rw [Aggregate.paths_plans, nodup_map_placePath_iff]
    · exact nodup_aggregatePlaces plan.config module
    · intro place
      exact liesIn_of_mem_aggregatePlaces moduleNamed
  rw [(renders.files rendered).2, isWhole.aggregatesOf_eq, made, List.map_append, List.map_append]
  apply entities.append
  rw [Except.toOption, Option.getD_some, places]

/-- The files of whole entities stay apart unless an entity has the name of the module's seeder. -/
theorem IsWhole.nodup_paths_iff
    (isWhole : plan.IsWhole) (renders : plan.Renders module descriptors ledger rendering)
    (moduleNamed : ∀ c ∈ module.toList, c.isAlphanum = true) (some : descriptors ≠ [])
    (named : ∀ descriptor ∈ descriptors, descriptor.IsNamed)
    (distinct : (descriptors.map (·.entity)).Nodup)
    (tables : Migration.DistinctTables descriptors)
    (keyed : ∀ descriptor ∈ descriptors,
      (Keyed.get? plan.keys descriptor.entity).isSome = true) :
    (rendering.files.map (·.path)).Nodup ↔
      module ++ "Database" ∉ descriptors.map (·.entity) := by
  have spelled : ∀ descriptor ∈ descriptors,
      ∀ c ∈ ((Keyed.get? plan.keys descriptor.entity).getD "").toList,
        Migration.IsKeyCharacter c := by
    intro descriptor member
    obtain ⟨key, given⟩ := Option.isSome_iff_exists.mp (keyed descriptor member)
    rw [given]
    exact isWhole.keyed _ key given
  rw [(isWhole.paths_perm renders moduleNamed some named keyed).nodup_iff, nodup_map_placePath_iff]
  · exact nodup_places_iff spelled distinct tables
  · intro place member
    rcases List.mem_append.mp member with entity | aggregate
    · obtain ⟨descriptor, among, within⟩ := List.mem_flatMap.mp entity
      obtain ⟨_, _, _, _, characters⟩ := Text.exists_of_isClassName (named descriptor among).entity
      exact liesIn_of_mem_bundlePlaces characters (named descriptor among).tableCharacters
        (spelled descriptor among) within
    · exact liesIn_of_mem_aggregatePlaces moduleNamed aggregate

/--
Every entity has its bundle and the files of the module stay apart exactly when no two entities
share a table and none has the name of the module's seeder.
-/
theorem IsWhole.bundles_iff
    (isWhole : plan.IsWhole) (renders : plan.Renders module descriptors ledger rendering)
    (moduleNamed : ∀ c ∈ module.toList, c.isAlphanum = true) (some : descriptors ≠ [])
    (named : ∀ descriptor ∈ descriptors, descriptor.IsNamed)
    (distinct : (descriptors.map (·.entity)).Nodup)
    (keyed : (∀ descriptor ∈ descriptors,
      (Keyed.get? plan.keys descriptor.entity).isSome = true) ↔
        Migration.DistinctTables descriptors) :
    ((∀ descriptor ∈ descriptors,
        rendering.HasBundle plan.config descriptor.entity descriptor.table) ∧
      (rendering.files.map (·.path)).Nodup) ↔
      Migration.DistinctTables descriptors ∧
        module ++ "Database" ∉ descriptors.map (·.entity) := by
  have bundles : (∀ descriptor ∈ descriptors,
      rendering.HasBundle plan.config descriptor.entity descriptor.table) ↔
        Migration.DistinctTables descriptors := by
    rw [← keyed]
    apply forall₂_congr
    intro descriptor member
    exact isWhole.hasBundle_iff renders distinct member (named descriptor member)
  rw [bundles]
  apply and_congr_right
  intro tables
  exact isWhole.nodup_paths_iff renders moduleNamed some named distinct tables (keyed.mpr tables)

end RenderPlan

end Scaffold
