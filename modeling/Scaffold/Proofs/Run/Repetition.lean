import Scaffold.Proofs.Entity.Discovery
import Scaffold.Proofs.Run.Landing

/-!
# Running once more

A run that exported its files without errors is repeated on the tree that it has left.  The second
run discovers the same entities, finds the keys of the migrations and the ledger of the first one,
and so renders the same files.
-/

namespace Scaffold

open Scaffold.Disk (IsPlainName Location Path Tree)
open Scaffold.Disk.Tree (Extends Grows)

/--
The settings lead through folders that are there, and those for the models of the application to none
of the other folders in which files are generated.
-/
structure Config.IsSteady (config : Config) (tree : Tree) (module : String) : Prop where
  modules : tree.IsSteady (.ofText config.modulesPath)
  stubs : ∀ folder, config.stubsPath.filter (!·.isEmpty) = some folder →
    tree.IsSteady (.ofText folder)
  models : ∀ folder, config.appModelsPath.filter (!·.isEmpty) = some folder →
    tree.IsSteady (.ofText folder)
  apart : ∀ folder, config.appModelsPath.filter (!·.isEmpty) = some folder →
    ∀ other ∈ fileFolders, other ≠ "Models" →
      tree.resolve (.ofText folder) ≠
        tree.resolve (config.moduleFolder module) ++ Path.namesOf other.toList

/-- A request is prepared again after the files of its first preparation have landed. -/
structure Repeated (request : Request) (tree later : Tree) (first second : Migration.Sequence)
    (before after : Preparation) (exporter : Exporter) : Prop where
  prepares : Prepares request tree first before
  again : Prepares request later second after
  sound : tree.IsSound
  sequenceSound : first.IsSound
  steady : request.config.IsSteady tree request.module
  whole : request.selection = none
  plain : exporter.IsPlain
  place : exporter.folder.names = tree.resolve request.folder
  real : exporter.dryRun = false
  lands : Lands exporter request.folder before.rendering.ledger before.rendering.files tree later

namespace Repeated

variable {request : Request} {tree later : Tree} {first second : Migration.Sequence}
  {before after : Preparation} {exporter : Exporter}

/-! ## What has landed -/

/-- The files of the first preparation have landed. -/
theorem landed (repeated : Repeated request tree later first second before after exporter) :
    Landed request tree later first before exporter where
  prepares := repeated.prepares
  sound := repeated.sound
  alphanumeric := by
    intro entity kind name found
    rw [Request.names, repeated.whole] at found
    cases found
  plain := repeated.plain
  place := repeated.place
  real := repeated.real
  lands := repeated.lands

theorem isSteady_folder
    (repeated : Repeated request tree later first second before after exporter) :
    tree.IsSteady request.folder :=
  repeated.prepares.isSteady_folder repeated.steady.modules

theorem growth (repeated : Repeated request tree later first second before after exporter) :
    Grows
      (fun location => exporter.Writes before.rendering.files location ∨
        before.rendering.ledger.unsaved = true ∧ location = exporter.locationOf ledgerName)
      (exporter.Makes before.rendering.files) tree later :=
  repeated.landed.growth_of_isSteady repeated.steady.modules

theorem folder_names
    (repeated : Repeated request tree later first second before after exporter) :
    exporter.folder.names =
      later.resolve (.ofText request.config.modulesPath) ++ [request.module] := by
  rw [repeated.place, repeated.prepares.folder_eq, repeated.landed.extended.resolve]
  exact Tree.resolve_child tree _ repeated.prepares.isPlainName_module

/-- Whatever is new was written. -/
theorem writes_of_new
    (repeated : Repeated request tree later first second before after exporter)
    {location : Location} (there : (later.contentAt? location).isSome = true)
    (new : tree.contentAt? location = none) :
    exporter.Writes before.rendering.files location ∨
      location = exporter.locationOf ledgerName := by
  by_contra untouched
  rw [not_or] at untouched
  rw [repeated.growth.contents location fun written =>
    written.elim untouched.1 fun ledger => untouched.2 ledger.2, new] at there
  cases there

/-- A new model is that of an entity of the definition, in the module's own folder of models. -/
theorem newModelsAmong
    (repeated : Repeated request tree later first second before after exporter)
    (folder : Location)
    (apart : ∀ other ∈ fileFolders, folder = exporter.folder.names ++ Path.namesOf other.toList →
      other = "Models") :
    Registry.NewModelsAmong tree later folder
      (if folder = exporter.folder.names ++ ["Models"] then request.definition.entities else []) := by
  intro name script there new
  obtain ⟨file, member, other, lies, here⟩ := Exporter.exists_of_writes_php repeated.landed.exists_liesIn
    script (repeated.writes_of_new there new)
  obtain rfl := apart other lies.folder here
  have models : Path.namesOf "Models".toList = ["Models"] := by decide
  rw [models] at here
  rw [if_pos here]
  obtain ⟨descriptor, among, _, rfl⟩ :=
    repeated.prepares.model_of_liesIn repeated.sound repeated.landed.alphanumeric member lies
  obtain ⟨named, known⟩ := repeated.prepares.descriptors_named.2 descriptor among
  have standard : Keyed.get? (request.names descriptor.entity) FileKind.model.name = none := by
    rw [Request.names, repeated.whole]
    rfl
  have nonempty : descriptor.entity ≠ "" := by
    intro empty
    have isClass := named.entity
    rw [empty] at isClass
    cases isClass
  rw [standard, Option.getD_none, Disk.stem_php nonempty]
  exact List.mem_map_of_mem known

theorem matches_registry
    (repeated : Repeated request tree later first second before after exporter) :
    Registry.Matches before.registry after.registry := by
  have models : Path.namesOf "Models".toList = ["Models"] := by decide
  refine Registry.matches_discover repeated.landed.extended repeated.sound repeated.landed.laterSound
    repeated.steady.modules repeated.steady.models (fun name => ?_) (fun folder given => ?_)
    repeated.prepares.discovered repeated.again.discovered
  · have own := repeated.newModelsAmong
        (later.resolve (.ofText request.config.modulesPath) ++ [name, "Models"])
      fun other member here => ?_
    · intro file script there new
      have among := own file script there new
      split_ifs at among with same
      · rw [repeated.folder_names, List.append_assoc] at same
        have inner := List.append_cancel_left same
        rw [List.singleton_append, List.cons.injEq] at inner
        rw [inner.1, if_pos rfl]
        exact among
      · cases among
    · rw [repeated.folder_names, List.append_assoc, List.append_cancel_left_eq,
        List.singleton_append, List.cons.injEq] at here
      have checked : ∀ other ∈ fileFolders, ["Models"] = Path.namesOf other.toList →
          other = "Models" := by
        decide
      exact checked other member here.2
  · have application := repeated.newModelsAmong (later.resolve (.ofText folder))
      fun other member here => ?_
    · intro file script there new
      have among := application file script there new
      split_ifs at among
      · exact among
      · cases among
    · by_contra notModels
      refine repeated.steady.apart folder given other member notModels ?_
      rw [← repeated.landed.extended.resolve, here, repeated.place]
      rfl

/-- The same descriptors compile. -/
theorem descriptors_eq
    (repeated : Repeated request tree later first second before after exporter) :
    after.descriptors = before.descriptors := by
  rw [← repeated.prepares.compiled, ← repeated.again.compiled]
  exact (repeated.matches_registry.compile _ _ _).1.symm

theorem follows (repeated : Repeated request tree later first second before after exporter) :
    (request.config.shelf request.clean later).Follows
      (request.config.shelf request.clean tree) := by
  refine Stub.Shelf.follows_of_growth repeated.landed.extended repeated.sound repeated.landed.laterSound
    request.clean (fun path given => ?_) fun above name => ?_
  · obtain ⟨folder, found, rfl⟩ := Option.map_eq_some_iff.mp given
    exact repeated.steady.stubs folder found
  · refine repeated.growth.contents _ fun written => ?_
    exact Exporter.not_writes_stub repeated.landed.exists_liesIn above name
      (written.imp_right fun ledger => ledger.2)

/-! ## The ledger -/

theorem isWhole
    (repeated : Repeated request tree later first second before after exporter) (tree : Tree)
    (keys : Keyed String) :
    (request.plan tree keys).selection = none :=
  repeated.whole

/-- The second run loads the ledger that the first one had at its end. -/
theorem loaded_eq
    (repeated : Repeated request tree later first second before after exporter) :
    after.loaded = { before.rendering.ledger with unsaved := false } := by
  have isKept := repeated.landed.isKept_of_whole repeated.whole
  have loaded := repeated.again.loaded
  rw [(repeated.landed.load_later isKept).2] at loaded
  exact (congrArg Prod.fst loaded).symm

theorem isFolder_folder
    (repeated : Repeated request tree later first second before after exporter) :
    later.isFolder request.folder = .ok true := by
  have isKept := repeated.landed.isKept_of_whole repeated.whole
  exact Lands.isFolder_of_isFile (repeated.landed.load_later isKept).1

end Repeated

end Scaffold
