import Scaffold.Proofs.Export.Effect
import Scaffold.Proofs.Output.Places
import Scaffold.Proofs.Output.Rendering

/-!
# Aggregates from the built-in stubs

Without a folder of stubs every aggregate can be rendered, and what it says depends on the lists of
the ledger alone.  The aggregates are files of different places that are written in any case, so each
of them is left as it was rendered.
-/

namespace Scaffold

open Scaffold.Stub (Shelf StubError)

/-! ## The built-in stubs -/

/-- The settings name no folder of stubs. -/
def Config.UsesBuiltinStubs (config : Config) : Prop :=
  config.stubsPath.filter (!·.isEmpty) = none

instance (config : Config) : Decidable config.UsesBuiltinStubs :=
  inferInstanceAs (Decidable (_ = _))

/-- The shelf of the built-in stubs. -/
def Stub.Shelf.standard : Shelf :=
  ⟨none, false, {}⟩

theorem Stub.Shelf.load_standard
    {name : String} (builtin : (Keyed.get? Stub.builtin name).isSome = true) :
    ∃ text, Shelf.standard.load name = .ok text := by
  obtain ⟨text, found⟩ := Option.isSome_iff_exists.mp builtin
  refine ⟨text, ?_⟩
  have unfolded : Shelf.standard.load name =
      Option.elim (Keyed.get? Stub.builtin name) (.error (.notFound name [])) .ok := by
    cases given : Keyed.get? Stub.builtin name <;>
      simp [load, standard, candidates, Disk.Tree.firstFile?, given]
  rw [unfolded, found]
  rfl

theorem Config.UsesBuiltinStubs.load_shelf
    {config : Config} (builtin : config.UsesBuiltinStubs) (clean : Bool) (tree : Disk.Tree) :
    (config.shelf clean tree).load = Shelf.standard.load := by
  rw [Config.shelf, builtin]
  rfl

/-- Rendering depends on the stubs that a shelf gives. -/
theorem renderPlans_of_load_eq
    {first second : Shelf} (same : second.load = first.load) (files : Keyed String)
    (logs : List LogRecord) (plans : List (Except RenderError FilePlan)) :
    renderPlans second files logs plans = renderPlans first files logs plans := by
  induction plans generalizing files logs with
  | nil => rfl
  | cons planned rest hypothesis =>
      cases planned with
      | error error => rfl
      | ok plan =>
          rw [renderPlans, renderPlans, Shelf.render, Shelf.render, same]
          split
          · rfl
          · exact hypothesis _ _

theorem exists_files_of_renderPlans
    {shelf : Shelf} {plans : List FilePlan}
    (stubs : ∀ plan ∈ plans, ∃ text, shelf.load plan.stub = .ok text) (found : Keyed String)
    (logs : List LogRecord) :
    ∃ files, (renderPlans shelf found logs (plans.map .ok)).files = .ok files := by
  induction plans generalizing found logs with
  | nil => exact ⟨found, rfl⟩
  | cons plan rest hypothesis =>
      obtain ⟨text, loaded⟩ := stubs plan List.mem_cons_self
      rw [List.map_cons, renderPlans, Shelf.render_of_load loaded]
      exact hypothesis (fun other member => stubs other (List.mem_cons_of_mem _ member)) _ _

theorem nodup_keys_of_renderPlans
    {shelf : Shelf} {plans : List (Except RenderError FilePlan)} {found files : Keyed String}
    {logs : List LogRecord} (rendered : (renderPlans shelf found logs plans).files = .ok files)
    (nodup : (Keyed.keys found).Nodup) :
    (Keyed.keys files).Nodup := by
  induction plans generalizing found logs with
  | nil =>
      cases rendered
      exact nodup
  | cons planned rest hypothesis =>
      cases planned with
      | error error => cases rendered
      | ok plan =>
          rw [renderPlans] at rendered
          split at rendered
          · cases rendered
          · exact hypothesis rendered (Keyed.nodup_keys_put nodup _ _)

namespace Aggregate

/-- The aggregates that the built-in stubs give for the lists of a ledger. -/
def ofLedger (config : Config) (module : String) (ledger : Ledger) :
    Except RenderError (List OutputFile) :=
  (generate config .standard module ledger.entities ledger.seeders).files

theorem generate_of_builtin
    {config : Config} (builtin : config.UsesBuiltinStubs) (clean : Bool) (tree : Disk.Tree)
    (module : String) (ledger : Ledger) :
    (generate config (config.shelf clean tree) module ledger.entities ledger.seeders).files =
      ofLedger config module ledger := by
  rw [ofLedger, generate, generate,
    renderPlans_of_load_eq (builtin.load_shelf clean tree)]

theorem exists_ofLedger (config : Config) (module : String) (ledger : Ledger) :
    ∃ files, ofLedger config module ledger = .ok files := by
  have builtin : ∀ name ∈ stubs, (Keyed.get? Stub.builtin name).isSome = true := by
    decide
  have loads : ∀ plan ∈ plans config module ledger.entities ledger.seeders,
      ∃ text, Shelf.standard.load plan.stub = .ok text :=
    fun plan member => Shelf.load_standard (builtin plan.stub (stub_mem_stubs member))
  obtain ⟨pairs, rendered⟩ := exists_files_of_renderPlans loads [] []
  rw [ofLedger, generate, Rendering.output, rendered]
  exact ⟨_, rfl⟩

/-- Aggregates are written in any case, each in a place of its own. -/
theorem spec_of_generate
    {config : Config} {shelf : Shelf} {module : String} {entities seeders : List String}
    {files : List OutputFile} (named : ∀ c ∈ module.toList, c.isAlphanum = true)
    (generated : (generate config shelf module entities seeders).files = .ok files) :
    (∀ file ∈ files, file.aggregate = true ∧ LiesElsewhere file.path) ∧
      files.Pairwise fun left right => left.path ≠ right.path := by
  have planned := fun file member =>
    (exists_plan_of_output generated (OutputFile.path file)).mp ⟨file, member, rfl⟩
  rw [generate, Rendering.output] at generated
  cases rendered : (renderPlans shelf [] []
      ((plans config module entities seeders).map .ok)).files with
  | error error =>
      rw [rendered] at generated
      cases generated
  | ok pairs =>
      have nodup := nodup_keys_of_renderPlans rendered .nil
      rw [rendered] at generated
      cases generated
      refine ⟨fun file member => ⟨?_, ?_⟩, ?_⟩
      · obtain ⟨_, _, rfl⟩ := List.mem_map.mp member
        rfl
      · obtain ⟨plan, among, same⟩ := planned file member
        obtain ⟨other, own, equal⟩ := List.mem_map.mp among
        rw [← same, ← Except.ok.inj equal]
        exact liesElsewhere_of_mem_plans named own
      · rw [List.pairwise_map]
        exact List.pairwise_map.mp nodup

end Aggregate

/-! ## Aggregates in their places -/

namespace Exporter

variable {exporter : Exporter}

theorem settled_append (location : Disk.Location) (first second : List OutputFile) :
    exporter.settled location (first ++ second) =
      (exporter.settled location second).or (exporter.settled location first) := by
  induction first with
  | nil => simp [settled]
  | cons file rest hypothesis =>
      rw [List.cons_append, settled, settled, hypothesis, Option.or_assoc]

/-- Of files in different places that are written in any case each one stays. -/
theorem settled_of_mem
    {files : List OutputFile} {file : OutputFile} (member : file ∈ files)
    (forced : exporter.yields file = false)
    (apart : files.Pairwise fun left right =>
      exporter.locationOf left.path ≠ exporter.locationOf right.path) :
    exporter.settled (exporter.locationOf file.path) files = some (.text file.content) := by
  induction files with
  | nil => cases member
  | cons first rest hypothesis =>
      obtain ⟨different, apartRest⟩ := List.pairwise_cons.mp apart
      rw [settled]
      rcases List.mem_cons.mp member with rfl | later
      · have unsettled : exporter.settled (exporter.locationOf file.path) rest = none := by
          cases found : exporter.settled (exporter.locationOf file.path) rest with
          | none => rfl
          | some content =>
              obtain ⟨other, among, same⟩ := exists_of_settled found
              exact absurd same (different other among)
        rw [unsettled]
        simp [forced]
      · rw [hypothesis later apartRest]
        rfl

end Exporter

end Scaffold
