import Mathlib.Data.List.Infix
import Scaffold.Proofs.Output.Aggregates

/-!
# The files of an entity from the built-in stubs

From the built-in stubs every plan gives a file of its own: each kind of files has its folder, and
two files of one kind differ in their names.  So what holds of the files of an entity is what holds
of the plans of the chosen kinds.
-/

namespace Scaffold

open Scaffold.Stub (Shelf)

/-! ## Plans and their files -/

/-- What the file of a plan says when it is rendered from a built-in stub. -/
def FilePlan.content (plan : FilePlan) : String :=
  Stub.fill plan.values ((Keyed.get? Stub.builtin plan.stub).getD "")

/-- A plan is rendered from a built-in stub. -/
def FilePlan.IsBuiltin (plan : FilePlan) : Prop :=
  (Keyed.get? Stub.builtin plan.stub).isSome = true

theorem FilePlan.IsBuiltin.load
    {plan : FilePlan} (isBuiltin : plan.IsBuiltin) {shelf : Shelf}
    (builtin : shelf.load = Shelf.standard.load) :
    shelf.load plan.stub = .ok ((Keyed.get? Stub.builtin plan.stub).getD "") := by
  obtain ⟨text, found⟩ := Option.isSome_iff_exists.mp isBuiltin
  have unfolded : Shelf.standard.load plan.stub =
      Option.elim (Keyed.get? Stub.builtin plan.stub) (.error (.notFound plan.stub [])) .ok := by
    cases given : Keyed.get? Stub.builtin plan.stub <;>
      simp [Shelf.load, Shelf.standard, Shelf.candidates, Disk.Tree.firstFile?, given]
  rw [builtin, unfolded, found]
  rfl

/-- Plans of different paths give one file each. -/
theorem files_of_renderPlans
    {shelf : Shelf} (builtin : shelf.load = Shelf.standard.load) {plans : List FilePlan}
    (stubs : ∀ plan ∈ plans, plan.IsBuiltin) {found : Keyed String} {logs : List LogRecord}
    (apart : (Keyed.keys found ++ plans.map (·.path)).Nodup) :
    (renderPlans shelf found logs (plans.map .ok)).files =
      .ok (found ++ plans.map fun plan => (plan.path, plan.content)) := by
  have content : ∀ plan ∈ plans, plan.contentFrom shelf = plan.content := by
    intro plan member
    rw [FilePlan.contentFrom, (stubs plan member).load builtin]
    rfl
  rw [files_of_renderPlans_of_load (fun plan member => ⟨_, (stubs plan member).load builtin⟩) apart,
    List.map_congr_left fun plan member => by rw [content plan member]]

/-! ## Folders -/

/-- The folder of the files of a kind. -/
def FileKind.folder : FileKind → String
  | .model => "Models/"
  | .migration => "Database/Migrations/"
  | .controller => "Http/Controllers/"
  | .request => "Http/Requests/"
  | .service => "Services/"
  | .repository => "Repositories/"
  | .factory => "Database/Factories/"
  | .seeder => "Database/Seeders/"
  | .test => "Tests/Unit/"

/-- No folder of a kind lies within that of another one. -/
theorem FileKind.pairwise_folder :
    FileKind.all.Pairwise fun kind other =>
      ¬ kind.folder.toList <+: other.folder.toList ∧
        ¬ other.folder.toList <+: kind.folder.toList := by
  decide

/-- A file does not have the name of one in the folder of contracts beside it. -/
theorem contract_path_ne
    {folder contracts contract name : String} (inside : contracts = folder ++ "Contracts/")
    (named : ∀ c ∈ name.toList, c.isAlphanum = true) :
    contracts ++ contract ++ ".php" ≠ folder ++ name ++ ".php" := by
  intro same
  have slash : '/' ∈ ("Contracts/" ++ contract ++ ".php").toList := by simp
  rw [inside, String.append_assoc, String.append_assoc, String.append_assoc,
    String.append_right_inj, ← String.append_assoc] at same
  rw [same, String.toList_append, List.mem_append] at slash
  rcases slash with within | ending
  · exact absurd (named '/' within) (by decide)
  · exact absurd ending (by decide)

namespace Descriptor

variable (config : Config) (key : Option String) (names : Keyed String) (descriptor : Descriptor)

/-- The plans that are made of the files of a kind. -/
def planned (kind : FileKind) : List FilePlan :=
  (descriptor.plans config key names kind).filterMap Except.toOption

/-- The plans that are made of the files of chosen kinds. -/
def allPlanned (kinds : List FileKind) : List FilePlan :=
  (FileKind.all.filter (kinds.contains ·)).flatMap (descriptor.planned config key names)

variable {config key names descriptor}

theorem mem_planned_iff {kind : FileKind} {plan : FilePlan} :
    plan ∈ descriptor.planned config key names kind ↔
      .ok plan ∈ descriptor.plans config key names kind := by
  rw [planned, List.mem_filterMap]
  constructor
  · rintro ⟨answer, member, given⟩
    cases answer with
    | error error => cases given
    | ok other =>
        obtain rfl := Option.some.inj given
        exact member
  · exact fun member => ⟨_, member, rfl⟩

/-- Every plan can be made, if there is a key for the migration. -/
theorem plans_eq_planned {kind : FileKind} (keyed : kind = .migration → key.isSome = true) :
    descriptor.plans config key names kind =
      (descriptor.planned config key names kind).map .ok := by
  cases kind with
  | migration =>
      obtain ⟨text, rfl⟩ := Option.isSome_iff_exists.mp (keyed rfl)
      rfl
  | _ => rfl

theorem folder_isPrefix_path {kind : FileKind} {plan : FilePlan}
    (member : plan ∈ descriptor.planned config key names kind) :
    kind.folder.toList <+: plan.path.toList := by
  have starts {folder start : String} (within : folder.toList <+: start.toList) (name ending) :
      folder.toList <+: (start ++ name ++ ending).toList := by
    rw [String.toList_append, String.toList_append, List.append_assoc]
    exact within.trans (List.prefix_append _ _)
  rw [mem_planned_iff] at member
  cases kind with
  | migration =>
      cases key with
      | none => cases List.mem_singleton.mp member
      | some text =>
          cases List.mem_singleton.mp member
          have whole := starts (List.prefix_refl "Database/Migrations/".toList)
            (Migration.fileName text descriptor.table) ""
          rwa [String.append_empty] at whole
  | service | repository =>
      rcases List.mem_pair.mp member with here | here
      all_goals
        cases here
        exact starts (by decide) _ _
  | _ =>
      cases List.mem_singleton.mp member
      exact starts (List.prefix_refl _) _ _

/-- The files of a kind have different paths. -/
theorem nodup_paths_planned (className : isClassName descriptor.entity = true)
    (given : AreNamed names)
    (kind : FileKind) : ((descriptor.planned config key names kind).map (·.path)).Nodup := by
  obtain ⟨_, _, _, _, entity⟩ := Text.exists_of_isClassName className
  cases kind with
  | migration =>
      cases key with
      | none => exact List.nodup_nil
      | some text => exact List.nodup_singleton _
  | service =>
      have service := given.nameOr FileKind.service.name
        (isAlphanum_append entity (by decide : "Service".toList.all Char.isAlphanum = true))
      exact List.nodup_cons.mpr ⟨fun member =>
        contract_path_ne (by decide) service (List.mem_singleton.mp member), List.nodup_singleton _⟩
  | repository =>
      have repository := given.nameOr FileKind.repository.name
        (isAlphanum_append entity (by decide : "Repository".toList.all Char.isAlphanum = true))
      exact List.nodup_cons.mpr ⟨fun member =>
        contract_path_ne (by decide) repository (List.mem_singleton.mp member),
        List.nodup_singleton _⟩
  | _ => exact List.nodup_singleton _

theorem mem_allPlanned_iff {kinds : List FileKind} {plan : FilePlan} :
    plan ∈ descriptor.allPlanned config key names kinds ↔
      ∃ kind ∈ kinds, plan ∈ descriptor.planned config key names kind := by
  have every (kind : FileKind) : kind ∈ FileKind.all := by cases kind <;> decide
  simp [allPlanned, every]

theorem allPlans_eq_allPlanned {kinds : List FileKind}
    (keyed : .migration ∈ kinds → key.isSome = true) :
    descriptor.allPlans config key kinds names =
      (descriptor.allPlanned config key names kinds).map .ok := by
  rw [allPlans, allPlanned, List.map_flatMap]
  refine List.flatMap_congr fun kind member => plans_eq_planned ?_
  rintro rfl
  exact keyed (by simpa using (List.mem_filter.mp member).2)

/-- The files of chosen kinds have different paths if those of each kind have. -/
theorem nodup_paths_of_planned
    (apart : ∀ kind, ((descriptor.planned config key names kind).map (·.path)).Nodup)
    (kinds : List FileKind) :
    ((descriptor.allPlanned config key names kinds).map (·.path)).Nodup := by
  rw [allPlanned, List.map_flatMap, List.nodup_flatMap]
  refine ⟨fun kind _ => apart kind, ?_⟩
  have folders := FileKind.pairwise_folder.sublist (List.filter_sublist (p := (kinds.contains ·)))
  refine folders.imp fun apart path member again => ?_
  obtain ⟨plan, planned, rfl⟩ := List.mem_map.mp member
  obtain ⟨other, plannedToo, same⟩ := List.mem_map.mp again
  have above := folder_isPrefix_path planned
  have aboveToo := folder_isPrefix_path plannedToo
  rw [same] at aboveToo
  rcases List.prefix_or_prefix_of_prefix above aboveToo with within | within
  · exact apart.1 within
  · exact apart.2 within

/-- The files of chosen kinds have different paths. -/
theorem nodup_paths_allPlanned (className : isClassName descriptor.entity = true)
    (given : AreNamed names)
    (kinds : List FileKind) :
    ((descriptor.allPlanned config key names kinds).map (·.path)).Nodup :=
  nodup_paths_of_planned (nodup_paths_planned className given) kinds

theorem isBuiltin_of_mem_allPlanned {kinds : List FileKind} {plan : FilePlan}
    (member : plan ∈ descriptor.allPlanned config key names kinds) : plan.IsBuiltin := by
  obtain ⟨kind, -, planned⟩ := mem_allPlanned_iff.mp member
  have checked : ∀ name ∈ kind.stubs, (Keyed.get? Stub.builtin name).isSome = true := by
    cases kind <;> decide
  exact checked _ (stub_mem_stubs (mem_planned_iff.mp planned))

/-- What holds of all files of an entity is what holds of the plans of the chosen kinds. -/
theorem exists_files_of_generate
    {shelf : Shelf} (builtin : shelf.load = Shelf.standard.load)
    (className : isClassName descriptor.entity = true) (given : AreNamed names)
    {kinds : List FileKind} (keyed : .migration ∈ kinds → key.isSome = true) :
    ∃ files, (descriptor.generate config shelf key kinds names).files = .ok files ∧
      ∀ holds : String → Prop, (∀ file ∈ files, holds file.content) ↔
        ∀ kind ∈ kinds, ∀ plan ∈ descriptor.planned config key names kind, holds plan.content := by
  have files := @files_of_renderPlans shelf builtin (descriptor.allPlanned config key names kinds)
    (fun _ => isBuiltin_of_mem_allPlanned) [] [] (nodup_paths_allPlanned className given kinds)
  refine ⟨(descriptor.allPlanned config key names kinds).map fun plan =>
    { path := plan.path, content := plan.content, entity := some descriptor.entity }, ?_, ?_⟩
  · rw [generate, allPlans_eq_allPlanned keyed, Rendering.output, files, List.nil_append,
      Except.map, List.map_map]
    rfl
  · intro holds
    simp only [List.forall_mem_map, mem_allPlanned_iff]
    constructor
    · exact fun all kind chosen plan planned => all plan ⟨kind, chosen, planned⟩
    · rintro all plan ⟨kind, chosen, planned⟩
      exact all kind chosen plan planned

end Descriptor

end Scaffold
