import Mathlib.Data.List.Basic
import Mathlib.Tactic.SplitIfs
import Scaffold.Output.Aggregate
import Scaffold.Proofs.Disk.Listing
import Scaffold.Proofs.Keyed
import Scaffold.Run.Rendering

/-!
# What rendering depends on

Whether plans can be rendered depends on their stubs alone.  Two shelves agree unless the second one
meets a name that is too long; plans that name the same stubs then succeed or fail alike, and equal
plans give equal files.
-/

namespace Scaffold

open Scaffold.Stub (Shelf StubError)

/-! ## Plans -/

/-- Why rendering stops a run instead of skipping an entity. -/
def RenderError.tooLong : RenderError :=
  .stub (.disk .nameTooLong)

/-- A name that a stub can have in a folder. -/
def Stub.IsStubName (name : String) : Prop :=
  Disk.IsPlainName (name ++ ".stub")

instance (name : String) : Decidable (Stub.IsStubName name) :=
  inferInstanceAs (Decidable (Disk.IsPlainName (name ++ ".stub")))

/-- A shelf gives the same stubs as another one, unless a name is too long for it. -/
def Stub.Shelf.Follows (second first : Shelf) : Prop :=
  ∀ name, Stub.IsStubName name →
    second.load name = first.load name ∨ second.load name = .error (.disk .nameTooLong)

/-- Every plan of a list names a stub. -/
def NameStubs (plans : List (Except RenderError FilePlan)) : Prop :=
  ∀ plan, .ok plan ∈ plans → Stub.IsStubName plan.stub

theorem NameStubs.tail
    {planned : Except RenderError FilePlan} {rest : List (Except RenderError FilePlan)}
    (stubs : NameStubs (planned :: rest)) : NameStubs rest :=
  fun plan member => stubs plan (List.mem_cons_of_mem _ member)

/-- Two plans name the same stub, or are the same error. -/
def SameStub (left right : Except RenderError FilePlan) : Prop :=
  left.map (·.stub) = right.map (·.stub)

theorem Stub.Shelf.Follows.render
    {first second : Shelf} (follows : second.Follows first) {name : String}
    (stubName : Stub.IsStubName name) (firstValues secondValues : Keyed String) :
    second.render name secondValues = .error (.disk .nameTooLong) ∨
      (∃ error, first.render name firstValues = .error error ∧
        second.render name secondValues = .error error) ∨
      ∃ stub, first.load name = .ok stub ∧ second.load name = .ok stub := by
  rcases follows name stubName with same | tooLong
  · rw [Shelf.render, Shelf.render, same]
    cases first.load name with
    | error error => exact .inr (.inl ⟨error, rfl, rfl⟩)
    | ok stub => exact .inr (.inr ⟨stub, rfl, rfl⟩)
  · rw [Shelf.render, tooLong]
    exact .inl rfl

theorem Stub.Shelf.render_of_load
    {shelf : Shelf} {name stub : String} (loaded : shelf.load name = .ok stub)
    (values : Keyed String) :
    shelf.render name values =
      .ok (Stub.fill values stub, Shelf.warnings name (Stub.missingKeys values stub)) := by
  rw [Shelf.render, loaded]

/-- Plans of the same stubs are rendered or not for the same reasons. -/
theorem renderPlans_outcome
    {first second : Shelf} (follows : second.Follows first)
    {left right : List (Except RenderError FilePlan)} (same : List.Forall₂ SameStub left right)
    (stubs : NameStubs left)
    (leftFiles rightFiles : Keyed String) (leftLogs rightLogs : List LogRecord) :
    (renderPlans second rightFiles rightLogs right).files = .error .tooLong ∨
      (renderPlans second rightFiles rightLogs right).files.map (fun _ => ()) =
        (renderPlans first leftFiles leftLogs left).files.map fun _ => () := by
  induction same generalizing leftFiles rightFiles leftLogs rightLogs with
  | nil => exact .inr rfl
  | @cons leftPlan rightPlan leftRest rightRest head _ hypothesis =>
      cases leftPlan with
      | error error =>
          cases rightPlan with
          | error other =>
              cases head
              exact .inr rfl
          | ok _ => cases head
      | ok plan =>
          cases rightPlan with
          | error _ => cases head
          | ok other =>
              have stub : plan.stub = other.stub := Except.ok.inj head
              rw [renderPlans, renderPlans, ← stub]
              rcases follows.render (stubs plan List.mem_cons_self) plan.values other.values with
                tooLong | ⟨error, firstFails, secondFails⟩ | ⟨text, firstLoads, secondLoads⟩
              · rw [tooLong]
                exact .inl rfl
              · rw [firstFails, secondFails]
                exact .inr rfl
              · rw [Shelf.render_of_load firstLoads, Shelf.render_of_load secondLoads]
                exact hypothesis stubs.tail _ _ _ _

/-- The same plans give the same files. -/
theorem renderPlans_files
    {first second : Shelf} (follows : second.Follows first)
    {plans : List (Except RenderError FilePlan)} (stubs : NameStubs plans) (files : Keyed String)
    (leftLogs rightLogs : List LogRecord) :
    (renderPlans second files rightLogs plans).files = .error .tooLong ∨
      (renderPlans second files rightLogs plans).files =
        (renderPlans first files leftLogs plans).files := by
  induction plans generalizing files leftLogs rightLogs with
  | nil => exact .inr rfl
  | cons next rest hypothesis =>
      cases next with
      | error error => exact .inr rfl
      | ok plan =>
          rw [renderPlans, renderPlans]
          rcases follows.render (stubs plan List.mem_cons_self) plan.values plan.values with
            tooLong | ⟨error, firstFails, secondFails⟩ | ⟨text, firstLoads, secondLoads⟩
          · rw [tooLong]
            exact .inl rfl
          · rw [firstFails, secondFails]
            exact .inr rfl
          · rw [Shelf.render_of_load firstLoads, Shelf.render_of_load secondLoads]
            exact hypothesis stubs.tail _ _ _

/-- Rendering adds a file for every plan, and no other. -/
theorem mem_keys_of_renderPlans
    {shelf : Shelf} {plans : List (Except RenderError FilePlan)} {found files : Keyed String}
    {logs : List LogRecord} (rendered : (renderPlans shelf found logs plans).files = .ok files)
    (path : String) :
    path ∈ Keyed.keys files ↔
      path ∈ Keyed.keys found ∨ ∃ plan, .ok plan ∈ plans ∧ plan.path = path := by
  induction plans generalizing found logs with
  | nil =>
      cases rendered
      simp
  | cons next rest hypothesis =>
      cases next with
      | error error => cases rendered
      | ok plan =>
          rw [renderPlans] at rendered
          split at rendered
          · cases rendered
          · rw [hypothesis rendered, Keyed.mem_keys_put, or_assoc]
            refine or_congr_right ⟨?_, ?_⟩
            · rintro (rfl | ⟨other, member, same⟩)
              · exact ⟨plan, List.mem_cons_self, rfl⟩
              · exact ⟨other, List.mem_cons_of_mem _ member, same⟩
            · rintro ⟨other, member, same⟩
              rcases List.mem_cons.mp member with here | later
              · cases here
                exact .inl same.symm
              · exact .inr ⟨other, later, same⟩

/-- Plans of different paths are rendered one after the other. -/
theorem keys_of_renderPlans
    {shelf : Shelf} {plans : List FilePlan} {found files : Keyed String} {logs : List LogRecord}
    (rendered : (renderPlans shelf found logs (plans.map .ok)).files = .ok files)
    (apart : (Keyed.keys found ++ plans.map (·.path)).Nodup) :
    Keyed.keys files = Keyed.keys found ++ plans.map (·.path) := by
  induction plans generalizing found logs with
  | nil =>
      cases rendered
      rw [List.map_nil, List.append_nil]
  | cons plan rest hypothesis =>
      rw [List.map_cons, renderPlans] at rendered
      split at rendered
      · cases rendered
      · rename_i content _ _
        have fresh : plan.path ∉ Keyed.keys found := by
          intro known
          exact (List.nodup_append.mp apart).2.2 plan.path known plan.path List.mem_cons_self rfl
        have put : Keyed.keys (Keyed.put found plan.path content) ++ rest.map (·.path) =
            Keyed.keys found ++ (plan :: rest).map (·.path) := by
          rw [Keyed.keys_put_of_not_mem fresh, List.append_assoc, List.map_cons]
          rfl
        rw [← put] at apart ⊢
        exact hypothesis rendered apart

/-- Without an error every plan was made. -/
theorem exists_of_mem_of_renderPlans
    {shelf : Shelf} {plans : List (Except RenderError FilePlan)} {found files : Keyed String}
    {logs : List LogRecord} (rendered : (renderPlans shelf found logs plans).files = .ok files)
    {planned : Except RenderError FilePlan} (member : planned ∈ plans) :
    ∃ plan, planned = .ok plan := by
  induction plans generalizing found logs with
  | nil => cases member
  | cons next rest hypothesis =>
      cases next with
      | error error => cases rendered
      | ok plan =>
          rcases List.mem_cons.mp member with rfl | later
          · exact ⟨plan, rfl⟩
          · rw [renderPlans] at rendered
            split at rendered
            · cases rendered
            · exact hypothesis rendered later

/-- What the file of a plan says, if the stub can be loaded. -/
def FilePlan.contentFrom (shelf : Shelf) (plan : FilePlan) : String :=
  Stub.fill plan.values ((shelf.load plan.stub).toOption.getD "")

/-- Plans of different paths give one file each, if their stubs can be loaded. -/
theorem files_of_renderPlans_of_load
    {shelf : Shelf} {plans : List FilePlan}
    (loads : ∀ plan ∈ plans, ∃ stub, shelf.load plan.stub = .ok stub)
    {found : Keyed String} {logs : List LogRecord}
    (apart : (Keyed.keys found ++ plans.map (·.path)).Nodup) :
    (renderPlans shelf found logs (plans.map .ok)).files =
      .ok (found ++ plans.map fun plan => (plan.path, plan.contentFrom shelf)) := by
  induction plans generalizing found logs with
  | nil =>
      rw [List.map_nil, List.map_nil, List.append_nil]
      rfl
  | cons plan rest hypothesis =>
      obtain ⟨⟨stub, loaded⟩, others⟩ := List.forall_mem_cons.mp loads
      have fresh : plan.path ∉ Keyed.keys found := by
        intro known
        exact (List.nodup_append.mp apart).2.2 plan.path known plan.path List.mem_cons_self rfl
      have content : Stub.fill plan.values stub = plan.contentFrom shelf := by
        rw [FilePlan.contentFrom, loaded]
        rfl
      have put : Keyed.put found plan.path (plan.contentFrom shelf) =
          found ++ [(plan.path, plan.contentFrom shelf)] :=
        Keyed.put_of_not_mem fresh _
      have keys : Keyed.keys (found ++ [(plan.path, plan.contentFrom shelf)]) ++
          rest.map (·.path) = Keyed.keys found ++ (plan :: rest).map (·.path) := by
        simp [Keyed.keys]
      rw [List.map_cons, renderPlans, Shelf.render_of_load loaded]
      dsimp only
      rw [content, put, hypothesis others (by rwa [keys]), List.append_assoc]
      rfl

/-- Rendering stops for an error among the plans or at a stub that cannot be loaded. -/
theorem stop_of_renderPlans
    {shelf : Shelf} {plans : List (Except RenderError FilePlan)} {found : Keyed String}
    {logs : List LogRecord} {error : RenderError}
    (stopped : (renderPlans shelf found logs plans).files = .error error) :
    .error error ∈ plans ∨
      ∃ plan cause, .ok plan ∈ plans ∧ shelf.load plan.stub = .error cause ∧
        error = .stub cause := by
  induction plans generalizing found logs with
  | nil => cases stopped
  | cons next rest hypothesis =>
      cases next with
      | error other =>
          cases stopped
          exact .inl List.mem_cons_self
      | ok plan =>
          rw [renderPlans, Shelf.render] at stopped
          cases loaded : shelf.load plan.stub with
          | error cause =>
              rw [loaded] at stopped
              cases stopped
              exact .inr ⟨plan, cause, List.mem_cons_self, loaded, rfl⟩
          | ok stub =>
              rw [loaded] at stopped
              rcases hypothesis stopped with among | ⟨other, cause, among, fails, same⟩
              · exact .inl (List.mem_cons_of_mem _ among)
              · exact .inr ⟨other, cause, List.mem_cons_of_mem _ among, fails, same⟩

/-- Without an error every stub was loaded. -/
theorem load_of_mem_of_renderPlans
    {shelf : Shelf} {plans : List (Except RenderError FilePlan)} {found files : Keyed String}
    {logs : List LogRecord} (rendered : (renderPlans shelf found logs plans).files = .ok files)
    {plan : FilePlan} (member : .ok plan ∈ plans) :
    ∃ stub, shelf.load plan.stub = .ok stub := by
  induction plans generalizing found logs with
  | nil => cases member
  | cons next rest hypothesis =>
      cases next with
      | error error => cases rendered
      | ok first =>
          rw [renderPlans, Shelf.render] at rendered
          cases loaded : shelf.load first.stub with
          | error cause =>
              rw [loaded] at rendered
              cases rendered
          | ok stub =>
              rw [loaded] at rendered
              rcases List.mem_cons.mp member with here | later
              · cases here
                exact ⟨stub, loaded⟩
              · exact hypothesis rendered later

/-! ## Stubs -/

/-- A shelf follows the one of an earlier tree whose stub files are the same. -/
theorem Stub.Shelf.follows_of_growth
    {earlier later : Disk.Tree} (growth : Disk.Tree.Extends earlier later) (sound : earlier.IsSound)
    (laterSound : later.IsSound) {folder : Option Disk.Path} (clean : Bool)
    (steady : ∀ path, folder = some path → earlier.IsSteady path)
    (same : ∀ above name, later.contentAt? (above ++ [name ++ ".stub"]) =
      earlier.contentAt? (above ++ [name ++ ".stub"])) :
    Shelf.Follows ⟨folder, clean, later⟩ ⟨folder, clean, earlier⟩ := by
  intro name stubName
  have candidates : ∀ path ∈ (⟨folder, clean, later⟩ : Shelf).candidates name,
      earlier.IsSteady path ∧
        later.contentAt? (later.resolve path) = earlier.contentAt? (later.resolve path) := by
    intro path member
    cases folder with
    | none => cases member
    | some folder =>
        have variantPlain : Disk.IsPlainName (Shelf.variant ⟨some folder, clean, later⟩) := by
          cases clean
          · exact (by decide : Disk.IsPlainName "dynamic")
          · exact (by decide : Disk.IsPlainName "clean")
        have inFolder := steady folder rfl
        rcases List.mem_pair.mp member with rfl | rfl
        · refine ⟨(inFolder.child variantPlain).child stubName, ?_⟩
          rw [Disk.Tree.resolve_child _ _ stubName]
          exact same _ _
        · refine ⟨inFolder.child stubName, ?_⟩
          rw [Disk.Tree.resolve_child _ _ stubName]
          exact same _ _
  have listed : (⟨folder, clean, earlier⟩ : Shelf).candidates name =
      (⟨folder, clean, later⟩ : Shelf).candidates name := rfl
  rw [Shelf.load, Shelf.load, listed]
  rcases growth.firstFile?_eq_of_isSteady sound laterSound
    (fun path member => (candidates path member).1)
    (fun path member => (candidates path member).2) with tooLong | equal
  · dsimp only
    rw [tooLong]
    exact .inr rfl
  · dsimp only
    rw [equal]
    cases found : earlier.firstFile? ((⟨folder, clean, later⟩ : Shelf).candidates name) with
    | error error => exact .inl rfl
    | ok answer =>
        cases answer with
        | none => exact .inl rfl
        | some path =>
            obtain ⟨member, file⟩ := Disk.Tree.isFile_of_firstFile? found
            dsimp only
            rw [growth.readText_eq_of_isFile sound file (candidates path member).2]
            exact .inl rfl

/-- The stubs that the files of a kind are rendered from. -/
def FileKind.stubs : FileKind → List String
  | .service => ["service-interface", "service"]
  | .repository => ["repository-interface", "repository"]
  | kind => [kind.name]

theorem FileKind.isStubName_of_mem_stubs (kind : FileKind) :
    ∀ name ∈ kind.stubs, Stub.IsStubName name := by
  cases kind <;> decide

theorem Descriptor.stub_mem_stubs
    {config : Config} {key : Option String} {names : Keyed String} {descriptor : Descriptor}
    {kind : FileKind} {plan : FilePlan} (member : .ok plan ∈ descriptor.plans config key names kind) :
    plan.stub ∈ kind.stubs := by
  cases kind with
  | migration =>
      cases key with
      | none =>
          have same := List.mem_singleton.mp member
          cases same
      | some key =>
          rw [Except.ok.inj (List.mem_singleton.mp member)]
          exact List.mem_singleton_self _
  | service | repository =>
      obtain ⟨planned, among, same⟩ := List.mem_map.mp member
      rw [← Except.ok.inj same]
      rcases List.mem_pair.mp among with first | second
      · rw [first]
        exact List.mem_cons_self
      · rw [second]
        exact List.mem_cons_of_mem _ List.mem_cons_self
  | _ =>
      rw [Except.ok.inj (List.mem_singleton.mp member)]
      exact List.mem_singleton_self _

theorem Descriptor.nameStubs_allPlans
    (config : Config) (key : Option String) (kinds : List FileKind) (names : Keyed String)
    (descriptor : Descriptor) :
    NameStubs (descriptor.allPlans config key kinds names) := by
  intro plan member
  obtain ⟨kind, _, planned⟩ := List.mem_flatMap.mp member
  exact kind.isStubName_of_mem_stubs plan.stub (stub_mem_stubs planned)

/-- The stubs that aggregates are rendered from. -/
def Aggregate.stubs : List String :=
  ["provider", "route-api", "module-seeder", "config", "route-web"]

theorem Aggregate.stub_mem_stubs
    {config : Config} {module : String} {entities seeders : List String} {plan : FilePlan}
    (member : plan ∈ Aggregate.plans config module entities seeders) :
    plan.stub ∈ stubs := by
  have listed : (plans config module entities seeders).map (·.stub) =
      ["provider", "route-api", "module-seeder", "config"] ++
        if config.generateWebRoutes then ["route-web"] else [] := by
    rw [plans]
    split_ifs <;> rfl
  have among := List.mem_map_of_mem (f := (·.stub)) member
  rw [listed] at among
  change plan.stub ∈ ["provider", "route-api", "module-seeder", "config"] ++ ["route-web"]
  split_ifs at among
  · exact among
  · exact List.mem_append_left _ (by simpa using among)

theorem Aggregate.nameStubs_plans
    (config : Config) (module : String) (entities seeders : List String) :
    NameStubs ((Aggregate.plans config module entities seeders).map .ok) := by
  intro plan member
  obtain ⟨other, planned, same⟩ := List.mem_map.mp member
  have checked : ∀ name ∈ Aggregate.stubs, Stub.IsStubName name := by decide
  rw [← Except.ok.inj same]
  exact checked _ (Aggregate.stub_mem_stubs planned)

/-! ## Files -/

/-- The files of a rendering have the paths of its plans. -/
theorem exists_plan_of_output
    {shelf : Shelf} {plans : List (Except RenderError FilePlan)} {entity : Option String}
    {files : List OutputFile}
    (rendered : ((renderPlans shelf [] [] plans).output entity).files = .ok files) (path : String) :
    (∃ file ∈ files, file.path = path) ↔ ∃ plan, .ok plan ∈ plans ∧ plan.path = path := by
  rw [Rendering.output] at rendered
  cases keyed : (renderPlans shelf [] [] plans).files with
  | error error =>
      rw [keyed] at rendered
      cases rendered
  | ok pairs =>
      rw [keyed] at rendered
      have paths := mem_keys_of_renderPlans keyed path
      simp only [Keyed.keys, List.mem_map, List.map_nil, List.not_mem_nil, false_or] at paths
      rw [← paths, ← Except.ok.inj rendered]
      simp

/-- Plans of different paths give files of these paths, in order. -/
theorem map_path_of_output
    {shelf : Shelf} {plans : List FilePlan} {entity : Option String} {files : List OutputFile}
    (rendered : ((renderPlans shelf [] [] (plans.map .ok)).output entity).files = .ok files)
    (apart : (plans.map (·.path)).Nodup) :
    files.map (·.path) = plans.map (·.path) := by
  rw [Rendering.output] at rendered
  cases keyed : (renderPlans shelf [] [] (plans.map .ok)).files with
  | error error =>
      rw [keyed] at rendered
      cases rendered
  | ok pairs =>
      rw [keyed] at rendered
      have paths := keys_of_renderPlans keyed apart
      rw [← Except.ok.inj rendered, List.map_map]
      exact paths

/-- The files of a rendering belong to its entity. -/
theorem entity_of_mem_output
    {rendering : Rendering} {entity : Option String} {files : List OutputFile}
    (rendered : (rendering.output entity).files = .ok files) {file : OutputFile}
    (member : file ∈ files) : file.entity = entity := by
  rw [Rendering.output] at rendered
  cases keyed : rendering.files with
  | error error =>
      rw [keyed] at rendered
      cases rendered
  | ok pairs =>
      rw [keyed] at rendered
      rw [← Except.ok.inj rendered] at member
      obtain ⟨_, _, rfl⟩ := List.mem_map.mp member
      rfl

/-- A rendering without a file had no plans. -/
theorem output_eq_nil_iff
    {shelf : Shelf} {plans : List (Except RenderError FilePlan)} {entity : Option String}
    {files : List OutputFile}
    (rendered : ((renderPlans shelf [] [] plans).output entity).files = .ok files) :
    files = [] ↔ plans = [] := by
  have paths := exists_plan_of_output rendered
  rw [Rendering.output] at rendered
  cases keyed : (renderPlans shelf [] [] plans).files with
  | error error =>
      rw [keyed] at rendered
      cases rendered
  | ok pairs =>
      constructor
      · rintro rfl
        refine List.eq_nil_iff_forall_not_mem.mpr fun planned member => ?_
        obtain ⟨plan, rfl⟩ := exists_of_mem_of_renderPlans keyed member
        obtain ⟨file, impossible, _⟩ := (paths plan.path).mpr ⟨plan, member, rfl⟩
        cases impossible
      · rintro rfl
        cases keyed
        rw [renderPlans] at rendered
        cases rendered
        rfl

end Scaffold
