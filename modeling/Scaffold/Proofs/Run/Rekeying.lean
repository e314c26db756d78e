import Scaffold.Proofs.Run.Rendering

/-!
# Rendering with other keys

Which entities can be rendered depends on which of them have a key, but not on the keys.
-/

namespace Scaffold

open Scaffold.Stub (Shelf)

/-- A file can be planned with one key as with another. -/
theorem Descriptor.sameStub_plans
    (config : Config) {first second : Option String} (same : second.isSome = first.isSome)
    (names : Keyed String) (descriptor : Descriptor) (kind : FileKind) :
    List.Forall₂ SameStub (descriptor.plans config first names kind)
      (descriptor.plans config second names kind) := by
  cases kind with
  | migration =>
      cases first <;> cases second
      · exact List.forall₂_same.mpr fun _ _ => rfl
      · cases same
      · cases same
      · exact .cons rfl .nil
  | _ => exact List.forall₂_same.mpr fun _ _ => rfl

theorem Descriptor.sameStub_allPlans
    (config : Config) {first second : Option String} (same : second.isSome = first.isSome)
    (kinds : List FileKind) (names : Keyed String) (descriptor : Descriptor) :
    List.Forall₂ SameStub (descriptor.allPlans config first kinds names)
      (descriptor.allPlans config second kinds names) := by
  rw [allPlans, allPlans]
  induction FileKind.all.filter (kinds.contains ·) with
  | nil => exact .nil
  | cons kind rest hypothesis =>
      rw [List.flatMap_cons, List.flatMap_cons]
      exact List.rel_append (sameStub_plans config same names descriptor kind) hypothesis

namespace RenderPlan

/-- A rendering repeats another one, perhaps with other keys. -/
structure Rekeys (second first : RenderPlan) : Prop where
  config : second.config = first.config
  selection : second.selection = first.selection
  shelf : second.shelf.Follows first.shelf

namespace Rekeys

variable {first second : RenderPlan}

theorem chosen? (rekeys : Rekeys second first) : second.chosen? = first.chosen? := by
  funext entity
  rw [RenderPlan.chosen?, RenderPlan.chosen?, rekeys.selection]

theorem kinds (rekeys : Rekeys second first) : second.kinds = first.kinds := by
  funext entity
  rw [RenderPlan.kinds, RenderPlan.kinds, rekeys.chosen?, rekeys.config]

theorem enter (rekeys : Rekeys second first) : second.enter = first.enter := by
  funext entity ledger
  rw [RenderPlan.enter, RenderPlan.enter, rekeys.chosen?, rekeys.kinds]

/-- An entity can be rendered with one key as with another. -/
theorem isOk_filesOf
    (rekeys : Rekeys second first) {descriptor : Descriptor}
    (same : (Keyed.get? second.keys descriptor.entity).isSome =
      (Keyed.get? first.keys descriptor.entity).isSome) :
    second.filesOf descriptor = .error .tooLong ∨
      (second.filesOf descriptor).isOk = (first.filesOf descriptor).isOk := by
  have outcome := renderPlans_outcome rekeys.shelf
    (Descriptor.sameStub_allPlans first.config same (first.kinds descriptor.entity)
      ((first.chosen? descriptor.entity).getD []) descriptor)
    (descriptor.nameStubs_allPlans _ _ _ _) [] [] [] []
  rw [filesOf, filesOf, Descriptor.generate, Descriptor.generate, Rendering.output,
    Rendering.output, rekeys.config, rekeys.kinds, rekeys.chosen?]
  rcases outcome with tooLong | outcome
  · rw [tooLong]
    exact .inl rfl
  · refine .inr ?_
    revert outcome
    cases (renderPlans second.shelf [] [] _).files <;>
      cases (renderPlans first.shelf [] [] _).files <;> intro outcome <;>
      first
      | rfl
      | cases outcome

/-- With the same key an entity has the same files. -/
theorem filesOf_eq
    (rekeys : Rekeys second first) {descriptor : Descriptor}
    (same : Keyed.get? second.keys descriptor.entity = Keyed.get? first.keys descriptor.entity) :
    second.filesOf descriptor = .error .tooLong ∨
      second.filesOf descriptor = first.filesOf descriptor := by
  rw [filesOf, filesOf, Descriptor.generate, Descriptor.generate, Rendering.output,
    Rendering.output, rekeys.config, rekeys.kinds, rekeys.chosen?, same]
  rcases renderPlans_files rekeys.shelf
    (descriptor.nameStubs_allPlans first.config (Keyed.get? first.keys descriptor.entity)
      (first.kinds descriptor.entity) ((first.chosen? descriptor.entity).getD [])) [] [] [] with
    tooLong | equal
  · rw [tooLong]
    exact .inl rfl
  · rw [equal]
    exact .inr rfl

/-- An entity has files with one key as with another. -/
theorem filesOf_eq_nil_iff
    (rekeys : Rekeys second first) {descriptor : Descriptor}
    (same : (Keyed.get? second.keys descriptor.entity).isSome =
      (Keyed.get? first.keys descriptor.entity).isSome)
    (short : second.filesOf descriptor ≠ .error .tooLong) :
    (second.filesOf descriptor).toOption.getD [] = [] ↔
      (first.filesOf descriptor).toOption.getD [] = [] := by
  have alike := (rekeys.isOk_filesOf same).resolve_left short
  cases secondFound : second.filesOf descriptor with
  | error secondError =>
      cases firstFound : first.filesOf descriptor with
      | error firstError => exact .rfl
      | ok firstFiles =>
          rw [secondFound, firstFound] at alike
          cases alike
  | ok secondFiles =>
      cases firstFound : first.filesOf descriptor with
      | error firstError =>
          rw [secondFound, firstFound] at alike
          cases alike
      | ok firstFiles =>
          have lengths := (Descriptor.sameStub_allPlans first.config same
            (first.kinds descriptor.entity) ((first.chosen? descriptor.entity).getD [])
            descriptor).length_eq
          rw [filesOf, Descriptor.generate] at secondFound firstFound
          rw [rekeys.config, rekeys.kinds, rekeys.chosen?] at secondFound
          simp only [Except.toOption, Option.getD_some]
          rw [output_eq_nil_iff secondFound, output_eq_nil_iff firstFound,
            ← List.length_eq_zero_iff, ← List.length_eq_zero_iff, lengths]

theorem entityFiles_eq_nil_iff
    (rekeys : Rekeys second first) {descriptors : List Descriptor}
    (same : ∀ entity, (Keyed.get? second.keys entity).isSome =
      (Keyed.get? first.keys entity).isSome)
    (short : ∀ descriptor ∈ descriptors, second.filesOf descriptor ≠ .error .tooLong) :
    second.entityFiles descriptors = [] ↔ first.entityFiles descriptors = [] := by
  rw [entityFiles, entityFiles, List.flatMap_eq_nil_iff, List.flatMap_eq_nil_iff]
  refine forall₂_congr fun descriptor member => ?_
  exact rekeys.filesOf_eq_nil_iff (same descriptor.entity) (short descriptor member)

theorem aggregatesOf_eq (rekeys : Rekeys second first) (module : String) (ledger : Ledger) :
    second.aggregatesOf module ledger = .error .tooLong ∨
      second.aggregatesOf module ledger = first.aggregatesOf module ledger := by
  rw [aggregatesOf, aggregatesOf, Aggregate.generate, Aggregate.generate, Rendering.output,
    Rendering.output, rekeys.config]
  rcases renderPlans_files rekeys.shelf
    (Aggregate.nameStubs_plans first.config module ledger.entities ledger.seeders) [] [] [] with
    tooLong | equal
  · rw [tooLong]
    exact .inl rfl
  · rw [equal]
    exact .inr rfl

end Rekeys

/-- The files of an entity have the paths of its plans. -/
theorem exists_plan_of_filesOf
    {plan : RenderPlan} {descriptor : Descriptor} {files : List OutputFile}
    (found : plan.filesOf descriptor = .ok files) (path : String) :
    (∃ file ∈ files, file.path = path) ↔
      ∃ kind ∈ plan.kinds descriptor.entity, ∃ one,
        .ok one ∈ descriptor.plans plan.config (Keyed.get? plan.keys descriptor.entity)
          ((plan.chosen? descriptor.entity).getD []) kind ∧ one.path = path := by
  rw [exists_plan_of_output found]
  simp only [Descriptor.allPlans, List.mem_flatMap, List.mem_filter, List.contains_iff_mem]
  have every (kind : FileKind) : kind ∈ FileKind.all := by
    cases kind <;> decide
  constructor
  · rintro ⟨one, ⟨kind, ⟨_, chosen⟩, planned⟩, same⟩
    exact ⟨kind, chosen, one, planned, same⟩
  · rintro ⟨kind, chosen, one, planned, same⟩
    exact ⟨one, ⟨kind, ⟨every kind, chosen⟩, planned⟩, same⟩

end RenderPlan

/-! ## Keys -/

theorem KeyAssignment.isSome_keys_addAll
    {module : String} {existing : Keyed String} {assignment : KeyAssignment}
    {asked : List Descriptor}
    (served : (KeyAssignment.addAll module existing assignment asked).exhausted = false)
    (entity : String) :
    (Keyed.get? (KeyAssignment.addAll module existing assignment asked).keys entity).isSome =
      ((Keyed.get? assignment.keys entity).isSome || asked.any (·.entity == entity)) := by
  have put (keys : Keyed String) (descriptor : Descriptor) (key : String) :
      (Keyed.get? (Keyed.put keys descriptor.entity key) entity).isSome =
        ((Keyed.get? keys entity).isSome || descriptor.entity == entity) := by
    rw [Keyed.get?_put]
    split_ifs with same
    · simp [same]
    · simp [same]
  induction asked generalizing assignment with
  | nil => simp [addAll]
  | cons descriptor rest hypothesis =>
      rw [addAll] at served ⊢
      split at served
      · rw [hypothesis served, put, List.any_cons, Bool.or_assoc]
      · split at served
        · rw [hypothesis served, put, List.any_cons, Bool.or_assoc]
        · cases served

/-- Which entities get a key does not depend on the sequence of keys. -/
theorem isSome_keys_of_assignKeys
    {tree : Disk.Tree} {folder : Disk.Path} {sequence : Migration.Sequence}
    {selection : Option Selection} {descriptors : List Descriptor} {keys : Keyed String}
    (assigned : (assignKeys tree folder sequence selection descriptors).1 = .ok keys)
    (entity : String) :
    (Keyed.get? keys entity).isSome =
      ((Migration.order descriptors).filter (wantsMigration selection)).any
        (·.entity == entity) := by
  rw [assignKeys] at assigned
  dsimp only at assigned
  split at assigned
  · cases assigned
  · split at assigned
    · cases assigned
    · split_ifs at assigned with exhausted
      · cases Except.ok.inj assigned
        rw [KeyAssignment.isSome_keys_addAll (by simpa using exhausted)]
        rfl

end Scaffold
