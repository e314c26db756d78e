import Scaffold.Proofs.Ledger.Saving
import Scaffold.Proofs.Output.Rendering

/-!
# The rendering of a module

A rendering that is not stopped consists of the files of the entities that can be rendered, in their
order, and of the aggregates when there are such files.  The ledger has then entered these entities.
-/

namespace Scaffold.RenderPlan

open Scaffold.Stub (Shelf StubError)

/-- The files of an entity, or why it is skipped. -/
def filesOf (plan : RenderPlan) (descriptor : Descriptor) : Except RenderError (List OutputFile) :=
  (descriptor.generate plan.config plan.shelf (Keyed.get? plan.keys descriptor.entity)
    (plan.kinds descriptor.entity) ((plan.chosen? descriptor.entity).getD [])).files

/-- The files of all entities that can be rendered. -/
def entityFiles (plan : RenderPlan) (descriptors : List Descriptor) : List OutputFile :=
  descriptors.flatMap fun descriptor => (plan.filesOf descriptor).toOption.getD []

/-- A ledger after the entities that can be rendered were entered. -/
def entered (plan : RenderPlan) (descriptors : List Descriptor) (ledger : Ledger) : Ledger :=
  (descriptors.filter fun descriptor => (plan.filesOf descriptor).isOk).foldl
    (fun ledger descriptor => plan.enter descriptor.entity ledger) ledger

/-- The aggregates of a module, or why they cannot be rendered. -/
def aggregatesOf (plan : RenderPlan) (module : String) (ledger : Ledger) :
    Except RenderError (List OutputFile) :=
  (Aggregate.generate plan.config plan.shelf module ledger.entities ledger.seeders).files

variable {plan : RenderPlan}

theorem entered_cons (descriptor : Descriptor) (rest : List Descriptor) (ledger : Ledger) :
    plan.entered (descriptor :: rest) ledger =
      plan.entered rest
        (if (plan.filesOf descriptor).isOk then plan.enter descriptor.entity ledger else ledger) := by
  rw [entered, List.filter_cons]
  split_ifs <;> rfl

/-! ## Entering entities -/

theorem enter_extends (plan : RenderPlan) (entity : String) (ledger : Ledger) :
    Ledger.Extends ledger (plan.enter entity ledger) := by
  rw [enter]
  split
  · exact (Ledger.register_extends ..).trans (Ledger.register_extends ..)
  · split_ifs
    · exact Ledger.register_extends ..
    · exact .refl ledger

theorem entered_extends (plan : RenderPlan) (descriptors : List Descriptor) (ledger : Ledger) :
    Ledger.Extends ledger (plan.entered descriptors ledger) := by
  induction descriptors generalizing ledger with
  | nil => exact .refl ledger
  | cons descriptor rest hypothesis =>
      rw [entered_cons]
      refine Ledger.Extends.trans ?_ (hypothesis _)
      split_ifs
      · exact plan.enter_extends _ _
      · exact .refl ledger

/-- A rendering of whole entities enters them with their seeders. -/
theorem knows_of_entered
    (whole : plan.selection = none) {descriptors : List Descriptor} {descriptor : Descriptor}
    (member : descriptor ∈ descriptors) (rendered : (plan.filesOf descriptor).isOk = true)
    (ledger : Ledger) :
    (plan.entered descriptors ledger).Knows descriptor.entity := by
  induction descriptors generalizing ledger with
  | nil => cases member
  | cons first rest hypothesis =>
      rw [entered_cons]
      rcases List.mem_cons.mp member with rfl | later
      · rw [if_pos rendered]
        refine Ledger.Knows.extend ?_ (plan.entered_extends _ _)
        rw [enter, chosen?, whole]
        exact Ledger.knows_register ledger descriptor.entity
      · exact hypothesis later _

/-- Entities that a ledger knows are not entered anew. -/
theorem entered_of_knows
    (whole : plan.selection = none) {descriptors : List Descriptor} {ledger : Ledger}
    (known : ∀ descriptor ∈ descriptors, (plan.filesOf descriptor).isOk = true →
      ledger.Knows descriptor.entity) :
    plan.entered descriptors ledger = ledger := by
  induction descriptors with
  | nil => rfl
  | cons descriptor rest hypothesis =>
      have others := hypothesis fun other member => known other (by simp [member])
      rw [entered_cons]
      split_ifs with rendered
      · obtain ⟨entity, seeder⟩ := known descriptor (by simp) rendered
        rw [enter, chosen?, whole]
        dsimp only [Option.bind_none]
        rw [Ledger.register_of_contains (Ledger.contains_entities.mpr entity),
          Ledger.register_of_contains (Ledger.contains_seeders.mpr seeder)]
        exact others
      · exact others

/-! ## Steps -/

/-- What adding an entity does to a rendering that it does not stop. -/
structure Adds (plan : RenderPlan) (descriptors : List Descriptor)
    (before after : ModuleRendering) : Prop where
  short : ∀ descriptor ∈ descriptors, plan.filesOf descriptor ≠ .error .tooLong
  files : after.files = before.files ++ plan.entityFiles descriptors
  ledger : after.ledger = plan.entered descriptors before.ledger
  /-- An entity that is skipped leaves an error in the report. -/
  rendered : after.report.generationErrors = [] →
    before.report.generationErrors = [] ∧
      ∀ descriptor ∈ descriptors, (plan.filesOf descriptor).isOk = true

theorem addEntity_spec
    {state : ModuleRendering} {descriptor : Descriptor}
    (running : (plan.addEntity state descriptor).stopped = none) :
    Adds plan [descriptor] state (plan.addEntity state descriptor) := by
  cases found : plan.filesOf descriptor with
  | ok files =>
      have generated := found
      rw [filesOf] at generated
      simp only [addEntity, generated]
      refine ⟨?_, ?_, ?_, fun clean => ⟨clean, ?_⟩⟩
      · simp [found]
      · simp [entityFiles, found, Except.toOption]
      · rw [entered_cons, found]
        rfl
      · simp [found, Except.isOk, Except.toBool]
  | error error =>
      have generated := found
      rw [filesOf] at generated
      by_cases tooLong : error = .tooLong
      · subst tooLong
        simp [addEntity, generated, RenderError.tooLong] at running
      · have skipped : ∃ logs, plan.addEntity state descriptor =
            { state with
              report := state.report.skipEntity descriptor.entity
                (descriptor.entity ++ ": " ++ error.message)
              logs } := by
          simp only [addEntity, generated]
          split
          · rename_i same
            cases same
          · rename_i same
            exact absurd (Except.error.inj same) tooLong
          · rename_i other _ same
            cases same
            exact ⟨_, rfl⟩
        obtain ⟨logs, skipped⟩ := skipped
        rw [skipped]
        refine ⟨?_, ?_, ?_, fun clean => ?_⟩
        · rw [List.forall_mem_singleton, found]
          exact fun same => tooLong (Except.error.inj same)
        · simp [entityFiles, found, Except.toOption]
        · rw [entered_cons, found]
          rfl
        · simp [Report.skipEntity] at clean

theorem Adds.trans
    {first second : List Descriptor} {before middle after : ModuleRendering}
    (adds : Adds plan first before middle) (further : Adds plan second middle after) :
    Adds plan (first ++ second) before after where
  short descriptor member :=
    (List.mem_append.mp member).elim (adds.short descriptor) (further.short descriptor)
  files := by
    rw [further.files, adds.files, List.append_assoc, entityFiles, entityFiles, entityFiles,
      List.flatMap_append]
  ledger := by
    rw [further.ledger, adds.ledger, entered, entered, entered, List.filter_append,
      List.foldl_append]
  rendered clean := by
    obtain ⟨middleClean, later⟩ := further.rendered clean
    obtain ⟨beforeClean, earlier⟩ := adds.rendered middleClean
    exact ⟨beforeClean, fun descriptor member =>
      (List.mem_append.mp member).elim (earlier descriptor) (later descriptor)⟩

/-- Render entities in turn, until one stops the rendering. -/
def addEntities (plan : RenderPlan) (descriptors : List Descriptor) (state : ModuleRendering) :
    ModuleRendering :=
  descriptors.foldl (fun state descriptor =>
    if state.stopped.isSome then state else plan.addEntity state descriptor) state

theorem stopped_addEntities
    {descriptors : List Descriptor} {state : ModuleRendering} (stopped : state.stopped.isSome) :
    plan.addEntities descriptors state = state := by
  induction descriptors with
  | nil => rfl
  | cons descriptor rest hypothesis =>
      rw [addEntities, List.foldl_cons, if_pos stopped]
      exact hypothesis

theorem addEntities_spec
    {descriptors : List Descriptor} {state : ModuleRendering} (running : state.stopped = none)
    (still : (plan.addEntities descriptors state).stopped = none) :
    Adds plan descriptors state (plan.addEntities descriptors state) := by
  induction descriptors generalizing state with
  | nil => exact ⟨by simp, by simp [addEntities, entityFiles], rfl, fun clean => ⟨clean, by simp⟩⟩
  | cons descriptor rest hypothesis =>
      have step : plan.addEntities (descriptor :: rest) state =
          plan.addEntities rest (plan.addEntity state descriptor) := by
        rw [addEntities, List.foldl_cons, running]
        rfl
      rw [step] at still ⊢
      cases next : (plan.addEntity state descriptor).stopped with
      | some error =>
          rw [stopped_addEntities (by simp [next]), next] at still
          cases still
      | none => exact (addEntity_spec next).trans (hypothesis next still)

theorem addAggregates_spec
    {module : String} {state : ModuleRendering} (some : state.files ≠ [])
    (running : (plan.addAggregates module state).stopped = none) :
    (∀ error, plan.aggregatesOf module state.ledger ≠ .error (.stub (.disk error))) ∧
      (plan.addAggregates module state).files =
        state.files ++ (plan.aggregatesOf module state.ledger).toOption.getD [] ∧
      (plan.addAggregates module state).ledger = state.ledger ∧
      ((plan.addAggregates module state).report.generationErrors = [] →
        state.report.generationErrors = [] ∧
          (plan.aggregatesOf module state.ledger).isOk = true) := by
  have listed : ¬ state.files.isEmpty = true := by simpa using some
  cases found : plan.aggregatesOf module state.ledger with
  | ok files =>
      have generated := found
      rw [aggregatesOf] at generated
      simp only [addAggregates, if_neg listed, generated]
      exact ⟨by simp, rfl, trivial, fun clean => ⟨clean, rfl⟩⟩
  | error error =>
      have generated := found
      rw [aggregatesOf] at generated
      rw [addAggregates, if_neg listed] at running ⊢
      simp only [generated] at running ⊢
      split at running
      · rename_i same
        cases same
      · cases running
      · rename_i other notDisk same
        cases same
        refine ⟨fun fault wrong => notDisk fault (Except.error.inj wrong), ?_, ?_, fun clean => ?_⟩
        · simp [Except.toOption]
        · rfl
        · simp [Report.addGenerationError] at clean

/-- Rendering does not touch the manifest of a report. -/
theorem manifest_run
    (plan : RenderPlan) (module : String) (ledger : Ledger) (report : Report)
    (descriptors : List Descriptor) :
    (plan.run module ledger report descriptors).report.manifest = report.manifest := by
  have entity (state : ModuleRendering) (descriptor : Descriptor) :
      (plan.addEntity state descriptor).report.manifest = state.report.manifest := by
    rw [addEntity]
    dsimp only
    split <;> rfl
  have entities (state : ModuleRendering) :
      (plan.addEntities descriptors state).report.manifest = state.report.manifest := by
    rw [addEntities]
    induction descriptors generalizing state with
    | nil => rfl
    | cons descriptor rest hypothesis =>
        rw [List.foldl_cons, hypothesis]
        split_ifs
        · rfl
        · exact entity state descriptor
  have aggregates (state : ModuleRendering) :
      (plan.addAggregates module state).report.manifest = state.report.manifest := by
    rw [addAggregates]
    dsimp only
    split_ifs
    · rfl
    · split <;> rfl
  have closes (state : ModuleRendering) :
      (if state.stopped.isSome then state else close state).report.manifest =
        state.report.manifest := by
    split_ifs
    · rfl
    · rfl
  refine (closes _).trans ?_
  rw [← addEntities]
  split_ifs
  · exact entities _
  · exact (aggregates _).trans (entities _)

/-- What a rendering that is not stopped consists of. -/
structure Renders (plan : RenderPlan) (module : String) (descriptors : List Descriptor)
    (ledger : Ledger) (rendering : ModuleRendering) : Prop where
  short : ∀ descriptor ∈ descriptors, plan.filesOf descriptor ≠ .error .tooLong
  ledger : rendering.ledger = plan.entered descriptors ledger
  /-- Without a file of an entity nothing is rendered. -/
  nothing : plan.entityFiles descriptors = [] → rendering.files = []
  files : plan.entityFiles descriptors ≠ [] →
    (∀ error, plan.aggregatesOf module rendering.ledger ≠ .error (.stub (.disk error))) ∧
      rendering.files = plan.entityFiles descriptors ++
        (plan.aggregatesOf module rendering.ledger).toOption.getD []

/-- A rendering that is not stopped consists of entities and aggregates. -/
theorem run_spec
    {module : String} {ledger : Ledger} {report : Report} {descriptors : List Descriptor}
    (running : (plan.run module ledger report descriptors).stopped = none) :
    Renders plan module descriptors ledger (plan.run module ledger report descriptors) ∧
      ((plan.run module ledger report descriptors).report.generationErrors = [] →
        report.generationErrors = [] ∧
        (∀ descriptor ∈ descriptors, (plan.filesOf descriptor).isOk = true) ∧
          (plan.entityFiles descriptors ≠ [] →
            (plan.aggregatesOf module (plan.entered descriptors ledger)).isOk = true)) := by
  have shape : plan.run module ledger report descriptors =
      let rendered := plan.addEntities descriptors { ledger, report }
      let complete :=
        if rendered.stopped.isSome then rendered else plan.addAggregates module rendered
      if complete.stopped.isSome then complete else close complete :=
    rfl
  rw [shape] at running ⊢
  dsimp only at running ⊢
  cases still : (plan.addEntities descriptors { ledger, report }).stopped with
  | some error => simp [still] at running
  | none =>
      have adds := @addEntities_spec plan descriptors { ledger, report } rfl still
      simp only [still, Option.isSome_none, Bool.false_eq_true, if_false] at running ⊢
      generalize plan.addEntities descriptors { ledger, report } = rendered at *
      have rendersLedger : rendered.ledger = plan.entered descriptors ledger := adds.ledger
      have rendersFiles : rendered.files = plan.entityFiles descriptors := by
        rw [adds.files]
        rfl
      by_cases nothing : rendered.files = []
      · have unchanged : plan.addAggregates module rendered = rendered := by
          simp [addAggregates, nothing]
        rw [unchanged] at running ⊢
        simp only [still, Option.isSome_none, Bool.false_eq_true, if_false]
        rw [rendersFiles] at nothing
        refine ⟨⟨adds.short, rendersLedger, fun _ => ?_, fun some => absurd nothing some⟩,
          fun clean => ?_⟩
        · exact rendersFiles.trans nothing
        · obtain ⟨before, each⟩ := adds.rendered clean
          exact ⟨before, each, fun some => absurd nothing some⟩
      · have stillRunning : (plan.addAggregates module rendered).stopped = none := by
          cases stopped : (plan.addAggregates module rendered).stopped with
          | none => rfl
          | some error => simp [stopped] at running
        obtain ⟨noDisk, files, ledgerKept, clean⟩ := addAggregates_spec nothing stillRunning
        simp only [stillRunning, Option.isSome_none, Bool.false_eq_true, if_false]
        rw [rendersFiles] at nothing
        refine ⟨⟨adds.short, ledgerKept.trans rendersLedger, fun none => absurd none nothing,
          fun _ => ⟨?_, ?_⟩⟩, fun reportClean => ?_⟩
        · intro error
          rw [close, ledgerKept]
          exact noDisk error
        · rw [close, ledgerKept, files, rendersFiles]
        · obtain ⟨beforeAggregates, aggregates⟩ := clean reportClean
          obtain ⟨before, each⟩ := adds.rendered beforeAggregates
          rw [← rendersLedger]
          exact ⟨before, each, fun _ => aggregates⟩

end Scaffold.RenderPlan
