import Scaffold.Proofs.Run.Landing

/-!
# Tasks for a module

A generator performs one task after another.  Whatever the mode, a task for a module either ends
before there is anything to export or comes to one request for that module, on the tree as it was.
-/

namespace Scaffold

open Scaffold.Disk (Path Tree)
open Scaffold.Document (Entries Value)

/-- What a generator is asked to do, mode by mode. -/
inductive ModuleTask where
  /-- Start a module with one entity of its own name. -/
  | start (name : String)
  /-- Generate a definition, on request for a module that exists. -/
  | define (definition : ModuleDefinition) (append : Bool)
  /-- Generate the definition of a file, with another module name and further settings. -/
  | defineByFile (path : Path) (name : String) (settings : Entries) (append : Bool)
  /-- Generate single files of a module that exists. -/
  | select (name : String) (requests : Keyed String) (definition : Option ModuleDefinition)

namespace ModuleTask

/-- The files that a task asks for, if it asks for single ones. -/
def selection? : ModuleTask → Option Selection
  | .select _ requests _ => some (Selection.ofRequests requests)
  | _ => none

/-- A task generates a module with given settings.  A file may hold settings of its own. -/
def IsFor (config : Config) (module : String) (tree : Tree) : ModuleTask → Prop
  | .start name | .select name _ _ => Text.studlyCase name = module
  | .define definition _ => definition.studlyName = module
  | .defineByFile path name settings _ => ∀ document,
      ModuleDocument.load tree path name settings = .ok document →
        document.config = config ∧ document.definition.studlyName = module

end ModuleTask

/-- Perform a task. -/
def Generator.perform (generator : Generator) (tree : Tree) (sequence : Migration.Sequence) :
    ModuleTask → Run
  | .start name => generator.cleanModule tree sequence name
  | .define definition append =>
      generator.dynamicModule tree sequence generator.config append definition
  | .defineByFile path name settings append =>
      generator.fileModule tree sequence path name append settings
  | .select name requests definition =>
      generator.selectedFiles tree sequence name requests definition

/-! ## Class names that are chosen -/

/-- Every class name of a selection is made of letters and digits. -/
def Selection.AreNamed (selection : Selection) : Prop :=
  ∀ entity names, Keyed.get? selection entity = some names → Descriptor.AreNamed names

theorem Selection.AreNamed.add
    {selection : Selection} (named : selection.AreNamed) (kind : FileKind) (suffix value : String) :
    (selection.add kind suffix value).AreNamed := by
  intro entity names found
  rw [Selection.add, Keyed.get?_put] at found
  split_ifs at found with same
  · obtain rfl := Option.some.inj found
    intro other name given
    rw [Keyed.get?_put] at given
    split_ifs at given
    · obtain rfl := Option.some.inj given
      exact fun c => Text.isAlphanum_of_mem_studlyCase
    · cases chosen : Keyed.get? selection (entityOf kind suffix value) with
      | none =>
          rw [chosen] at given
          cases given
      | some before =>
          rw [chosen] at given
          exact named _ before chosen other name given
  · exact named entity names found

theorem Selection.areNamed_ofRequests (requests : Keyed String) :
    (Selection.ofRequests requests).AreNamed := by
  refine List.foldlRecOn selectableKinds _ ?_ fun selection named kind _ => ?_
  · intro entity names found
    cases found
  · dsimp only
    split
    · exact named.add _ _ _
    · exact named

theorem Request.isAlphanumeric_of_selection
    {request : Request} {task : ModuleTask} (selection : request.selection = task.selection?) :
    request.IsAlphanumeric := by
  intro entity kind name found
  rw [Request.names, selection] at found
  cases task with
  | select module requests definition =>
      cases chosen : Keyed.get? (Selection.ofRequests requests) entity with
      | none =>
          simp only [ModuleTask.selection?, Option.bind_some, chosen] at found
          cases found
      | some names =>
          simp only [ModuleTask.selection?, Option.bind_some, chosen] at found
          exact Selection.areNamed_ofRequests requests entity names chosen kind name found
  | _ => cases found

/-! ## Requests of tasks -/

/-- A task comes to a request for a module, which is there already if single files are asked for. -/
structure ModuleTask.Asks (task : ModuleTask) (config : Config) (module : String) (tree : Tree)
    (request : Request) : Prop where
  config : request.config = config
  module : request.module = module
  selection : request.selection = task.selection?
  there : request.selection = none ∨ tree.isFolder request.folder = .ok true

/-- A run that has exported nothing yet and knows of no error. -/
structure Run.Begins (tree : Tree) (run : Run) : Prop where
  tree : run.tree = tree
  manifest : run.report.manifest = none
  reviewed : run.report.validationErrors = []

theorem Generator.begins_start
    (generator : Generator) (tree : Tree) (sequence : Migration.Sequence) (mode : RunMode) :
    (generator.start tree sequence mode).Begins tree :=
  ⟨rfl, rfl, rfl⟩

theorem ModuleDefinition.name_of_ofParts
    {name : String} {components : List Value} {definition : ModuleDefinition}
    (made : ofParts name components = .ok definition) : definition.name = name := by
  rw [ofParts, read, Document.Checked.toExcept] at made
  split at made
  · rename_i none
    obtain rfl := Except.ok.inj made
    simp only [check, List.append_eq_nil_iff] at none ⊢
    have unread := none.1.1
    simp only [Document.checkField, Entries.get?, beq_self_eq_true, if_true, Value.content,
      Document.checkWith, Document.readText, Document.textOf] at unread ⊢
    split_ifs at unread ⊢
    · cases unread
    · rfl
  · cases made

namespace Run

variable {generator : Generator}

/-- What performing a task comes to. -/
inductive Answers (generator : Generator) (task : ModuleTask) (config : Config) (module : String)
    (tree : Tree) (after : Run) : Prop where
  /-- Nothing was exported. -/
  | ends (before : Run) (begins : before.Begins tree) (fails : Fails before after)
  | asks (before : Run) (begins : before.Begins tree) (request : Request)
      (asks : task.Asks config module tree request) (comes : Comes generator request before after)

theorem fails_stop (run : Run) (error : RunError) : Fails run (run.stop error) :=
  ⟨rfl, .inl (by simp [stop]), rfl⟩

theorem fails_fail (run : Run) (message : String) : Fails run (run.fail message) :=
  ⟨rfl, .inr (success_eq_false_of_fail run message), rfl⟩

theorem fails_failInput (run : Run) (error : Document.ShapeError) :
    Fails run (run.failInput error) := by
  refine ⟨rfl, .inr ?_, rfl⟩
  simp [failInput, mapReport, Report.addInputError, Report.success]

/-- A definition is generated unless its module is there and must not be. -/
theorem answers_addDefinition
    {tree : Tree} {before : Run} (begins : before.Begins tree) {config : Config}
    {task : ModuleTask} (whole : task.selection? = none) (append : Bool)
    (definition : ModuleDefinition) :
    Answers generator task config definition.studlyName tree
      (generator.addDefinition config append definition before) := by
  rw [Generator.addDefinition]
  dsimp only
  cases config.hasModule before.tree definition.studlyName with
  | error error => exact .ends before begins (fails_stop _ _)
  | ok isThere =>
      rw [withAnswer]
      split_ifs
      · refine .ends { before with report := { before.report with module := definition.studlyName } }
          ?_ (fails_fail _ _)
        exact ⟨begins.tree, begins.manifest, begins.reviewed⟩
      · refine .asks before begins ⟨config, false, none, definition⟩ ⟨rfl, rfl, whole.symm, .inl rfl⟩ ?_
        exact generate_spec generator ⟨config, false, none, definition⟩ before begins.reviewed

theorem answers_cleanModule
    (generator : Generator) (tree : Tree) (sequence : Migration.Sequence) (name : String) :
    Answers generator (.start name) generator.config (Text.studlyCase name) tree
      (generator.cleanModule tree sequence name) := by
  have begins := generator.begins_start tree sequence .clean
  rw [Generator.cleanModule]
  generalize generator.start tree sequence .clean = before at *
  dsimp only
  cases made : ModuleDefinition.ofParts name [Component.bareDocument name] with
  | error error => exact .ends _ begins (fails_failInput _ _)
  | ok definition =>
      dsimp only
      cases generator.config.hasModule tree definition.studlyName with
      | error error => exact .ends _ begins (fails_stop _ _)
      | ok isThere =>
          rw [withAnswer]
          split_ifs
          · refine .ends
              { before with report := { before.report with module := definition.studlyName } } ?_
              (fails_fail _ _)
            exact ⟨begins.tree, begins.manifest, begins.reviewed⟩
          · refine .asks before begins ⟨generator.config, true, none, definition⟩
              ⟨rfl, ?_, rfl, .inl rfl⟩
              (generate_spec generator ⟨generator.config, true, none, definition⟩ _ begins.reviewed)
            rw [Request.module, ModuleDefinition.studlyName,
              ModuleDefinition.name_of_ofParts made]

theorem answers_selectedFiles
    (generator : Generator) (tree : Tree) (sequence : Migration.Sequence) (name : String)
    (requests : Keyed String) (definition : Option ModuleDefinition) :
    Answers generator (.select name requests definition) generator.config (Text.studlyCase name)
      tree (generator.selectedFiles tree sequence name requests definition) := by
  have start := generator.begins_start tree sequence .individual
  rw [Generator.selectedFiles]
  dsimp only
  generalize made : ({ generator.start tree sequence .individual with
    report := { (generator.start tree sequence .individual).report with
      module := Text.studlyCase name } } : Run) = before
  have begins : before.Begins tree := by
    subst made
    exact ⟨start.tree, start.manifest, start.reviewed⟩
  split_ifs
  · refine .ends before begins ⟨rfl, .inr ?_, rfl⟩
    simp [mapReport, Report.addInputError, Report.success]
  · cases found : generator.config.hasModule tree (Text.studlyCase name) with
    | error error => exact .ends before begins (fails_stop _ _)
    | ok isThere =>
        rw [withAnswer]
        split_ifs with absent
        · exact .ends before begins (fails_fail _ _)
        · split
          · exact .ends before begins (fails_failInput _ _)
          · rename_i whole parts
            have studly : whole.studlyName = Text.studlyCase name := by
              rw [ModuleDefinition.studlyName, ModuleDefinition.name_of_ofParts parts,
                Text.studlyCase_studlyCase]
            refine .asks before begins
              ⟨generator.config, false, some (Selection.ofRequests requests), whole⟩
              ⟨rfl, studly, rfl, .inr ?_⟩
              (generate_spec generator
                ⟨generator.config, false, some (Selection.ofRequests requests), whole⟩ before
                begins.reviewed)
            have isThereTrue : isThere = true := by simpa using absent
            rw [Request.folder, Request.module, studly]
            rw [isThereTrue] at found
            exact found

/-- Errors of a file end a run before it generates anything. -/
theorem answers_fileModule
    (generator : Generator) (tree : Tree) (sequence : Migration.Sequence) {path : Path}
    {name : String} {settings : Entries} {append : Bool} {config : Config} {module : String}
    (isFor : (ModuleTask.defineByFile path name settings append).IsFor config module tree) :
    Answers generator (.defineByFile path name settings append) config module tree
      (generator.fileModule tree sequence path name append settings) := by
  have begins := generator.begins_start tree sequence (Generator.definitionMode append)
  rw [Generator.fileModule]
  generalize generator.start tree sequence (Generator.definitionMode append) = before at *
  dsimp only
  cases loaded : ModuleDocument.load tree path name settings with
  | error error =>
      dsimp only
      split
      · exact .ends before begins (fails_stop _ _)
      · refine .ends before begins ⟨rfl, .inr ?_, rfl⟩
        simp [mapReport, Report.addInputError, Report.addStep, Report.success]
  | ok document =>
      obtain ⟨sameConfig, same⟩ := isFor document loaded
      dsimp only
      rw [sameConfig, ← same]
      refine answers_addDefinition ?_ rfl append document.definition
      exact ⟨begins.tree, begins.manifest, begins.reviewed⟩

/-- A task for a module ends early or comes to a request for that module. -/
theorem answers_perform
    {task : ModuleTask} {module : String} {tree : Tree} (sequence : Migration.Sequence)
    (isFor : task.IsFor generator.config module tree) :
    Answers generator task generator.config module tree (generator.perform tree sequence task) := by
  cases task with
  | start name =>
      obtain rfl : Text.studlyCase name = module := isFor
      exact answers_cleanModule generator tree sequence name
  | define definition append =>
      obtain rfl : definition.studlyName = module := isFor
      rw [Generator.perform, Generator.dynamicModule]
      exact answers_addDefinition (generator.begins_start _ _ _) rfl append definition
  | defineByFile path name settings append =>
      exact answers_fileModule generator tree sequence isFor
  | select name requests definition =>
      obtain rfl : Text.studlyCase name = module := isFor
      exact answers_selectedFiles generator tree sequence name requests definition

end Run

end Scaffold
