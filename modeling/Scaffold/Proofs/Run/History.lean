import Mathlib.Logic.Relation
import Scaffold.Proofs.Run.Bookkeeping
import Scaffold.Proofs.Run.Idempotence
import Scaffold.Proofs.Run.Tasks

/-!
# Runs on one module

Tasks of any modes follow each other on one module, with the same settings and the built-in stubs.
No run loses an entry of the ledger, and every run that exports leaves aggregates that agree with it.
-/

namespace Scaffold

open Scaffold.Disk (Path Tree)
open Scaffold.Migration

namespace Run

/-- A run performs a task on a tree, and not as a dry run. -/
def Performs (config : Config) (task : ModuleTask) (tree : Tree) (run : Run) : Prop :=
  ∃ time sequence, run = ({ config, time } : Generator).perform tree sequence task

/-- A run performs some task for a module. -/
def IsOn (config : Config) (module : String) (tree : Tree) (run : Run) : Prop :=
  ∃ task : ModuleTask, task.IsFor config module tree ∧ run.Performs config task tree

/-- A run reports no error of its export, and if it was stopped, then before it changed anything. -/
structure ExportsCleanly (tree : Tree) (run : Run) : Prop where
  clean : run.report.exportErrors = []
  undisturbed : run.stopped = none ∨ run.tree = tree

/-- Clean runs on a module lead from one tree to another. -/
def Leads (config : Config) (module : String) : Tree → Tree → Prop :=
  Relation.ReflTransGen fun tree later =>
    ∃ run : Run, run.IsOn config module tree ∧ run.ExportsCleanly tree ∧ run.tree = later

/-- The books of a module after a run: they go on from those before it. -/
structure KeepsBooks (config : Config) (module : String) (earlier : Ledger) (run : Run) (later : Ledger) :
    Prop where
  kept : Ledger.kept? run.tree (config.moduleFolder module) module = some later
  entities : earlier.entities <+: later.entities
  seeders : earlier.seeders <+: later.seeders
  rendered : run.report.manifest.isSome = true → later.IsRenderedIn config module run.tree

/-- A run that changes nothing and exports nothing keeps the books as they are. -/
theorem KeepsBooks.of_tree_eq
    {config : Config} {module : String} {tree : Tree} {earlier : Ledger} {run : Run}
    (kept : Ledger.kept? tree (config.moduleFolder module) module = some earlier)
    (same : run.tree = tree) (unlisted : run.report.manifest = none) :
    KeepsBooks config module earlier run earlier where
  kept := (congrArg (Ledger.kept? · (config.moduleFolder module) module) same).trans kept
  entities := List.prefix_rfl
  seeders := List.prefix_rfl
  rendered listed := by simp [unlisted] at listed

/-- One run keeps the books of a module, on a tree that stays sound. -/
theorem exists_keepsBooks
    {config : Config} (builtin : config.UsesBuiltinStubs) {module : String} {tree : Tree}
    (sound : tree.IsSound) {earlier : Ledger}
    (kept : Ledger.kept? tree (config.moduleFolder module) module = some earlier) {run : Run}
    (isOn : run.IsOn config module tree) (clean : run.ExportsCleanly tree) :
    run.tree.IsSound ∧ ∃ later, KeepsBooks config module earlier run later := by
  obtain ⟨task, isFor, time, sequence, performed⟩ := isOn
  have answers : Answers { config, time } task config module tree run := by
    rw [performed]
    exact answers_perform sequence isFor
  have idle (same : run.tree = tree) (unlisted : run.report.manifest = none) :
      run.tree.IsSound ∧ ∃ later, KeepsBooks config module earlier run later :=
    ⟨same ▸ sound, earlier, .of_tree_eq kept same unlisted⟩
  cases answers with
  | ends before begins fails =>
      exact idle (fails.tree.trans begins.tree) (fails.manifest.trans begins.manifest)
  | asks before begins request asks comes =>
      cases comes with
      | fails fails =>
          exact idle (fails.tree.trans begins.tree) (fails.manifest.trans begins.manifest)
      | exports preparation middle prepares exports =>
          by_cases running : run.stopped = none
          · obtain rfl := begins.tree
            obtain rfl := asks.config
            obtain rfl := asks.module
            have landed := exports.landed prepares sound
              (Request.isAlphanumeric_of_selection asks.selection) rfl running clean.clean
            have extended := landed.extends_of_kept? kept
            refine ⟨landed.laterSound, _, landed.kept?_later asks.there, extended.entities,
              extended.seeders, fun _ => landed.isRenderedIn builtin⟩
          · refine idle (clean.undisturbed.resolve_left running) ?_
            rw [manifest_exportFiles exports.exported exports.running running, exports.manifest,
              begins.manifest]

/-- Along clean runs the tree stays sound, and the ledger can be read. -/
theorem Leads.isSome_kept?
    {config : Config} (builtin : config.UsesBuiltinStubs) {module : String} {start tree : Tree}
    (sound : start.IsSound)
    (readable : (Ledger.kept? start (config.moduleFolder module) module).isSome = true)
    (leads : Leads config module start tree) :
    tree.IsSound ∧ (Ledger.kept? tree (config.moduleFolder module) module).isSome = true := by
  induction leads with
  | refl => exact ⟨sound, readable⟩
  | tail _ step hypothesis =>
      obtain ⟨run, isOn, clean, rfl⟩ := step
      obtain ⟨soundBefore, readableBefore⟩ := hypothesis
      obtain ⟨earlier, kept⟩ := Option.isSome_iff_exists.mp readableBefore
      obtain ⟨soundAfter, later, books⟩ := exists_keepsBooks builtin soundBefore kept isOn clean
      exact ⟨soundAfter, Option.isSome_iff_exists.mpr ⟨later, books.kept⟩⟩

end Run

/--
After any clean runs on a module, the next one leaves a ledger that begins with the entries before
it; if it came to its export, the aggregates are those of the lists that it leaves.
-/
theorem ledger_and_aggregates_stay_in_step
    {config : Config} (builtin : config.UsesBuiltinStubs) {module : String} {start : Tree}
    (sound : start.IsSound)
    (readable : (Ledger.kept? start (config.moduleFolder module) module).isSome = true)
    {tree : Tree} (leads : Run.Leads config module start tree) {run : Run}
    (isOn : run.IsOn config module tree) (clean : run.ExportsCleanly tree) :
    ∃ earlier later,
      Ledger.kept? tree (config.moduleFolder module) module = some earlier ∧
      Ledger.kept? run.tree (config.moduleFolder module) module = some later ∧
      earlier.entities <+: later.entities ∧ earlier.seeders <+: later.seeders ∧
      (run.report.manifest.isSome = true → later.IsRenderedIn config module run.tree) := by
  obtain ⟨soundNow, readableNow⟩ := leads.isSome_kept? builtin sound readable
  obtain ⟨earlier, kept⟩ := Option.isSome_iff_exists.mp readableNow
  obtain ⟨_, later, books⟩ := Run.exists_keepsBooks builtin soundNow kept isOn clean
  exact ⟨earlier, later, kept, books.kept, books.entities, books.seeders, books.rendered⟩

/-- The first run on a module that is not there yet leaves a ledger and its aggregates. -/
theorem ledger_and_aggregates_stay_in_step_blog :
    let run := (Generator.addTwice { config := {}, time := "" } {} (stillSequence 2024)
      blogOfPosts).1
    (({} : Config).UsesBuiltinStubs ∧ ({} : Tree).IsSound ∧
      (Ledger.kept? {} (({} : Config).moduleFolder "Blog") "Blog").isSome = true ∧
      run.IsOn {} "Blog" {} ∧ run.ExportsCleanly {}) ∧
    ∃ later, Ledger.kept? run.tree (({} : Config).moduleFolder "Blog") "Blog" = some later ∧
      later.IsRenderedIn {} "Blog" run.tree := by
  -- the run stays a variable below: nothing may evaluate it
  obtain ⟨runs, made⟩ : ∃ runs, runs = Generator.addTwice { config := {}, time := "" } {}
      (stillSequence 2024) blogOfPosts := ⟨_, rfl⟩
  have exports := addTwice_blog_exports
  dsimp only at exports ⊢
  rw [← made] at exports ⊢
  obtain ⟨⟨running, clean⟩, listed⟩ := exports
  have builtin : ({} : Config).UsesBuiltinStubs := by decide
  have readable : (Ledger.kept? {} (({} : Config).moduleFolder "Blog") "Blog").isSome = true := by
    decide
  have isOn : runs.1.IsOn {} "Blog" {} := by
    refine ⟨.define blogOfPosts true, (by decide : blogOfPosts.studlyName = "Blog"), "",
      stillSequence 2024, ?_⟩
    rw [made, Generator.addTwice, Generator.perform]
  have undisturbed : runs.1.ExportsCleanly {} := ⟨clean, .inl running⟩
  refine ⟨⟨builtin, Tree.isSound_empty, readable, isOn, undisturbed⟩, ?_⟩
  obtain ⟨_, later, _, kept, _, _, rendered⟩ := ledger_and_aggregates_stay_in_step builtin
    Tree.isSound_empty readable .refl isOn undisturbed
  exact ⟨later, kept, rendered listed⟩

end Scaffold
