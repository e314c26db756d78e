import Mathlib.Data.List.Infix
import Scaffold.Proofs.Output.Bundles

/-!
# The migration of a table

A migration is named after its key and its table.  From the built-in stub its method `up` creates
that table, and its method `down` drops it.
-/

namespace Scaffold

open Scaffold.Stub (Piece Shelf)

/-! ## Filling -/

namespace Stub

theorem toList_ofLines (lines : List String) :
    (ofLines lines).toList = ['\n'].intercalate (lines.map String.toList) ++ ['\n'] := by
  rw [ofLines, Text.joinLines, String.toList_append, String.toList_intercalate]
  rfl

/-- What stands around a placeholder of a stub stands around its value in the text. -/
theorem isInfix_fill
    {before after key stub value : String} {written : List Char} {values : Keyed String}
    (inside : before.toList.map .plain ++ .slot key written :: after.toList.map .plain <:+:
      cut stub.toList)
    (given : Keyed.get? values key = some value) :
    (before ++ value ++ after).toList <:+: (fill values stub).toList := by
  have plain (text : List Char) : (text.map .plain).flatMap (Piece.filled values) = text := by
    rw [List.flatMap_map]
    exact List.flatMap_singleton' text
  have filled := inside.flatMap (Piece.filled values)
  rw [List.flatMap_append, List.flatMap_cons, plain, plain, Piece.filled, given] at filled
  rw [fill, String.toList_ofList, String.toList_append, String.toList_append, List.append_assoc]
  exact filled

end Stub

/-! ## What a migration says -/

namespace Migration

/-- The method that creates a table, up to its columns. -/
def creation (table : String) : String :=
  "public function up(): void\n    \x7b\n        Schema::create('" ++ table ++
    "', function (Blueprint $table) \x7b\n"

/-- The method that drops a table. -/
def removal (table : String) : String :=
  "public function down(): void\n    \x7b\n        Schema::dropIfExists('" ++ table ++
    "');\n    \x7d\n"

/-- A text creates a table, and drops it again. -/
structure CreatesAndDrops (table text : String) : Prop where
  creates : (creation table).toList <:+: text.toList
  drops : (removal table).toList <:+: text.toList

/-- The built-in stub creates and drops the table that it is given. -/
theorem createsAndDrops_fill
    {values : Keyed String} {table : String} (given : Keyed.get? values "table" = some table) :
    CreatesAndDrops table (Stub.fill values Stub.migrationStub) := by
  constructor
  · refine @Stub.isInfix_fill _ _ _ _ _ "\x7b\x7b table \x7d\x7d".toList _ ?_ given
    rw [Stub.migrationStub, Stub.toList_ofLines]
    decide +kernel
  · refine @Stub.isInfix_fill _ _ _ _ _ "\x7b\x7b table \x7d\x7d".toList _ ?_ given
    rw [Stub.migrationStub, Stub.toList_ofLines]
    decide +kernel

end Migration

/-! ## The file of a migration -/

/-- A file is the migration of a table. -/
structure OutputFile.IsMigrationOf (config : Config) (table : String) (file : OutputFile) :
    Prop where
  single : file.aggregate = false
  exists_key : ∃ key : String, (∀ c ∈ key.toList, Migration.IsKeyCharacter c) ∧
    file.path = "Database/Migrations/" ++ Migration.fileName key table
  content : config.UsesBuiltinStubs → Migration.CreatesAndDrops table file.content

/-- The path of a migration tells its table. -/
theorem OutputFile.IsMigrationOf.table_eq
    {config : Config} {table other : String} {file again : OutputFile}
    (isMigration : file.IsMigrationOf config table) (isOther : again.IsMigrationOf config other)
    (same : file.path = again.path) : table = other := by
  obtain ⟨key, spelled, path⟩ := isMigration.exists_key
  obtain ⟨otherKey, otherSpelled, otherPath⟩ := isOther.exists_key
  rw [path, otherPath, String.append_right_inj] at same
  exact Migration.table_eq_of_fileName_eq spelled otherSpelled same

/-- A single plan gives a single file, filled with the values of the plan. -/
theorem exists_load_of_renderPlans
    {shelf : Shelf} {plan : FilePlan} {files : Keyed String}
    (rendered : (renderPlans shelf [] [] [.ok plan]).files = .ok files) :
    ∃ stub, shelf.load plan.stub = .ok stub ∧
      files = [(plan.path, Stub.fill plan.values stub)] := by
  rw [renderPlans, Shelf.render] at rendered
  cases loaded : shelf.load plan.stub with
  | error error =>
      rw [loaded] at rendered
      cases rendered
  | ok stub =>
      rw [loaded] at rendered
      exact ⟨stub, rfl, (Except.ok.inj rendered).symm⟩

theorem Descriptor.allPlans_migration
    (config : Config) (key : Option String) (names : Keyed String) (descriptor : Descriptor) :
    descriptor.allPlans config key [.migration] names =
      descriptor.plans config key names .migration := by
  have alone : FileKind.all.filter ([FileKind.migration].contains ·) = [.migration] := by decide
  rw [allPlans, alone]
  exact List.flatMap_singleton ..

/-- Of the kinds of files only the migration is generated, as a single file, if there is a key. -/
theorem Descriptor.generate_migration
    {config : Config} {clean : Bool} {tree : Disk.Tree} {key : Option String}
    {names : Keyed String} {descriptor : Descriptor} {files : List OutputFile}
    (spelled : ∀ text, key = some text → ∀ c ∈ text.toList, Migration.IsKeyCharacter c)
    (generated : (descriptor.generate config (config.shelf clean tree) key [.migration]
      names).files = .ok files) :
    ∃ file, files = [file] ∧ file.IsMigrationOf config descriptor.table := by
  rw [generate, allPlans_migration, Rendering.output] at generated
  cases rendered : (renderPlans (config.shelf clean tree) [] []
    (descriptor.plans config key names .migration)).files with
  | error error =>
      rw [rendered] at generated
      cases generated
  | ok pairs =>
      rw [rendered] at generated
      obtain rfl := Except.ok.inj generated
      cases key with
      | none => cases rendered
      | some key =>
          obtain ⟨stub, loaded, rfl⟩ := exists_load_of_renderPlans rendered
          refine ⟨_, rfl, rfl, ⟨key, spelled key rfl, rfl⟩, fun builtin => ?_⟩
          have standard : (config.shelf clean tree).load "migration" = .ok Stub.migrationStub := by
            rw [builtin.load_shelf]
            rfl
          obtain rfl := Except.ok.inj (standard.symm.trans loaded)
          exact Migration.createsAndDrops_fill rfl

end Scaffold
