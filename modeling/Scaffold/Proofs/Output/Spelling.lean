import Scaffold.Proofs.Migration.ExistingKeys
import Scaffold.Proofs.Output.Places

/-!
# How the paths of generated files are spelled

The path of a generated file leads down from the folder of its module: its parts are letters, digits
and a few marks, and none of them leads back.
-/

namespace Scaffold

open Scaffold.Disk (IsPlainName Path)

/-- A character of a path.  The keys of migrations may have the decimal digits of any script. -/
def IsPathCharacter (c : Char) : Prop :=
  c.isAlphanum = true ∨ Text.isDecimalDigit c = true ∨ c ∈ ['_', '-', '.']

instance (c : Char) : Decidable (IsPathCharacter c) :=
  inferInstanceAs (Decidable (_ ∨ _ ∨ _))

theorem Text.IsNameCharacter.isPathCharacter {c : Char} (named : IsNameCharacter c) :
    IsPathCharacter c := by
  rcases named with alphanum | rfl
  · exact .inl alphanum
  · decide

theorem Migration.IsKeyCharacter.isPathCharacter {c : Char} (inKey : IsKeyCharacter c) :
    IsPathCharacter c := by
  rcases inKey with digit | rfl
  · exact .inr (.inl digit)
  · decide

/-- A part of a path between slashes that leads down. -/
structure IsInnerPart (part : List Char) : Prop where
  nonempty : part ≠ []
  notHere : part ≠ ['.']
  notParent : part ≠ ['.', '.']
  characters : ∀ c ∈ part, IsPathCharacter c

instance (part : List Char) : Decidable (IsInnerPart part) :=
  have : Decidable (∀ c ∈ part, IsPathCharacter c) := List.decidableBAll _ part
  decidable_of_iff (part ≠ [] ∧ part ≠ ['.'] ∧ part ≠ ['.', '.'] ∧ ∀ c ∈ part, IsPathCharacter c)
    ⟨fun ⟨nonempty, notHere, notParent, characters⟩ => ⟨nonempty, notHere, notParent, characters⟩,
      fun inner => ⟨inner.nonempty, inner.notHere, inner.notParent, inner.characters⟩⟩

/-- A path that leads down from where it starts, part by part. -/
structure IsInnerPath (path : String) : Prop where
  relative : (Path.ofText path).isAbsolute = false
  parts : ∀ part ∈ Path.splitSlash path.toList, IsInnerPart part

/-! ## Spelling -/

/-- A text consists of characters of paths and of slashes. -/
def IsSpelled (text : String) : Prop :=
  ∀ c ∈ text.toList, c = '/' ∨ IsPathCharacter c

instance (text : String) : Decidable (IsSpelled text) :=
  List.decidableBAll _ text.toList

theorem IsSpelled.append {first second : String} (spelled : IsSpelled first)
    (also : IsSpelled second) : IsSpelled (first ++ second) := by
  intro c inside
  rw [String.toList_append, List.mem_append] at inside
  exact inside.elim (spelled c) (also c)

/-- A name of letters and digits between two texts that are spelled. -/
theorem isSpelled_enclosed
    {start name ending : String} (enclosed : IsSpelled start ∧ IsSpelled ending)
    (alphanum : ∀ c ∈ name.toList, c.isAlphanum = true) :
    IsSpelled (start ++ name ++ ending) := by
  have spelled : IsSpelled name := fun c inside => .inr (.inl (alphanum c inside))
  exact (enclosed.1.append spelled).append enclosed.2

/-- A spelled path of a file leads down to it. -/
theorem LiesIn.isInnerPath
    {path folder name : String} (lies : LiesIn path folder name) (spelled : IsSpelled path) :
    IsInnerPath path := by
  have folders : ∀ folder ∈ fileFolders, ∀ part ∈ Path.splitSlash folder.toList,
      IsInnerPart part := by
    decide
  have whole : path.toList = folder.toList ++ '/' :: name.toList := by
    simp [lies.path, String.toList_append]
  have last : IsInnerPart name.toList := by
    refine ⟨?_, ?_, ?_, fun c inside => ?_⟩
    · intro empty
      exact lies.plain.nonempty (String.toList_eq_nil_iff.mp empty)
    · intro here
      exact lies.plain.notHere (String.toList_inj.mp here)
    · intro above
      exact lies.plain.notParent (String.toList_inj.mp above)
    · have among : c ∈ path.toList := by
        rw [whole]
        exact List.mem_append_right _ (List.mem_cons_of_mem _ inside)
      refine (spelled c among).resolve_left ?_
      rintro rfl
      exact lies.plain.slashFree inside
  constructor
  · rw [Path.isAbsolute, Path.start_ofText lies.isPlainPath.relative]
    rfl
  · intro part member
    rw [whole, Path.splitSlash_append, Path.splitSlash_of_slashFree lies.plain.slashFree,
      List.mem_append, List.mem_singleton] at member
    rcases member with above | rfl
    · exact folders folder lies.folder part above
    · exact last

/-! ## Files -/

theorem isSpelled_migration
    {key table : String} (inKey : ∀ c ∈ key.toList, Migration.IsKeyCharacter c)
    (named : ∀ c ∈ table.toList, Text.IsNameCharacter c) :
    IsSpelled ("Database/Migrations/" ++ Migration.fileName key table) := by
  have keySpelled : IsSpelled key := fun c inside => .inr (inKey c inside).isPathCharacter
  have tableSpelled : IsSpelled table := fun c inside => .inr (named c inside).isPathCharacter
  have create : IsSpelled "_create_" := by decide
  have ending : IsSpelled "_table.php" := by decide
  have folder : IsSpelled "Database/Migrations/" := by decide
  exact folder.append (((keySpelled.append create).append tableSpelled).append ending)

theorem Descriptor.isSpelled_of_mem_plans
    {descriptor : Descriptor} {config : Config} {key : Option String} {names : Keyed String}
    {kind : FileKind} {plan : FilePlan} (named : descriptor.IsNamed) (given : AreNamed names)
    (keyed : ∀ text, key = some text → ∀ c ∈ text.toList, Migration.IsKeyCharacter c)
    (member : .ok plan ∈ descriptor.plans config key names kind) :
    IsSpelled plan.path := by
  obtain ⟨_, _, _, _, entity⟩ := Text.exists_of_isClassName named.entity
  cases kind with
  | migration =>
      cases key with
      | none => cases List.mem_singleton.mp member
      | some text =>
          cases List.mem_singleton.mp member
          exact isSpelled_migration (keyed text rfl) named.tableCharacters
  | service =>
      have service := given.nameOr FileKind.service.name
        (isAlphanum_append entity (by decide : "Service".toList.all Char.isAlphanum = true))
      rcases List.mem_pair.mp member with here | here
      · cases here
        exact isSpelled_enclosed (by decide) (isAlphanum_append service (by decide))
      · cases here
        exact isSpelled_enclosed (by decide) service
  | repository =>
      have repository := given.nameOr FileKind.repository.name
        (isAlphanum_append entity (by decide : "Repository".toList.all Char.isAlphanum = true))
      rcases List.mem_pair.mp member with here | here
      · cases here
        exact isSpelled_enclosed (by decide) (isAlphanum_append repository (by decide))
      · cases here
        exact isSpelled_enclosed (by decide) repository
  | model =>
      cases List.mem_singleton.mp member
      exact isSpelled_enclosed (by decide) (given.getD _ entity)
  | controller | request =>
      cases List.mem_singleton.mp member
      exact isSpelled_enclosed (by decide)
        (given.getD _ (isAlphanum_append entity (by decide)))
  | factory | seeder | test =>
      cases List.mem_singleton.mp member
      exact isSpelled_enclosed (by decide) entity

theorem Aggregate.isSpelled_of_mem_plans
    {config : Config} {module : String} {entities seeders : List String} {plan : FilePlan}
    (named : ∀ c ∈ module.toList, c.isAlphanum = true)
    (member : plan ∈ Aggregate.plans config module entities seeders) :
    IsSpelled plan.path := by
  have web : IsSpelled "routes/web.php" := by decide
  rw [Aggregate.plans, List.mem_append] at member
  rcases member with always | onRequest
  · simp only [List.mem_cons, List.not_mem_nil, or_false] at always
    rcases always with rfl | rfl | rfl | rfl
    · exact isSpelled_enclosed (by decide) named
    · exact (by decide : IsSpelled "routes/api.php")
    · exact isSpelled_enclosed (by decide) named
    · exact (by decide : IsSpelled "config/config.php")
  · split_ifs at onRequest
    · rw [List.mem_singleton.mp onRequest]
      exact web
    · cases onRequest

end Scaffold
