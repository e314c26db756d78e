import Scaffold.Output.Aggregate
import Scaffold.Output.Entity
import Scaffold.Proofs.Export.Effect
import Scaffold.Proofs.Text.ClassName

/-!
# Where generated files lie

Every generated file lies in one of a few folders of its module, under a plain name that ends in
`.php`.  In the folder of the models it is the model of its entity, and in the folder of the
migrations the migration with the key that was given.
-/

namespace Scaffold

open Scaffold.Disk (IsPlainName Location Path)

/-- The folders of a module in which files are generated. -/
def fileFolders : List String :=
  ["Models", "Database/Migrations", "Http/Controllers", "Http/Requests", "Services/Contracts",
    "Services", "Repositories/Contracts", "Repositories", "Database/Factories",
    "Database/Seeders", "Tests/Unit", "Providers", "routes", "config"]

/-- A path is that of a file in one of these folders. -/
structure LiesIn (path folder name : String) : Prop where
  path : path = folder ++ "/" ++ name
  folder : folder ∈ fileFolders
  plain : IsPlainName name
  ending : ".php".toList.isSuffixOf name.toList = true

namespace LiesIn

variable {path folder name : String}

theorem plain_of_mem_fileFolders :
    ∀ folder ∈ fileFolders, IsPlainPath folder ∧ Path.namesOf folder.toList ≠ [] := by
  decide

theorem namesOf (lies : LiesIn path folder name) :
    Path.namesOf path.toList = Path.namesOf folder.toList ++ [name] := by
  have shape : path.toList = folder.toList ++ '/' :: name.toList := by
    simp [lies.path, String.toList_append]
  rw [shape, Path.namesOf_append, Path.namesOf_plain lies.plain]

theorem isPlainPath (lies : LiesIn path folder name) : IsPlainPath path := by
  have above := (plain_of_mem_fileFolders folder lies.folder).1
  refine ⟨?_, fun other member => ?_⟩
  · have nonempty : folder.toList ≠ [] := by
      have checked : ∀ folder ∈ fileFolders, folder.toList ≠ [] := by decide
      exact checked folder lies.folder
    obtain ⟨first, rest, shape⟩ := List.exists_cons_of_ne_nil nonempty
    have relative := above.relative
    rw [shape] at relative
    rw [lies.path, String.toList_append, String.toList_append, shape]
    exact relative
  · rw [lies.namesOf, List.mem_append, List.mem_singleton] at member
    rcases member with inside | rfl
    · exact above.plain other inside
    · exact lies.plain

theorem folder_eq_of_namesOf :
    ∀ folder ∈ fileFolders, ∀ other ∈ fileFolders,
      Path.namesOf folder.toList = Path.namesOf other.toList → folder = other := by
  decide

/-- A path lies in one folder under one name. -/
theorem unique
    {other another : String} (lies : LiesIn path folder name) (again : LiesIn path other another) :
    folder = other ∧ name = another := by
  obtain ⟨above, last⟩ := List.append_inj' (lies.namesOf.symm.trans again.namesOf) rfl
  exact ⟨folder_eq_of_namesOf folder lies.folder other again.folder above,
    List.singleton_inj.mp last⟩

/-- Different paths lead to different places. -/
theorem path_eq
    {other above last : String} (lies : LiesIn path folder name) (again : LiesIn other above last)
    (same : Path.namesOf path.toList = Path.namesOf other.toList) :
    path = other := by
  rw [lies.namesOf, again.namesOf] at same
  obtain ⟨sameFolder, sameName⟩ := List.append_inj' same rfl
  rw [lies.path, again.path, List.singleton_inj.mp sameName,
    folder_eq_of_namesOf folder lies.folder above again.folder sameFolder]

theorem of_namesOf
    {above : Location} {last : String} (lies : LiesIn path folder name)
    (names : Path.namesOf path.toList = above ++ [last]) :
    Path.namesOf folder.toList = above ∧ name = last := by
  obtain ⟨above, last⟩ := List.append_inj' (lies.namesOf.symm.trans names) rfl
  exact ⟨above, List.singleton_inj.mp last⟩

theorem length_le (lies : LiesIn path folder name) : (Path.namesOf folder.toList).length ≤ 2 := by
  have short : ∀ folder ∈ fileFolders, (Path.namesOf folder.toList).length ≤ 2 := by decide
  exact short folder lies.folder

theorem namesOf_ne_singleton (lies : LiesIn path folder name) (single : String) :
    Path.namesOf path.toList ≠ [single] := by
  rw [lies.namesOf]
  intro same
  exact (plain_of_mem_fileFolders folder lies.folder).2
    (List.append_eq_singleton_iff.mp same |>.elim (·.1) fun impossible => by
      simp at impossible)

end LiesIn

theorem isAlphanum_append
    {text suffix : String} (alphanum : ∀ c ∈ text.toList, c.isAlphanum = true)
    (suffixAlphanum : suffix.toList.all Char.isAlphanum = true) :
    ∀ c ∈ (text ++ suffix).toList, c.isAlphanum = true := by
  intro c inside
  rw [String.toList_append, List.mem_append] at inside
  exact inside.elim (alphanum c) (List.all_eq_true.mp suffixAlphanum c)

/-- Letters and digits, followed by the ending of a PHP file, may name a file. -/
theorem isPlainName_php {name : String} (alphanum : ∀ c ∈ name.toList, c.isAlphanum = true) :
    IsPlainName (name ++ ".php") ∧ ".php".toList.isSuffixOf (name ++ ".php").toList = true := by
  have shape : (name ++ ".php").toList = name.toList ++ ['.', 'p', 'h', 'p'] :=
    String.toList_append
  refine ⟨⟨?_, ?_, ?_, ?_⟩, ?_⟩
  · intro empty
    simp [empty] at shape
  · rw [shape, List.mem_append]
    rintro (inside | behind)
    · exact absurd (alphanum '/' inside) (by decide)
    · exact absurd behind (by decide)
  · intro dot
    rw [dot] at shape
    have lengths := congrArg List.length shape
    simp at lengths
  · intro dots
    rw [dots] at shape
    have lengths := congrArg List.length shape
    simp at lengths
  · rw [shape, List.isSuffixOf_iff_suffix]
    exact List.suffix_append _ _

theorem liesIn_php
    {path name : String} (folder : String) (member : folder ∈ fileFolders)
    (shape : path = folder ++ "/" ++ (name ++ ".php"))
    (alphanum : ∀ c ∈ name.toList, c.isAlphanum = true) :
    LiesIn path folder (name ++ ".php") := by
  obtain ⟨plain, ending⟩ := isPlainName_php alphanum
  exact ⟨shape, member, plain, ending⟩

theorem path_eq {start folder : String} (slashed : start = folder ++ "/") (name : String) :
    start ++ name ++ ".php" = folder ++ "/" ++ (name ++ ".php") := by
  rw [slashed, String.append_assoc]

theorem path_eq_suffix
    {start folder ending suffix : String} (slashed : start = folder ++ "/")
    (ended : ending = suffix ++ ".php") (name : String) :
    start ++ name ++ ending = folder ++ "/" ++ (name ++ suffix ++ ".php") := by
  rw [slashed, ended]
  simp only [String.append_assoc]

/-- A file lies in a folder other than those of the models and of the migrations. -/
def LiesElsewhere (path : String) : Prop :=
  ∃ folder name, LiesIn path folder name ∧ folder ≠ "Models" ∧ folder ≠ "Database/Migrations"

theorem liesElsewhere_php
    {path : String} (folder name : String)
    (member : folder ∈ fileFolders ∧ folder ≠ "Models" ∧ folder ≠ "Database/Migrations")
    (shape : path = folder ++ "/" ++ (name ++ ".php"))
    (alphanum : ∀ c ∈ name.toList, c.isAlphanum = true) :
    LiesElsewhere path :=
  ⟨folder, name ++ ".php", liesIn_php folder member.1 shape alphanum, member.2⟩

/-- A key that may stand in the name of a file. -/
def IsFileKey (key : String) : Prop :=
  '/' ∉ key.toList

theorem liesIn_migration
    {key table : String} (fileKey : IsFileKey key)
    (named : ∀ c ∈ table.toList, Text.IsNameCharacter c) :
    LiesIn ("Database/Migrations/" ++ Migration.fileName key table) "Database/Migrations"
      (Migration.fileName key table) := by
  have shape : (Migration.fileName key table).toList =
      key.toList ++ ("_create_".toList ++ (table.toList ++ "_table.php".toList)) := by
    simp [Migration.fileName, String.toList_append]
  have long : 3 ≤ (Migration.fileName key table).toList.length := by
    rw [shape]
    simp
    omega
  refine ⟨by rw [← (by decide : "Database/Migrations/" = "Database/Migrations" ++ "/")],
    by decide, ⟨?_, ?_, ?_, ?_⟩, ?_⟩
  · intro empty
    simp [empty] at long
  · rw [shape]
    simp only [List.mem_append, not_or]
    refine ⟨fileKey, by decide, fun inside => ?_, by decide⟩
    exact absurd (named '/' inside) (by decide)
  · intro dot
    simp [dot] at long
  · intro dots
    simp [dots] at long
  · rw [shape, List.isSuffixOf_iff_suffix]
    exact ⟨key.toList ++ ("_create_".toList ++ (table.toList ++ "_table".toList)), by simp⟩

namespace Descriptor

variable {descriptor : Descriptor}

/-- A descriptor whose names may stand in the names of files. -/
structure IsNamed (descriptor : Descriptor) : Prop where
  entity : isClassName descriptor.entity = true
  table : descriptor.table ≠ ""
  tableCharacters : ∀ c ∈ descriptor.table.toList, Text.IsNameCharacter c

/-- Class names that are given for kinds of files. -/
def AreNamed (names : Keyed String) : Prop :=
  ∀ kind name, Keyed.get? names kind = some name → ∀ c ∈ name.toList, c.isAlphanum = true

theorem AreNamed.getD
    {names : Keyed String} (given : AreNamed names) (kind : String) {fallback : String}
    (alphanum : ∀ c ∈ fallback.toList, c.isAlphanum = true) :
    ∀ c ∈ ((Keyed.get? names kind).getD fallback).toList, c.isAlphanum = true := by
  cases found : Keyed.get? names kind with
  | none => exact alphanum
  | some name => exact given kind name found

theorem AreNamed.nameOr
    {names : Keyed String} (given : AreNamed names) (kind : String) {fallback : String}
    (alphanum : ∀ c ∈ fallback.toList, c.isAlphanum = true) :
    ∀ c ∈ (Text.nameOr (Keyed.get? names kind) fallback).toList, c.isAlphanum = true := by
  cases found : Keyed.get? names kind with
  | none => exact alphanum
  | some name =>
      rw [Text.nameOr]
      split_ifs
      · exact alphanum
      · exact given kind name found

/-- Where the file of a plan lies. -/
inductive IsPlaced (key : Option String) (names : Keyed String) (descriptor : Descriptor)
    (path : String) : Prop where
  | model (lies : LiesIn path "Models"
      ((Keyed.get? names FileKind.model.name).getD descriptor.entity ++ ".php"))
  | migration (given : String) (is : key = some given)
      (lies : LiesIn path "Database/Migrations" (Migration.fileName given descriptor.table))
  | elsewhere (lies : LiesElsewhere path)

theorem isPlaced_of_mem_plans
    {config : Config} {key : Option String} {names : Keyed String} {kind : FileKind}
    {plan : FilePlan} (named : descriptor.IsNamed) (given : AreNamed names)
    (fileKey : ∀ text, key = some text → IsFileKey text)
    (member : .ok plan ∈ descriptor.plans config key names kind) :
    IsPlaced key names descriptor plan.path := by
  obtain ⟨_, _, _, _, entity⟩ := Text.exists_of_isClassName named.entity
  cases kind with
  | model =>
      cases List.mem_singleton.mp member
      exact .model (liesIn_php "Models" (by decide) (path_eq (by decide) _)
        (given.getD _ entity))
  | migration =>
      cases key with
      | none => cases List.mem_singleton.mp member
      | some text =>
          cases List.mem_singleton.mp member
          exact .migration text rfl (liesIn_migration (fileKey text rfl) named.tableCharacters)
  | controller =>
      cases List.mem_singleton.mp member
      exact .elsewhere (liesElsewhere_php "Http/Controllers" _ (by decide)
        (path_eq (by decide) _) (given.getD _ (isAlphanum_append entity (by decide))))
  | request =>
      cases List.mem_singleton.mp member
      exact .elsewhere (liesElsewhere_php "Http/Requests" _ (by decide)
        (path_eq (by decide) _) (given.getD _ (isAlphanum_append entity (by decide))))
  | service =>
      have service := given.nameOr FileKind.service.name
        (isAlphanum_append entity (by decide : "Service".toList.all Char.isAlphanum = true))
      rcases List.mem_pair.mp member with here | here
      · cases here
        exact .elsewhere (liesElsewhere_php "Services/Contracts" _ (by decide)
          (path_eq (by decide) _) (isAlphanum_append service (by decide)))
      · cases here
        exact .elsewhere (liesElsewhere_php "Services" _ (by decide)
          (path_eq (by decide) _) service)
  | repository =>
      have repository := given.nameOr FileKind.repository.name
        (isAlphanum_append entity (by decide : "Repository".toList.all Char.isAlphanum = true))
      rcases List.mem_pair.mp member with here | here
      · cases here
        exact .elsewhere (liesElsewhere_php "Repositories/Contracts" _ (by decide)
          (path_eq (by decide) _) (isAlphanum_append repository (by decide)))
      · cases here
        exact .elsewhere (liesElsewhere_php "Repositories" _ (by decide)
          (path_eq (by decide) _) repository)
  | factory =>
      cases List.mem_singleton.mp member
      exact .elsewhere (liesElsewhere_php "Database/Factories" (descriptor.entity ++ "Factory")
        (by decide) (path_eq_suffix (by decide) (by decide) _)
        (isAlphanum_append entity (by decide)))
  | seeder =>
      cases List.mem_singleton.mp member
      exact .elsewhere (liesElsewhere_php "Database/Seeders" (descriptor.entity ++ "Seeder")
        (by decide) (path_eq_suffix (by decide) (by decide) _)
        (isAlphanum_append entity (by decide)))
  | test =>
      cases List.mem_singleton.mp member
      exact .elsewhere (liesElsewhere_php "Tests/Unit" (descriptor.entity ++ "Test")
        (by decide) (path_eq_suffix (by decide) (by decide) _)
        (isAlphanum_append entity (by decide)))

/-- Only models lie in the folder of models. -/
theorem kind_eq_model_of_liesIn
    {config : Config} {key : Option String} {names : Keyed String} {kind : FileKind}
    {plan : FilePlan} (member : .ok plan ∈ descriptor.plans config key names kind)
    {name : String} (lies : LiesIn plan.path "Models" name) : kind = .model := by
  have apart (start middle ending : String) (other : start.toList.head?.getD 'M' ≠ 'M')
      (path : plan.path = start ++ middle ++ ending) : False := by
    have same := congrArg (·.toList.head?) (lies.path.symm.trans path)
    simp only [String.toList_append, List.append_assoc, List.head?_append] at same
    cases begins : start.toList.head? with
    | none => simp [begins] at other
    | some first =>
        rw [begins] at same other
        cases same
        exact other rfl
  cases kind with
  | model => rfl
  | migration =>
      cases key with
      | none => cases List.mem_singleton.mp member
      | some key =>
          cases List.mem_singleton.mp member
          exact (apart "Database/Migrations/" (Migration.fileName key descriptor.table) ""
            (by decide) (String.append_empty).symm).elim
  | controller =>
      cases List.mem_singleton.mp member
      exact (apart "Http/Controllers/" _ _ (by decide) rfl).elim
  | request =>
      cases List.mem_singleton.mp member
      exact (apart "Http/Requests/" _ _ (by decide) rfl).elim
  | service =>
      rcases List.mem_pair.mp member with here | here
      · cases here
        exact (apart "Services/Contracts/" _ _ (by decide) rfl).elim
      · cases here
        exact (apart "Services/" _ _ (by decide) rfl).elim
  | repository =>
      rcases List.mem_pair.mp member with here | here
      · cases here
        exact (apart "Repositories/Contracts/" _ _ (by decide) rfl).elim
      · cases here
        exact (apart "Repositories/" _ _ (by decide) rfl).elim
  | factory =>
      cases List.mem_singleton.mp member
      exact (apart "Database/Factories/" _ _ (by decide) rfl).elim
  | seeder =>
      cases List.mem_singleton.mp member
      exact (apart "Database/Seeders/" _ _ (by decide) rfl).elim
  | test =>
      cases List.mem_singleton.mp member
      exact (apart "Tests/Unit/" _ _ (by decide) rfl).elim

end Descriptor

/-- Every aggregate lies elsewhere. -/
theorem Aggregate.liesElsewhere_of_mem_plans
    {config : Config} {module : String} {entities seeders : List String} {plan : FilePlan}
    (named : ∀ c ∈ module.toList, c.isAlphanum = true)
    (member : plan ∈ Aggregate.plans config module entities seeders) :
    LiesElsewhere plan.path := by
  have web : plan = Aggregate.webPlan config module entities → LiesElsewhere plan.path := by
    rintro rfl
    exact liesElsewhere_php "routes" "web" (by decide)
      (by decide : "routes/web.php" = "routes" ++ "/" ++ ("web" ++ ".php"))
      (List.all_eq_true.mp (by decide))
  rw [Aggregate.plans, List.mem_append] at member
  rcases member with always | onRequest
  · simp only [List.mem_cons, List.not_mem_nil, or_false] at always
    rcases always with rfl | rfl | rfl | rfl
    · exact liesElsewhere_php "Providers" (module ++ "ServiceProvider") (by decide)
        (path_eq_suffix (by decide) (by decide) _)
        (isAlphanum_append named (by decide))
    · exact liesElsewhere_php "routes" "api" (by decide)
        (by decide : "routes/api.php" = "routes" ++ "/" ++ ("api" ++ ".php"))
        (List.all_eq_true.mp (by decide))
    · exact liesElsewhere_php "Database/Seeders" (module ++ "DatabaseSeeder") (by decide)
        (path_eq_suffix (by decide) (by decide) _)
        (isAlphanum_append named (by decide))
    · exact liesElsewhere_php "config" "config" (by decide)
        (by decide : "config/config.php" = "config" ++ "/" ++ ("config" ++ ".php"))
        (List.all_eq_true.mp (by decide))
  · split_ifs at onRequest
    · exact web (List.mem_singleton.mp onRequest)
    · cases onRequest

end Scaffold
