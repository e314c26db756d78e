import Scaffold.Proofs.Disk.Listing
import Scaffold.Proofs.Migration.ExistingKeys
import Scaffold.Proofs.Migration.KeyAssignment

/-!
# Keys that are recovered

The keys that a run gives to its descriptors are those of existing migrations or new ones.  A later
run gives the same key to a descriptor once its migration is there.
-/

namespace Scaffold

open Scaffold.Disk (Path Tree)
open Scaffold.Migration

namespace KeyAssignment

variable {module : String} {existing : Keyed String} {assignment : KeyAssignment}
  {asked : List Descriptor}

/-- Whatever the sequence is, a descriptor whose table has a migration gets its key. -/
theorem get?_keys_addAll
    (distinct : (asked.map (·.entity)).Nodup)
    (served : (addAll module existing assignment asked).exhausted = false) :
    (∀ entity, entity ∉ asked.map (·.entity) →
      Keyed.get? (addAll module existing assignment asked).keys entity =
        Keyed.get? assignment.keys entity) ∧
      ∀ descriptor ∈ asked, ∀ key, Keyed.get? existing descriptor.table = some key →
        Keyed.get? (addAll module existing assignment asked).keys descriptor.entity = some key := by
  induction asked generalizing assignment with
  | nil => exact ⟨fun _ _ => rfl, by simp⟩
  | cons descriptor rest hypothesis =>
      obtain ⟨notLater, restDistinct⟩ := List.nodup_cons.mp distinct
      have others {text : String} {next : KeyAssignment}
          (same : next.keys = Keyed.put assignment.keys descriptor.entity text)
          (nextServed : (addAll module existing next rest).exhausted = false) (entity : String)
          (apart : entity ∉ (descriptor :: rest).map (·.entity)) :
          Keyed.get? (addAll module existing next rest).keys entity =
            Keyed.get? assignment.keys entity := by
        rw [List.map_cons, List.mem_cons, not_or] at apart
        rw [(hypothesis restDistinct nextServed).1 entity apart.2, same]
        exact Keyed.get?_put_other (Ne.symm apart.1) _ _
      rw [addAll] at served ⊢
      cases found : Keyed.get? existing descriptor.table with
      | some key =>
          simp only [found] at served ⊢
          refine ⟨others rfl served, fun other member another known => ?_⟩
          rcases List.mem_cons.mp member with rfl | later
          · rw [(hypothesis restDistinct served).1 other.entity notLater, Keyed.get?_put_same,
              ← known, found]
          · exact (hypothesis restDistinct served).2 other later another known
      | none =>
          simp only [found] at served ⊢
          cases next : assignment.sequence.next module with
          | mk given moved =>
              simp only [next] at served ⊢
              cases given with
              | none => cases served
              | some key =>
                  refine ⟨others rfl served, fun other member another known => ?_⟩
                  rcases List.mem_cons.mp member with rfl | later
                  · rw [found] at known
                    cases known
                  · exact (hypothesis restDistinct served).2 other later another known

/-- Every key is that of an existing migration or a new one. -/
theorem exists_of_get?_keys_addAll
    {entity text : String}
    (given : Keyed.get? (addAll module existing assignment asked).keys entity = some text) :
    Keyed.get? assignment.keys entity = some text ∨
      (∃ table, Keyed.get? existing table = some text) ∨ ∃ key : Key, text = key.text := by
  induction asked generalizing assignment with
  | nil => exact .inl given
  | cons descriptor rest hypothesis =>
      rw [addAll] at given
      cases found : Keyed.get? existing descriptor.table with
      | some key =>
          simp only [found] at given
          rcases hypothesis given with early | later
          · rw [Keyed.get?_put] at early
            split_ifs at early
            · exact .inr (.inl ⟨descriptor.table, by rw [found, early]⟩)
            · exact .inl early
          · exact .inr later
      | none =>
          simp only [found] at given
          cases next : assignment.sequence.next module with
          | mk answer moved =>
              rw [next] at given
              cases answer with
              | none => exact .inl given
              | some key =>
                  rcases hypothesis given with early | later
                  · rw [Keyed.get?_put] at early
                    split_ifs at early
                    · exact .inr (.inr ⟨key, (Option.some.inj early).symm⟩)
                    · exact .inl early
                  · exact .inr later

end KeyAssignment

variable {tree : Tree} {folder : Path} {sequence : Sequence} {selection : Option Selection}
  {descriptors : List Descriptor} {keys : Keyed String}

/-- The descriptors that get a key, in the order in which they get it. -/
def wantedDescriptors (selection : Option Selection) (descriptors : List Descriptor) :
    List Descriptor :=
  (order descriptors).filter (wantsMigration selection)

theorem wantedDescriptors_distinct (selection : Option Selection) (descriptors : List Descriptor) :
    DistinctTables (wantedDescriptors selection descriptors) :=
  (order_isOrderly descriptors).1.sublist (List.filter_sublist.map _)

theorem wantedDescriptors_subset (selection : Option Selection) (descriptors : List Descriptor) :
    wantedDescriptors selection descriptors ⊆ descriptors :=
  fun _ member => (order_isOrderly descriptors).2 (List.mem_filter.mp member).1

theorem nodup_entities_wantedDescriptors
    (selection : Option Selection) (distinct : (descriptors.map (·.entity)).Nodup) :
    ((wantedDescriptors selection descriptors).map (·.entity)).Nodup := by
  have nodup : (wantedDescriptors selection descriptors).Nodup :=
    .of_map _ (wantedDescriptors_distinct selection descriptors)
  refine List.Nodup.map_on (fun first member second otherMember same => ?_) nodup
  exact List.inj_on_of_nodup_map distinct (wantedDescriptors_subset _ _ member)
    (wantedDescriptors_subset _ _ otherMember) same

/-- Keys that are assigned come from a supply that was not exhausted. -/
theorem exists_of_assignKeys
    (assigned : (assignKeys tree folder sequence selection descriptors).1 = .ok keys) :
    ∃ existing observed,
      keysIn tree (migrationsFolder folder) = .ok existing ∧
        sequence.observeAll (tree.absolutePath folder).text (existing.map (·.2)) =
          (none, observed) ∧
        (KeyAssignment.addAll (tree.absolutePath folder).text existing { sequence := observed }
          (wantedDescriptors selection descriptors)).exhausted = false ∧
        keys = (KeyAssignment.addAll (tree.absolutePath folder).text existing
          { sequence := observed } (wantedDescriptors selection descriptors)).keys := by
  rw [assignKeys] at assigned
  dsimp only at assigned
  cases onDisk : keysIn tree (migrationsFolder folder) with
  | error error =>
      rw [onDisk] at assigned
      cases assigned
  | ok existing =>
      rw [onDisk] at assigned
      dsimp only at assigned
      cases run : sequence.observeAll (tree.absolutePath folder).text (existing.map (·.2)) with
      | mk fault observed =>
          rw [run] at assigned
          cases fault with
          | some error => cases assigned
          | none =>
              dsimp only at assigned
              split_ifs at assigned with exhausted
              exact ⟨existing, observed, rfl, run, Bool.not_eq_true _ ▸ exhausted,
                (Except.ok.inj assigned).symm⟩

theorem migrationsFolder_eq (folder : Path) :
    migrationsFolder folder = ⟨folder.start, folder.names ++ ["Database", "Migrations"]⟩ := by
  have names : Path.namesOf "Database/Migrations".toList = ["Database", "Migrations"] := by
    decide
  rw [migrationsFolder, Path.child_eq (by decide), names]

theorem resolve_migrationsFolder (tree : Tree) (folder : Path) :
    tree.resolve (migrationsFolder folder) =
      tree.resolve folder ++ ["Database", "Migrations"] := by
  rw [migrationsFolder_eq]
  simp [Tree.resolve, Tree.start, Tree.step, Path.isAbsolute]

theorem isSteady_migrationsFolder (steady : tree.IsSteady folder) :
    tree.IsSteady (migrationsFolder folder) := by
  rw [migrationsFolder_eq]
  exact Tree.IsSteady.append steady (by decide)

/-- The migrations of a folder whose keys are known lie in a folder. -/
theorem isFolder_migrationsFolder
    (sound : tree.IsSound) (above : tree.isFolder folder = .ok true)
    (kind : tree.kindAt? (tree.resolve folder ++ ["Database", "Migrations"]) = some .folder)
    {existing : Keyed String} (onDisk : keysIn tree (migrationsFolder folder) = .ok existing) :
    tree.isFolder (migrationsFolder folder) = .ok true := by
  rw [keysIn] at onDisk
  rw [migrationsFolder_eq] at onDisk ⊢
  cases answered : tree.isFolder ⟨folder.start, folder.names ++ ["Database", "Migrations"]⟩ with
  | error error =>
      rw [answered] at onDisk
      cases onDisk
  | ok answer =>
      rw [← answered]
      exact Tree.isFolder_of_answer sound above (by decide) (by decide) kind
        answered

theorem keysIn_eq
    (treeSound : tree.IsSound) {existing : Keyed String} (onDisk : keysIn tree folder = .ok existing) :
    existing = Sequence.existingKeys (tree.names folder) := by
  rw [keysIn] at onDisk
  cases isThere : tree.isFolder folder with
  | error error =>
      rw [isThere] at onDisk
      cases onDisk
  | ok isFolder =>
      rw [isThere] at onDisk
      cases isFolder with
      | false =>
          rw [Tree.names_eq_nil treeSound isThere]
          exact (Except.ok.inj onDisk).symm
      | true => exact (Except.ok.inj onDisk).symm

/-- Keys are spelled with digits and underscores. -/
theorem isKeyCharacter_of_assignKeys
    (treeSound : tree.IsSound)
    (assigned : (assignKeys tree folder sequence selection descriptors).1 = .ok keys)
    {entity key : String} (given : Keyed.get? keys entity = some key) :
    ∀ c ∈ key.toList, IsKeyCharacter c := by
  obtain ⟨existing, observed, onDisk, _, _, rfl⟩ := exists_of_assignKeys assigned
  rcases KeyAssignment.exists_of_get?_keys_addAll given with impossible | ⟨table, known⟩ | ⟨new, rfl⟩
  · cases impossible
  · rw [keysIn_eq treeSound onDisk] at known
    obtain ⟨name, _, read, _⟩ := Sequence.isLatest_of_get? (Tree.names_pairwise _ _) known
    exact isKeyCharacter_of_ofFileName? read
  · exact new.isKeyCharacter_of_text

/-- A key may stand in the name of a file. -/
theorem slash_not_mem_of_assignKeys
    (treeSound : tree.IsSound)
    (assigned : (assignKeys tree folder sequence selection descriptors).1 = .ok keys)
    {entity key : String} (given : Keyed.get? keys entity = some key) :
    '/' ∉ key.toList :=
  fun slash => absurd (isKeyCharacter_of_assignKeys treeSound assigned given '/' slash)
    (by decide)

/-- A descriptor gets the key of the migration of its table. -/
theorem get?_keys_of_existing
    (assigned : (assignKeys tree folder sequence selection descriptors).1 = .ok keys)
    (distinct : (descriptors.map (·.entity)).Nodup) {existing : Keyed String}
    (onDisk : keysIn tree (migrationsFolder folder) = .ok existing) {descriptor : Descriptor}
    (wanted : descriptor ∈ wantedDescriptors selection descriptors) {key : String}
    (known : Keyed.get? existing descriptor.table = some key) :
    Keyed.get? keys descriptor.entity = some key := by
  obtain ⟨found, observed, foundOnDisk, _, served, rfl⟩ := exists_of_assignKeys assigned
  obtain rfl := Except.ok.inj (onDisk.symm.trans foundOnDisk)
  exact (KeyAssignment.get?_keys_addAll (nodup_entities_wantedDescriptors selection distinct)
    served).2 descriptor wanted key known

/-- A descriptor whose table has no migration gets a key in the usual notation. -/
theorem get?_keys_of_new
    (assigned : (assignKeys tree folder sequence selection descriptors).1 = .ok keys)
    (distinct : (descriptors.map (·.entity)).Nodup) (sound : sequence.IsSound)
    {existing : Keyed String} (onDisk : keysIn tree (migrationsFolder folder) = .ok existing)
    {descriptor : Descriptor} (wanted : descriptor ∈ wantedDescriptors selection descriptors)
    (new : Keyed.get? existing descriptor.table = none) :
    ∃ key : Key, key.IsPrinted ∧ Keyed.get? keys descriptor.entity = some key.text := by
  obtain ⟨found, observed, foundOnDisk, run, served, rfl⟩ := exists_of_assignKeys assigned
  obtain rfl := Except.ok.inj (onDisk.symm.trans foundOnDisk)
  obtain ⟨key, printed, given, _⟩ := (KeyAssignment.addAll_serves (tree.absolutePath folder).text
    existing { sequence := observed } (wantedDescriptors selection descriptors)
    (Sequence.observeAll_isSound sound run) (nodup_entities_wantedDescriptors selection distinct)
    (by simp [Keyed.keys]) served).later descriptor wanted new
  exact ⟨key, printed, given⟩

/-- The file name of the migration of a descriptor gives its table and its key. -/
theorem ofFileName?_of_assignKeys
    (assigned : (assignKeys tree folder sequence selection descriptors).1 = .ok keys)
    (distinct : (descriptors.map (·.entity)).Nodup) (sound : sequence.IsSound)
    (treeSound : tree.IsSound) {descriptor : Descriptor} (wanted : descriptor ∈ wantedDescriptors selection descriptors)
    (nonempty : descriptor.table ≠ "")
    (wordCharacters : descriptor.table.toList.all Text.isUnicodeWordCharacter = true) {key : String}
    (given : Keyed.get? keys descriptor.entity = some key) :
    ofFileName? (fileName key descriptor.table) = some (descriptor.table, key) := by
  obtain ⟨existing, _, onDisk, _⟩ := exists_of_assignKeys assigned
  cases known : Keyed.get? existing descriptor.table with
  | some old =>
      rw [get?_keys_of_existing assigned distinct onDisk wanted known] at given
      obtain rfl := Option.some.inj given
      rw [keysIn_eq treeSound onDisk] at known
      obtain ⟨name, _, read, _⟩ := Sequence.isLatest_of_get? (Tree.names_pairwise _ _) known
      exact ofFileName?_of_ofFileName? read
  | none =>
      obtain ⟨new, printed, isGiven⟩ :=
        get?_keys_of_new assigned distinct sound onDisk wanted known
      rw [isGiven] at given
      obtain rfl := Option.some.inj given
      exact ofFileName?_fileName printed nonempty wordCharacters

end Scaffold
