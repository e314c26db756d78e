import Scaffold.Ledger.Store
import Scaffold.Proofs.Disk.Growth
import Scaffold.Proofs.Document.JsonRoundTrip

/-!
# Ledgers that are saved

A ledger that is saved is loaded again with the same entries, whatever texts they are.  Registering
only adds entries, and a ledger that has nothing unsaved is the one that was loaded.
-/

namespace Scaffold

open Scaffold.Disk (Path Tree)
open Scaffold.Document (Entries Value)

theorem distinct_of_nodup {α : Type} [BEq α] [LawfulBEq α] {values : List α}
    (nodup : values.Nodup) : distinct values = values := by
  have keeps (known rest : List α) (apart : ∀ value ∈ rest, value ∉ known) (nodup : rest.Nodup) :
      distinct.go known rest = rest := by
    induction rest generalizing known with
    | nil => rfl
    | cons value rest hypothesis =>
        obtain ⟨notLater, nodupRest⟩ := List.nodup_cons.mp nodup
        have new : known.contains value = false := by simpa using apart value (by simp)
        rw [distinct.go, new]
        simp only [Bool.false_eq_true, if_false, List.cons.injEq, true_and]
        refine hypothesis _ (fun other member => ?_) nodupRest
        rw [List.mem_cons, not_or]
        refine ⟨?_, apart other (by simp [member])⟩
        rintro rfl
        exact notLater member
  exact keeps [] values (by simp) nodup

theorem nodup_append_singleton {α : Type} {values : List α} (nodup : values.Nodup) {value : α}
    (new : value ∉ values) : (values ++ [value]).Nodup := by
  refine List.nodup_append.mpr ⟨nodup, by simp, ?_⟩
  intro other member single among same
  rw [same, List.mem_singleton.mp among] at member
  exact new member

theorem nodup_distinct {α : Type} [BEq α] [LawfulBEq α] (values : List α) :
    (distinct values).Nodup := by
  have keeps (known rest : List α) :
      (distinct.go known rest).Nodup ∧ ∀ value ∈ distinct.go known rest, value ∉ known := by
    induction rest generalizing known with
    | nil => simp [distinct.go]
    | cons value rest hypothesis =>
        rw [distinct.go]
        split_ifs with old
        · exact hypothesis known
        · obtain ⟨nodup, apart⟩ := hypothesis (value :: known)
          refine ⟨List.nodup_cons.mpr ⟨fun member => apart value member (by simp), nodup⟩, ?_⟩
          intro other member
          rcases List.mem_cons.mp member with rfl | later
          · simpa using old
          · exact fun among => apart other later (by simp [among])
  exact (keeps [] values).1

namespace Ledger

/-- No list of a ledger repeats an entry. -/
structure IsOrderly (ledger : Ledger) : Prop where
  entities : ledger.entities.Nodup
  seeders : ledger.seeders.Nodup

/-! ## Registering -/

/--
A later ledger has the entries of an earlier one in front of all others, and equals it if nothing is
unsaved.
-/
structure Extends (earlier later : Ledger) : Prop where
  module : later.module = earlier.module
  entities : earlier.entities <+: later.entities
  seeders : earlier.seeders <+: later.seeders
  orderly : earlier.IsOrderly → later.IsOrderly
  same : later.unsaved = false → later = earlier

namespace Extends

theorem refl (ledger : Ledger) : Extends ledger ledger :=
  ⟨rfl, List.prefix_rfl, List.prefix_rfl, id, fun _ => rfl⟩

theorem trans {earlier middle later : Ledger} (first : Extends earlier middle)
    (second : Extends middle later) : Extends earlier later where
  module := second.module.trans first.module
  entities := first.entities.trans second.entities
  seeders := first.seeders.trans second.seeders
  orderly := second.orderly ∘ first.orderly
  same saved := by
    obtain rfl := second.same saved
    exact first.same saved

end Extends

theorem register_of_contains
    {ledger : Ledger} {part : LedgerSection} {entry : String}
    (known : ledger.contains part entry = true) :
    ledger.register part entry = ledger := by
  rw [register, if_pos known]

theorem contains_entities {ledger : Ledger} {entry : String} :
    ledger.contains .entities entry = true ↔ entry ∈ ledger.entities := by
  simp [contains, entries]

theorem contains_seeders {ledger : Ledger} {entry : String} :
    ledger.contains .seeders entry = true ↔ entry ∈ ledger.seeders := by
  simp [contains, entries]

theorem entities_register_entities (ledger : Ledger) (entry : String) :
    (ledger.register .entities entry).entities =
      if entry ∈ ledger.entities then ledger.entities else ledger.entities ++ [entry] := by
  rw [register]
  simp only [contains_entities]
  split_ifs <;> rfl

theorem entities_register_seeders (ledger : Ledger) (entry : String) :
    (ledger.register .seeders entry).entities = ledger.entities := by
  rw [register]
  split_ifs <;> rfl

theorem register_extends (ledger : Ledger) (part : LedgerSection) (entry : String) :
    Extends ledger (ledger.register part entry) := by
  rw [register]
  split_ifs with known
  · exact .refl ledger
  · cases part with
    | entities =>
        rw [contains_entities] at known
        refine ⟨rfl, List.prefix_append _ _, List.prefix_rfl, fun orderly => ?_, nofun⟩
        exact ⟨nodup_append_singleton orderly.entities known, orderly.seeders⟩
    | seeders =>
        rw [contains_seeders] at known
        refine ⟨rfl, List.prefix_rfl, List.prefix_append _ _, fun orderly => ?_, nofun⟩
        exact ⟨orderly.entities, nodup_append_singleton orderly.seeders known⟩

theorem contains_register (ledger : Ledger) (part : LedgerSection) (entry : String) :
    (ledger.register part entry).contains part entry = true := by
  rw [register]
  split_ifs with known
  · exact known
  · cases part <;> simp [contains, entries, setEntries]

/-- A ledger lists an entity and its seeder. -/
structure Knows (ledger : Ledger) (entity : String) : Prop where
  listed : entity ∈ ledger.entities
  seeded : entity ++ "Seeder" ∈ ledger.seeders

theorem Knows.extend {earlier later : Ledger} {entity : String} (knows : earlier.Knows entity)
    (extended : Extends earlier later) : later.Knows entity :=
  ⟨extended.entities.subset knows.listed, extended.seeders.subset knows.seeded⟩

theorem knows_register (ledger : Ledger) (entity : String) :
    ((ledger.register .entities entity).register .seeders (entity ++ "Seeder")).Knows entity where
  listed :=
    (register_extends _ .seeders _).entities.subset
      (contains_entities.mp (contains_register ledger .entities entity))
  seeded := contains_seeders.mp (contains_register _ .seeders _)

/-! ## The text of a ledger -/

theorem reads_document (ledger : Ledger) :
    Document.Json.Reads ledger.document (Document.Json.laidOut .ascii 0 ledger.document) := by
  have texts (level : Nat) (entries : List String) :
      Document.Json.Reads (.list (entries.map .text))
        (Document.Json.laidOut .ascii level (.list (entries.map .text))) := by
    refine Document.Json.reads_list level fun item member => ?_
    obtain ⟨entry, _, rfl⟩ := List.mem_map.mp member
    rw [Document.Json.laidOut]
    exact Document.Json.reads_text entry
  refine Document.Json.reads_mapping 0
    [("module", .text ledger.module), ("entities", .list (ledger.entities.map .text)),
      ("seeders", .list (ledger.seeders.map .text))] (by simp) fun entry member => ?_
  simp only [List.mem_cons, List.not_mem_nil, or_false] at member
  rcases member with rfl | rfl | rfl
  · rw [Document.Json.laidOut]
    exact Document.Json.reads_text _
  · exact texts _ _
  · exact texts _ _

theorem texts?_texts (entries : List String) : texts? (entries.map .text) = some entries := by
  induction entries with
  | nil => rfl
  | cons entry rest hypothesis => simp [texts?, hypothesis]

/-- The text of an orderly ledger gives its entries. -/
theorem ofText_text {ledger : Ledger} (orderly : ledger.IsOrderly) (file : Path) (base : Ledger) :
    ofText file base ledger.text =
      ({ base with entities := ledger.entities, seeders := ledger.seeders, unsaved := false },
        none) := by
  have entities : givenEntries? [(.text "module", .text ledger.module),
      (.text "entities", .list (ledger.entities.map .text)),
      (.text "seeders", .list (ledger.seeders.map .text))] .entities = some ledger.entities := by
    simp [givenEntries?, Entries.get?, LedgerSection.name, Value.content, texts?_texts,
      distinct_of_nodup orderly.entities]
  have seeders : givenEntries? [(.text "module", .text ledger.module),
      (.text "entities", .list (ledger.entities.map .text)),
      (.text "seeders", .list (ledger.seeders.map .text))] .seeders = some ledger.seeders := by
    simp [givenEntries?, Entries.get?, LedgerSection.name, Value.content, texts?_texts,
      distinct_of_nodup orderly.seeders]
  have read : Document.Json.read ledger.text = .ok ledger.document :=
    Document.Json.read_written (reads_document ledger)
  rw [ofText, read, document]
  simp only [sections, LedgerSection.all, List.map_cons, List.map_nil, entries, takeSections,
    LedgerSection.name] at entities seeders ⊢
  rw [entities]
  simp only [seeders]
  rfl

/-! ## Loading -/

theorem withLineFeeds_of_not_mem {text : List Char} (noReturn : '\r' ∉ text) :
    Tree.withLineFeeds text = text := by
  induction text with
  | nil => rfl
  | cons c rest hypothesis =>
      rw [List.mem_cons, not_or] at noReturn
      have notReturn : c = '\r' → False := fun same => noReturn.1 same.symm
      rw [Tree.withLineFeeds, hypothesis noReturn.2]
      · exact fun _ same _ => notReturn same
      · exact notReturn

/-- The file of a ledger holds the text of a ledger. -/
def IsSavedIn (ledger : Ledger) (tree : Tree) (folder : Path) : Prop :=
  tree.isFile (file folder) = .ok true ∧
    tree.contentAt? (tree.resolve (file folder)) = some (.text ledger.text)

theorem readText_eq
    {tree : Tree} {path : Path} {text : String} (there : tree.isFile path = .ok true)
    (content : tree.contentAt? (tree.resolve path) = some (.text text))
    (noReturn : '\r' ∉ text.toList) :
    tree.readText path = .ok text := by
  obtain ⟨location, located, _⟩ := Tree.isFile_eq_true_iff.mp there
  rw [Tree.readText, located]
  rw [← Tree.locate_eq_resolve located] at content
  simp only [content, withLineFeeds_of_not_mem noReturn, String.ofList_toList]

theorem eq_of_module_eq {ledger base : Ledger} (same : ledger.module = base.module) :
    { base with entities := ledger.entities, seeders := ledger.seeders, unsaved := false } =
      { ledger with unsaved := false } := by
  cases ledger
  cases same
  rfl

theorem eq_of_unsaved_eq_false {ledger : Ledger} (saved : ledger.unsaved = false) :
    { ledger with unsaved := false } = ledger := by
  cases ledger
  cases saved
  rfl

/-- A saved ledger is loaded as it was saved. -/
theorem load_of_isSavedIn
    {ledger : Ledger} (orderly : ledger.IsOrderly) {tree : Tree} {folder : Path}
    (saved : ledger.IsSavedIn tree folder) (base : Ledger) :
    base.load tree folder =
      ({ base with entities := ledger.entities, seeders := ledger.seeders, unsaved := false },
        none) := by
  have noReturn : '\r' ∉ ledger.text.toList :=
    Document.Json.return_not_mem_written (reads_document ledger)
  rw [load, saved.1, readText_eq saved.1 saved.2 noReturn]
  simp only [ofText_text orderly]

theorem takeSections_eq_none
    {file : Path} {document : Entries} {base ledger : Ledger}
    (taken : takeSections file document base LedgerSection.all = (ledger, none)) :
    ledger.IsOrderly ∧ ledger.module = base.module ∧ ledger.unsaved = false := by
  simp only [LedgerSection.all, takeSections] at taken
  have given {part : LedgerSection} {entries : List String}
      (found : givenEntries? document part = some entries) : entries.Nodup := by
    rw [givenEntries?] at found
    split at found
    · cases found
      exact .nil
    · obtain ⟨items, _, rfl⟩ := Option.map_eq_some_iff.mp found
      exact nodup_distinct items
    · cases found
  cases entities : givenEntries? document .entities with
  | none => simp [entities] at taken
  | some first =>
  cases seeders : givenEntries? document .seeders with
  | none => simp [entities, seeders] at taken
  | some second =>
      simp only [entities, seeders, Prod.mk.injEq, and_true] at taken
      subst taken
      exact ⟨⟨given entities, given seeders⟩, rfl, rfl⟩

theorem ofText_eq_none
    {file : Path} {base ledger : Ledger} {text : String}
    (read : ofText file base text = (ledger, none)) :
    ledger.IsOrderly ∧ ledger.module = base.module ∧ ledger.unsaved = false := by
  rw [ofText] at read
  split at read
  · cases read
  · cases read
  · exact takeSections_eq_none read
  · cases read

/-- Register entries in turn, apart from some that are skipped. -/
def registerAll (part : LedgerSection) (skipped entries : List String) (ledger : Ledger) : Ledger :=
  entries.foldl (fun ledger entry =>
    if skipped.contains entry then ledger else ledger.register part entry) ledger

theorem registerAll_extends
    (part : LedgerSection) (skipped entries : List String) (ledger : Ledger) :
    Extends ledger (registerAll part skipped entries ledger) := by
  induction entries generalizing ledger with
  | nil => exact .refl ledger
  | cons entry rest hypothesis =>
      rw [registerAll, List.foldl_cons]
      refine Extends.trans ?_ (hypothesis _)
      split_ifs
      · exact .refl ledger
      · exact register_extends ledger part entry

theorem entities_registerAll_seeders (skipped entries : List String) (ledger : Ledger) :
    (registerAll .seeders skipped entries ledger).entities = ledger.entities := by
  induction entries generalizing ledger with
  | nil => rfl
  | cons entry rest hypothesis =>
      rw [registerAll, List.foldl_cons]
      refine (hypothesis _).trans ?_
      split_ifs
      · rfl
      · exact entities_register_seeders ledger entry

/-- What is gathered are stems of the files of a folder. -/
theorem gather_eq_ok
    {tree : Tree} {folder : Path} {ending : String} {skipped : List String} {part : LedgerSection}
    {base ledger : Ledger} (gathered : gather tree folder ending skipped part base = .ok ledger) :
    ∃ entries ⊆ (tree.namesEnding folder ending).map Disk.stem,
      ledger = registerAll part skipped entries base := by
  rw [gather] at gathered
  cases isThere : tree.isFolder folder with
  | error error =>
      rw [isThere] at gathered
      cases gathered
  | ok found =>
      rw [isThere] at gathered
      rw [← Except.ok.inj gathered]
      dsimp only
      split_ifs
      · exact ⟨_, List.Subset.refl _, rfl⟩
      · exact ⟨[], List.nil_subset _, rfl⟩

theorem gather_extends
    {tree : Tree} {folder : Path} {ending : String} {skipped : List String} {part : LedgerSection}
    {base ledger : Ledger} (gathered : gather tree folder ending skipped part base = .ok ledger) :
    Extends base ledger := by
  obtain ⟨entries, _, rfl⟩ := gather_eq_ok gathered
  exact registerAll_extends part skipped entries base

theorem gatherAll_eq_none
    {tree : Tree} {folder : Path} {base ledger : Ledger}
    (gathered : gatherAll tree folder base = (ledger, none)) :
    ∃ withEntities,
      gather tree (folder.child "Models") ".php" [] .entities base = .ok withEntities ∧
      gather tree (folder.child "Database/Seeders") "Seeder.php"
        [base.module ++ "DatabaseSeeder"] .seeders withEntities = .ok ledger := by
  rw [gatherAll] at gathered
  split at gathered
  · cases gathered
  · rename_i withEntities first
    dsimp only at gathered
    split at gathered
    · cases gathered
    · rename_i complete second
      cases gathered
      exact ⟨withEntities, first, second⟩

/-- A ledger is loaded from its file, gathered from its module, or stays as it is. -/
theorem load_eq_none
    {tree : Tree} {folder : Path} {base ledger : Ledger} (loaded : base.load tree folder = (ledger, none)) :
    (∃ text, tree.isFile (file folder) = .ok true ∧ tree.readText (file folder) = .ok text ∧
      ofText (file folder) base text = (ledger, none)) ∨
      tree.isFile (file folder) = .ok false ∧
        (gatherAll tree folder base = (ledger, none) ∨ ledger = base) := by
  rw [load] at loaded
  cases isFile : tree.isFile (file folder) with
  | error error =>
      rw [isFile] at loaded
      cases loaded
  | ok found =>
      cases found with
      | true =>
          simp only [isFile] at loaded
          cases read : tree.readText (file folder) with
          | error error =>
              rw [read] at loaded
              cases loaded
          | ok text =>
              rw [read] at loaded
              exact .inl ⟨text, rfl, rfl, loaded⟩
      | false =>
          rw [isFile] at loaded
          cases isFolder : tree.isFolder folder with
          | error error =>
              rw [isFolder] at loaded
              cases loaded
          | ok isThere =>
              rw [isFolder] at loaded
              cases isThere with
              | true => exact .inr ⟨rfl, .inl loaded⟩
              | false =>
                  cases loaded
                  exact .inr ⟨rfl, .inr rfl⟩

/-- Without a file a ledger is loaded with what it has and more. -/
theorem extends_of_load
    {tree : Tree} {folder : Path} {base ledger : Ledger}
    (loaded : base.load tree folder = (ledger, none))
    (absent : tree.isFile (file folder) ≠ .ok true) : Extends base ledger := by
  rcases load_eq_none loaded with ⟨_, isFile, _⟩ | ⟨_, gathered | rfl⟩
  · exact absurd isFile absent
  · obtain ⟨_, first, second⟩ := gatherAll_eq_none gathered
    exact (gather_extends first).trans (gather_extends second)
  · exact .refl _

/-- Without a file and without models a ledger is loaded with the entities it has. -/
theorem entities_eq_of_load
    {tree : Tree} {folder : Path} {base ledger : Ledger}
    (loaded : base.load tree folder = (ledger, none))
    (absent : tree.isFile (file folder) ≠ .ok true)
    (modelless : tree.namesEnding (folder.child "Models") ".php" = []) :
    ledger.entities = base.entities := by
  rcases load_eq_none loaded with ⟨_, isFile, _⟩ | ⟨_, gathered | rfl⟩
  · exact absurd isFile absent
  · obtain ⟨_, first, second⟩ := gatherAll_eq_none gathered
    obtain ⟨models, among, rfl⟩ := gather_eq_ok first
    obtain ⟨seeders, _, rfl⟩ := gather_eq_ok second
    rw [modelless, List.map_nil, List.subset_nil] at among
    rw [entities_registerAll_seeders, among, registerAll, List.foldl_nil]
  · rfl

/-- What is loaded is orderly and belongs to the module. -/
theorem isOrderly_of_load
    {tree : Tree} {folder : Path} {base ledger : Ledger} (orderly : base.IsOrderly)
    (loaded : base.load tree folder = (ledger, none)) :
    ledger.IsOrderly ∧ ledger.module = base.module := by
  by_cases isFile : tree.isFile (file folder) = .ok true
  · rcases load_eq_none loaded with ⟨text, _, _, read⟩ | ⟨absent, _⟩
    · obtain ⟨isOrderly, module, _⟩ := ofText_eq_none read
      exact ⟨isOrderly, module⟩
    · rw [isFile] at absent
      cases absent
  · have extended := extends_of_load loaded isFile
    exact ⟨extended.orderly orderly, extended.module⟩

theorem isOrderly_ofModule (module : String) : (ofModule module).IsOrderly :=
  ⟨.nil, .nil⟩

end Ledger

end Scaffold
