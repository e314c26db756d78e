import Scaffold.Proofs.Disk.Listing
import Scaffold.Proofs.Entity.Agreement

/-!
# What is discovered on disk

A module is discovered by the files of its models alone.
-/

namespace Scaffold.Registry

open Scaffold.Disk (DiskError IsPlainName Kind Location Path Tree)

/-! ## Known modules -/

theorem lists_put_append
    {all : Keyed (List String)} {key module : String} {names : List String} :
    Lists (Keyed.put all key ((Keyed.get? all key).getD [] ++ names)) module ↔
      Lists all module ∨ Text.studlyCase key = module := by
  induction all with
  | nil => simp [Lists, Keyed.put]
  | cons pair rest hypothesis =>
      rw [Keyed.put, Keyed.get?]
      split_ifs with here
      · rw [beq_iff_eq] at here
        simp only [lists_cons, here]
        exact ⟨.inl, fun known => known.elim id .inl⟩
      · rw [lists_cons, lists_cons, hypothesis, or_assoc]

theorem mentions_put_append
    {all : Keyed (List String)} {key module entity : String} {names : List String} :
    Mentions (Keyed.put all key ((Keyed.get? all key).getD [] ++ names)) module entity ↔
      Mentions all module entity ∨
        Text.studlyCase key = module ∧ ∃ name ∈ names, Text.studlyCase name = entity := by
  induction all with
  | nil => simp [Mentions, Keyed.put, Keyed.get?]
  | cons pair rest hypothesis =>
      rw [Keyed.put, Keyed.get?]
      split_ifs with here
      · rw [beq_iff_eq] at here
        simp only [mentions_cons, here, Option.getD_some, List.mem_append, or_and_right, exists_or,
          and_or_left]
        exact or_right_comm
      · rw [mentions_cons, mentions_cons, hypothesis, or_assoc]

theorem lists_extend {found known : Keyed (List String)} {module : String} :
    Lists (extend found known) module ↔ Lists found module ∨ Lists known module := by
  induction known generalizing found with
  | nil => simp [extend, Lists]
  | cons pair rest hypothesis =>
      have step : extend found (pair :: rest) =
          extend (Keyed.put found pair.1 ((Keyed.get? found pair.1).getD [] ++ pair.2)) rest :=
        rfl
      rw [step, hypothesis, lists_put_append, lists_cons, or_assoc]

theorem mentions_extend {found known : Keyed (List String)} {module entity : String} :
    Mentions (extend found known) module entity ↔
      Mentions found module entity ∨ Mentions known module entity := by
  induction known generalizing found with
  | nil => simp [extend, Mentions]
  | cons pair rest hypothesis =>
      have step : extend found (pair :: rest) =
          extend (Keyed.put found pair.1 ((Keyed.get? found pair.1).getD [] ++ pair.2)) rest :=
        rfl
      rw [step, hypothesis, mentions_put_append, mentions_cons, or_assoc]

/-! ## Models on disk -/

theorem mem_of_filterAuxM
    {α ε : Type} {accept : α → Except ε Bool} {values known kept : List α}
    (filtered : List.filterAuxM accept values known = .ok kept) (value : α) :
    value ∈ kept ↔ value ∈ known ∨ value ∈ values ∧ accept value = .ok true := by
  induction values generalizing known with
  | nil =>
      cases filtered
      simp
  | cons first rest hypothesis =>
      rw [List.filterAuxM] at filtered
      cases accepted : accept first with
      | error error =>
          rw [accepted] at filtered
          cases filtered
      | ok isKept =>
          rw [accepted] at filtered
          have among := hypothesis filtered
          cases isKept with
          | false =>
              rw [cond_false] at among
              rw [among, List.mem_cons, or_and_right]
              constructor
              · rintro (old | new)
                · exact .inl old
                · exact .inr (.inr new)
              · rintro (old | ⟨rfl, wrong⟩ | new)
                · exact .inl old
                · rw [accepted] at wrong
                  cases wrong
                · exact .inr new
          | true =>
              rw [cond_true, List.mem_cons] at among
              rw [among, List.mem_cons, or_and_right]
              constructor
              · rintro ((rfl | old) | new)
                · exact .inr (.inl ⟨rfl, accepted⟩)
                · exact .inl old
                · exact .inr (.inr new)
              · rintro (old | ⟨rfl, _⟩ | new)
                · exact .inl (.inr old)
                · exact .inl (.inl rfl)
                · exact .inr new

theorem mem_of_filterM
    {α ε : Type} {accept : α → Except ε Bool} {values kept : List α}
    (filtered : values.filterM accept = .ok kept) (value : α) :
    value ∈ kept ↔ value ∈ values ∧ accept value = .ok true := by
  rw [List.filterM] at filtered
  cases reversed : List.filterAuxM accept values [] with
  | error error =>
      rw [reversed] at filtered
      cases filtered
  | ok backwards =>
      rw [reversed] at filtered
      rw [← Except.ok.inj filtered, List.mem_reverse, mem_of_filterAuxM reversed]
      simp

/-- A folder has a model. -/
def HasModel (tree : Tree) (folder : Path) (model : String) : Prop :=
  tree.isFolder folder = .ok true ∧
    ∃ name ∈ tree.namesEnding folder ".php",
      tree.isFile (folder.child name) = .ok true ∧ Disk.stem name = model

theorem mem_modelsIn
    {tree : Tree} {folder : Path} {models : List String}
    (found : modelsIn tree folder = .ok models) (model : String) :
    model ∈ models ↔ HasModel tree folder model := by
  rw [modelsIn] at found
  rw [HasModel]
  cases isThere : tree.isFolder folder with
  | error error =>
      rw [isThere] at found
      cases found
  | ok isFolder =>
      rw [isThere] at found
      cases isFolder with
      | false =>
          cases found
          simp
      | true =>
          change (do
            let files ← (tree.namesEnding folder ".php").filterM fun name =>
              tree.isFile (folder.child name)
            return sortedTexts (files.map Disk.stem)) = _ at found
          cases filtered : (tree.namesEnding folder ".php").filterM fun name =>
              tree.isFile (folder.child name) with
          | error error =>
              rw [filtered] at found
              cases found
          | ok files =>
              rw [filtered] at found
              rw [← Except.ok.inj found]
              simp [mem_of_filterM filtered, and_assoc]

/-- A module of a folder has a model. -/
structure HasModuleModel (tree : Tree) (folder : Path) (name model : String) : Prop where
  isFolder : tree.isFolder (folder.child name) = .ok true
  notSetup : name ≠ setupFolderName
  model : HasModel tree ((folder.child name).child "Models") model

/-- What is found in a folder are the modules with their models. -/
structure Finds (tree : Tree) (folder : Path) (names : List String)
    (found : Keyed (List String)) : Prop where
  mentions : ∀ module entity, Mentions found module entity ↔
    ∃ name ∈ names, Text.studlyCase name = module ∧
      ∃ model, HasModuleModel tree folder name model ∧ Text.studlyCase model = entity
  lists : ∀ module, Lists found module ↔ ∃ entity, Mentions found module entity

theorem lists_of_mentions
    {found : Keyed (List String)} {module entity : String} (mentions : Mentions found module entity) :
    Lists found module := by
  obtain ⟨pair, member, named, _⟩ := mentions
  exact ⟨pair, member, named⟩

/-- Searching one name more finds the models of its module. -/
theorem modulesAmong_cons
    {tree : Tree} {folder : Path} {name : String} {rest : List String}
    {found : Keyed (List String)} (searched : modulesAmong tree folder (name :: rest) = .ok found) :
    ∃ models others, modulesAmong tree folder rest = .ok others ∧
      (∀ model, model ∈ models ↔ HasModuleModel tree folder name model) ∧
        found = if models.isEmpty then others else (name, models) :: others := by
  rw [modulesAmong] at searched
  cases isThere : tree.isFolder (folder.child name) with
  | error error =>
      rw [isThere] at searched
      cases searched
  | ok isFolder =>
      rw [isThere] at searched
      by_cases searches : (isFolder && name != setupFolderName) = true
      · simp only [bind, Except.bind, if_pos searches] at searched
        cases listed : modelsIn tree ((folder.child name).child "Models") with
        | error error =>
            rw [listed] at searched
            cases searched
        | ok models =>
            rw [listed] at searched
            cases searchedRest : modulesAmong tree folder rest with
            | error error =>
                rw [searchedRest] at searched
                cases searched
            | ok others =>
                rw [searchedRest] at searched
                refine ⟨models, others, rfl, fun model => ?_, (Except.ok.inj searched).symm⟩
                simp only [Bool.and_eq_true, bne_iff_ne, ne_eq] at searches
                rw [mem_modelsIn listed]
                exact ⟨fun model => ⟨by rw [isThere, searches.1], searches.2, model⟩,
                  fun module => module.model⟩
      · simp only [bind, Except.bind, if_neg searches, pure, Except.pure] at searched
        cases searchedRest : modulesAmong tree folder rest with
        | error error =>
            rw [searchedRest] at searched
            cases searched
        | ok others =>
            rw [searchedRest] at searched
            refine ⟨[], others, rfl, fun model => ?_, (Except.ok.inj searched).symm⟩
            refine iff_of_false (by simp) fun module => searches ?_
            have isFolderTrue := Except.ok.inj (isThere.symm.trans module.isFolder)
            simp [isFolderTrue, module.notSetup]

theorem finds_modulesAmong
    {tree : Tree} {folder : Path} {names : List String} {found : Keyed (List String)}
    (searched : modulesAmong tree folder names = .ok found) :
    Finds tree folder names found := by
  induction names generalizing found with
  | nil =>
      cases searched
      constructor <;> simp [Mentions, Lists]
  | cons name rest hypothesis =>
      obtain ⟨models, others, searchedRest, isModel, rfl⟩ := modulesAmong_cons searched
      have later := hypothesis searchedRest
      cases models with
      | nil =>
          refine ⟨fun module entity => ?_, later.lists⟩
          have none (model : String) : ¬ HasModuleModel tree folder name model := fun found =>
            absurd ((isModel model).mpr found) (by simp)
          refine (later.mentions module entity).trans ?_
          simp [none]
      | cons first models =>
          refine ⟨fun module entity => ?_, fun module => ?_⟩
          · refine mentions_cons.trans ?_
            simp only [later.mentions, List.mem_cons, exists_eq_or_imp, ← isModel]
          · refine lists_cons.trans ⟨?_, ?_⟩
            · rintro (here | other)
              · exact ⟨Text.studlyCase first, mentions_cons.mpr
                  (.inl ⟨here, first, List.mem_cons_self, rfl⟩)⟩
              · obtain ⟨entity, known⟩ := (later.lists module).mp other
                exact ⟨entity, mentions_cons.mpr (.inr known)⟩
            · rintro ⟨entity, known⟩
              exact lists_cons.mp (lists_of_mentions known)

theorem finds_modulesIn
    {tree : Tree} (sound : tree.IsSound) {folder : Path} {found : Keyed (List String)}
    (searched : modulesIn tree folder = .ok found) :
    Finds tree folder (tree.names folder) found := by
  rw [modulesIn] at searched
  cases isThere : tree.isFolder folder with
  | error error =>
      rw [isThere] at searched
      cases searched
  | ok isFolder =>
      rw [isThere] at searched
      cases isFolder with
      | true => exact finds_modulesAmong searched
      | false =>
          cases searched
          rw [Tree.names_eq_nil sound isThere]
          constructor <;> simp [Mentions, Lists]

/-! ## Discovering once more -/

variable {earlier later : Tree}

theorem HasModel.extend
    (growth : Tree.Extends earlier later) {folder : Path} {model : String}
    (has : HasModel earlier folder model) :
    HasModel later folder model := by
  obtain ⟨isFolder, name, listed, isFile, stem⟩ := has
  rw [Tree.namesEnding, List.mem_filter, Tree.mem_names_iff] at listed
  obtain ⟨⟨location, located, there⟩, ending⟩ := listed
  refine ⟨growth.isFolder isFolder, name, ?_, growth.isFile isFile, stem⟩
  rw [Tree.namesEnding, List.mem_filter, Tree.mem_names_iff]
  refine ⟨⟨location, growth.locate located, ?_⟩, ending⟩
  obtain ⟨kind, found⟩ := Option.ne_none_iff_exists'.mp there
  simp [growth.kinds _ _ found]

theorem HasModuleModel.extend
    (growth : Tree.Extends earlier later) {folder : Path} {name model : String}
    (has : HasModuleModel earlier folder name model) :
    HasModuleModel later folder name model :=
  ⟨growth.isFolder has.isFolder, has.notSetup, has.model.extend growth⟩

/-- A model of a steady folder was there already, or its file is new. -/
theorem HasModel.earlier_or_new
    (growth : Tree.Extends earlier later) (sound : earlier.IsSound) (laterSound : later.IsSound)
    {folder : Path} (steady : earlier.IsSteady folder) {model : String}
    (has : HasModel later folder model) :
    HasModel earlier folder model ∨
      ∃ name, ".php".toList.isSuffixOf name.toList = true ∧ Disk.stem name = model ∧
        (later.contentAt? (later.resolve folder ++ [name])).isSome = true ∧
        earlier.contentAt? (later.resolve folder ++ [name]) = none := by
  obtain ⟨isFolder, name, listed, isFile, stem⟩ := has
  rw [Tree.namesEnding, List.mem_filter, Tree.mem_names_iff] at listed
  obtain ⟨⟨location, located, there⟩, ending⟩ := listed
  have plain := laterSound.plain location name there
  rw [Tree.locate_eq_resolve located] at there
  have content : (later.contentAt? (later.resolve folder ++ [name])).isSome = true := by
    obtain ⟨place, placed, kind⟩ := Tree.isFile_eq_true_iff.mp isFile
    rw [← Tree.resolve_child later folder plain, ← Tree.locate_eq_resolve placed]
    exact laterSound.isFile_iff.mp kind
  cases before : earlier.contentAt? (later.resolve folder ++ [name]) with
  | none => exact .inr ⟨name, ending, stem, content, before⟩
  | some old =>
      have file : earlier.kindAt? (later.resolve folder ++ [name]) = some .file :=
        sound.isFile_iff.mpr (by simp [before])
      have above : earlier.kindAt? (later.resolve folder) = some .folder :=
        sound.above _ name (by simp [file])
      have earlierFolder := growth.isFolder_of_isSteady sound steady isFolder above
      have earlierFile := growth.isFile_of_isSteady sound (steady.child plain) isFile
        (by simp [Tree.resolve_child later folder plain, before])
      refine .inl ⟨earlierFolder, name, ?_, earlierFile, stem⟩
      rw [Tree.namesEnding, List.mem_filter, Tree.mem_names_iff]
      obtain ⟨place, placed, _⟩ := Tree.isFolder_eq_true_iff.mp earlierFolder
      refine ⟨⟨place, placed, ?_⟩, ending⟩
      rw [Tree.locate_eq_resolve placed, ← growth.resolve, file]
      simp

/-- A new file is that of a known model. -/
def NewModelsAmong (earlier later : Tree) (folder : Location) (entities : List String) : Prop :=
  ∀ name, ".php".toList.isSuffixOf name.toList = true →
    (later.contentAt? (folder ++ [name])).isSome = true →
    earlier.contentAt? (folder ++ [name]) = none →
    Text.studlyCase (Disk.stem name) ∈ entities.map Text.studlyCase

theorem isPlainName_models : IsPlainName "Models" := by
  decide +kernel

theorem mem_applicationModels
    {config : Config} {tree : Tree} {models : List String}
    (found : applicationModels config tree = .ok models) (model : String) :
    model ∈ models ↔ model ∈ config.globalModels ∨
      ∃ folder, config.appModelsPath.filter (!·.isEmpty) = some folder ∧
        HasModel tree (Path.ofText folder) model := by
  rw [applicationModels] at found
  cases given : config.appModelsPath.filter (!·.isEmpty) with
  | none =>
      simp only [given] at found
      cases found
      simp
  | some folder =>
      simp only [given] at found
      cases listed : modelsIn tree (Path.ofText folder) with
      | error error =>
          rw [listed] at found
          cases found
      | ok inFolder =>
          rw [listed] at found
          rw [← Except.ok.inj found, List.mem_append, mem_modelsIn listed]
          simp

/-- A module of a steady folder has a model that was there already, or whose file is new. -/
theorem HasModuleModel.earlier_or_new
    (growth : Tree.Extends earlier later) (sound : earlier.IsSound) (laterSound : later.IsSound)
    {folder : Path} (steady : earlier.IsSteady folder) {name model : String}
    (listed : name ∈ later.names folder) (has : HasModuleModel later folder name model) :
    (name ∈ earlier.names folder ∧ HasModuleModel earlier folder name model) ∨
      ∃ file, ".php".toList.isSuffixOf file.toList = true ∧ Disk.stem file = model ∧
        (later.contentAt? (later.resolve folder ++ [name, "Models"] ++ [file])).isSome = true ∧
        earlier.contentAt? (later.resolve folder ++ [name, "Models"] ++ [file]) = none := by
  obtain ⟨location, located, there⟩ := Tree.mem_names_iff.mp listed
  have plain := laterSound.plain location name there
  have moduleSteady := steady.child plain
  have place : later.resolve ((folder.child name).child "Models") =
      later.resolve folder ++ [name, "Models"] := by
    rw [Tree.resolve_child _ _ isPlainName_models, Tree.resolve_child _ _ plain,
      List.append_assoc]
    rfl
  rcases has.model.earlier_or_new growth sound laterSound
    (moduleSteady.child isPlainName_models) with model | ⟨file, ending, stem, content, new⟩
  · obtain ⟨models, modelsLocated, modelsKind⟩ := Tree.isFolder_eq_true_iff.mp model.1
    rw [Tree.locate_eq_resolve modelsLocated, Tree.resolve_child _ _ isPlainName_models]
      at modelsKind
    have moduleKind := sound.above _ _ (by rw [modelsKind]; simp)
    have folderKind := moduleKind
    rw [Tree.resolve_child _ _ plain] at folderKind
    have aboveKind := sound.above _ _ (by rw [folderKind]; simp)
    have earlierModule := growth.isFolder_of_isSteady sound moduleSteady has.isFolder
      (by rw [growth.resolve]; exact moduleKind)
    have earlierLocated := growth.locate_of_isSteady sound steady located
      (by rw [Tree.locate_eq_resolve located, growth.resolve, aboveKind]; simp)
    refine .inl ⟨Tree.mem_names_iff.mpr ⟨location, earlierLocated, ?_⟩,
      earlierModule, has.notSetup, model⟩
    rw [Tree.locate_eq_resolve earlierLocated, folderKind]
    simp
  · rw [place] at content new
    exact .inr ⟨file, ending, stem, content, new⟩

/-- A module is discovered in the same way once more, apart from new models of its own. -/
theorem matches_discover
    (growth : Tree.Extends earlier later) (sound : earlier.IsSound) (laterSound : later.IsSound)
    {config : Config} {module : String} {entities : List String} {first second : Registry}
    (steadyModules : earlier.IsSteady (Path.ofText config.modulesPath))
    (steadyApplication : ∀ folder, config.appModelsPath.filter (!·.isEmpty) = some folder →
      earlier.IsSteady (Path.ofText folder))
    (newModels : ∀ name,
      NewModelsAmong earlier later
        (later.resolve (Path.ofText config.modulesPath) ++ [name, "Models"])
        (if Text.studlyCase name = Text.studlyCase module then entities else []))
    (newApplication : ∀ folder, config.appModelsPath.filter (!·.isEmpty) = some folder →
      NewModelsAmong earlier later (later.resolve (Path.ofText folder)) entities)
    (discovered : discover config earlier module entities = .ok first)
    (again : discover config later module entities = .ok second) :
    Matches first second := by
  rw [discover] at discovered again
  cases firstFound : modulesIn earlier (Path.ofText config.modulesPath) with
  | error error =>
      rw [firstFound] at discovered
      cases discovered
  | ok found =>
  cases secondFound : modulesIn later (Path.ofText config.modulesPath) with
  | error error =>
      rw [secondFound] at again
      cases again
  | ok foundAgain =>
  cases firstModels : applicationModels config earlier with
  | error error =>
      rw [firstFound, firstModels] at discovered
      cases discovered
  | ok models =>
  cases secondModels : applicationModels config later with
  | error error =>
      rw [secondFound, secondModels] at again
      cases again
  | ok modelsAgain =>
  rw [firstFound, firstModels] at discovered
  rw [secondFound, secondModels] at again
  rw [← Except.ok.inj discovered, ← Except.ok.inj again]
  have finds := finds_modulesIn sound firstFound
  have findsAgain := finds_modulesIn laterSound secondFound
  have forward {other entity : String} (mentions : Mentions found other entity) :
      Mentions foundAgain other entity := by
    obtain ⟨name, listed, named, model, has, same⟩ := (finds.mentions other entity).mp mentions
    refine (findsAgain.mentions other entity).mpr
      ⟨name, ?_, named, model, has.extend growth, same⟩
    obtain ⟨location, located, there⟩ := Tree.mem_names_iff.mp listed
    obtain ⟨kind, kindThere⟩ := Option.ne_none_iff_exists'.mp there
    exact Tree.mem_names_iff.mpr
      ⟨location, growth.locate located, by simp [growth.kinds _ _ kindThere]⟩
  have backward {other entity : String} (mentions : Mentions foundAgain other entity) :
      Mentions found other entity ∨
        other = Text.studlyCase module ∧ entity ∈ entities.map Text.studlyCase := by
    obtain ⟨name, listed, named, model, has, same⟩ := (findsAgain.mentions other entity).mp mentions
    rcases has.earlier_or_new growth sound laterSound steadyModules listed with
      ⟨listedBefore, before⟩ | ⟨file, ending, stem, content, new⟩
    · exact .inl ((finds.mentions other entity).mpr ⟨name, listedBefore, named, model, before, same⟩)
    · have among := newModels name file ending content new
      split_ifs at among with own
      · rw [stem, same] at among
        exact .inr ⟨named.symm.trans own, among⟩
      · cases among
  refine matches_build module entities config.moduleNamespace config.appModelNamespace
    (fun entity => ?_) (fun other apart => ?_) (fun other entity apart => ?_)
    fun entity notSibling notMentioned => ?_
  · simp only [mentions_extend]
    constructor
    · rintro (sibling | mentioned | known)
      · exact .inl sibling
      · exact .inr (.inl (forward mentioned))
      · exact .inr (.inr known)
    · rintro (sibling | mentioned | known)
      · exact .inl sibling
      · exact (backward mentioned).elim (fun before => .inr (.inl before)) fun new => .inl new.2
      · exact .inr (.inr known)
  · rw [lists_extend, lists_extend, finds.lists, findsAgain.lists]
    refine or_congr_left ⟨fun ⟨entity, mentioned⟩ => ⟨entity, forward mentioned⟩, ?_⟩
    rintro ⟨entity, mentioned⟩
    exact ⟨entity, (backward mentioned).resolve_right fun new => apart new.1⟩
  · rw [mentions_extend, mentions_extend]
    exact or_congr_left ⟨forward, fun mentioned =>
      (backward mentioned).resolve_right fun new => apart new.1⟩
  · simp only [List.mem_map, mem_applicationModels firstModels, mem_applicationModels secondModels]
    constructor
    · rintro ⟨model, known | ⟨folder, given, has⟩, same⟩
      · exact ⟨model, .inl known, same⟩
      · exact ⟨model, .inr ⟨folder, given, has.extend growth⟩, same⟩
    · rintro ⟨model, known | ⟨folder, given, has⟩, same⟩
      · exact ⟨model, .inl known, same⟩
      · rcases has.earlier_or_new growth sound laterSound (steadyApplication folder given) with
          before | ⟨file, ending, stem, content, new⟩
        · exact ⟨model, .inr ⟨folder, given, before⟩, same⟩
        · have among := newApplication folder given file ending content new
          rw [stem, same] at among
          exact absurd among notSibling

end Scaffold.Registry
