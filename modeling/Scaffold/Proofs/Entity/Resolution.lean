import Mathlib.Data.List.Dedup
import Scaffold.Proofs.Entity.Agreement
import Scaffold.Proofs.Factory.ForeignTarget

/-!
# Resolving a name in three tiers

A registry is built from lists of names in any spelling and order.  A name is looked up among the
entities of the module itself, then in the other modules in alphabetical order, and then among the
models of the application.  The main statement says where each name is found, by membership in the
lists alone, and that a new entity of the module changes nothing but the look-up of its own name.
-/

namespace Scaffold

/-- No text that passes a test comes before the first one that is found. -/
theorem le_of_find?_sortedTexts
    {texts : List String} {test : String → Bool} {text other : String}
    (found : (sortedTexts texts).find? test = some text) (member : other ∈ texts)
    (passes : test other = true) : text ≤ other := by
  obtain ⟨-, before, after, split, failed⟩ := List.find?_eq_some_iff_append.mp found
  have sorted := sortedTexts_pairwise texts
  rw [split, List.pairwise_append, List.pairwise_cons] at sorted
  rw [← mem_sortedTexts, split, List.mem_append, List.mem_cons] at member
  rcases member with early | rfl | late
  · have rejected := failed other early
    rw [passes] at rejected
    cases rejected
  · exact le_rfl
  · exact sorted.2.1.1 other late

theorem find?_sortedTexts_eq_some_iff {texts : List String} {test : String → Bool} {text : String} :
    (sortedTexts texts).find? test = some text ↔
      text ∈ texts ∧ test text = true ∧ ∀ other ∈ texts, test other = true → text ≤ other := by
  constructor
  · intro found
    exact ⟨mem_sortedTexts.mp (List.mem_of_find?_eq_some found), List.find?_some found,
      fun _ => le_of_find?_sortedTexts found⟩
  · rintro ⟨member, passes, least⟩
    obtain ⟨first, found⟩ := Option.isSome_iff_exists.mp
      (List.find?_isSome.mpr ⟨text, mem_sortedTexts.mpr member, passes⟩)
    have among : first ∈ texts := mem_sortedTexts.mp (List.mem_of_find?_eq_some found)
    have reached := le_of_find?_sortedTexts found member passes
    rw [found, le_antisymm reached (least first among (List.find?_some found))]

namespace Registry

/-! ## The lists behind a registry -/

/-- What a registry is built from. -/
structure Sources where
  module : String
  siblings : List String
  others : Keyed (List String)
  application : List String
  moduleNamespace : String
  applicationNamespace : String

namespace Sources

variable (sources : Sources)

/-- The registry that is built from its sources. -/
def registry : Registry :=
  build sources.module sources.siblings sources.others sources.application sources.moduleNamespace
    sources.applicationNamespace

/-- The name of the module as its namespace spells it. -/
def own : String :=
  Text.studlyCase sources.module

/--
An entity belongs to the module itself: it is given as one of its entities, or listed for a module
whose name is another spelling of its own.
-/
def IsOwn (entity : String) : Prop :=
  (∃ sibling ∈ sources.siblings, Text.studlyCase sibling = entity) ∨
    Mentions sources.others sources.own entity

/-- Another module lists an entity. -/
def IsListed (entity other : String) : Prop :=
  other ≠ sources.own ∧ Mentions sources.others other entity

/-- The application has a model of the name of an entity. -/
def IsGlobal (entity : String) : Prop :=
  ∃ model ∈ sources.application, Text.studlyCase model = entity

instance (entity : String) : Decidable (sources.IsOwn entity) :=
  inferInstanceAs (Decidable ((∃ sibling ∈ sources.siblings, Text.studlyCase sibling = entity) ∨
    ∃ pair ∈ sources.others, Text.studlyCase pair.1 = sources.own ∧
      ∃ name ∈ pair.2, Text.studlyCase name = entity))

instance (entity other : String) : Decidable (sources.IsListed entity other) :=
  inferInstanceAs (Decidable (other ≠ sources.own ∧ ∃ pair ∈ sources.others,
    Text.studlyCase pair.1 = other ∧ ∃ name ∈ pair.2, Text.studlyCase name = entity))

/-- The names of the other modules, each once. -/
def otherModules : List String :=
  ((sources.others.map fun pair => Text.studlyCase pair.1).filter (· ≠ sources.own)).dedup

/--
What is found for an entity: one of the module itself before one of another module, of these the
first in alphabetical order, and one of the application only when no module has it.
-/
inductive Finds (entity : String) : Target → Prop
  | sibling (isOwn : sources.IsOwn entity) :
      Finds entity ⟨entity, .sibling sources.own (sources.registry.modelName entity "")⟩
  | neighbour (apart : ¬ sources.IsOwn entity) {other : String}
      (listed : sources.IsListed entity other)
      (first : ∀ later, sources.IsListed entity later → other ≤ later) :
      Finds entity ⟨entity, .neighbour other (sources.registry.modelName entity other)⟩
  | application (apart : ¬ sources.IsOwn entity) (unlisted : ∀ other, ¬ sources.IsListed entity other)
      (isGlobal : sources.IsGlobal entity) :
      Finds entity ⟨entity, .application (sources.registry.applicationNamespace ++ "\\" ++ entity)⟩
  | unknown (apart : ¬ sources.IsOwn entity) (unlisted : ∀ other, ¬ sources.IsListed entity other)
      (isUnknown : ¬ sources.IsGlobal entity) :
      Finds entity ⟨entity, .unknown sources.own sources.otherModules.length⟩

/-- Sources with the same lists in another order, of modules and of the entities of each. -/
structure Rearranges (left right : Sources) : Prop where
  module : left.module = right.module
  siblings : left.siblings.Perm right.siblings
  others : ∃ between, left.others.Perm between ∧
    List.Forall₂ (fun pair other => pair.1 = other.1 ∧ pair.2.Perm other.2) between right.others
  application : left.application.Perm right.application
  moduleNamespace : left.moduleNamespace = right.moduleNamespace
  applicationNamespace : left.applicationNamespace = right.applicationNamespace

/-! ## What the registry knows -/

/-- A registry knows what its sources say, and nothing else. -/
structure Describes (registry : Registry) : Prop where
  module : registry.module = sources.own
  moduleNamespace : registry.moduleNamespace = strippedNamespace sources.moduleNamespace
  applicationNamespace :
    registry.applicationNamespace = strippedNamespace sources.applicationNamespace
  siblings : ∀ entity, entity ∈ registry.siblings ↔ sources.IsOwn entity
  nodup : (Keyed.keys registry.neighbours).Nodup
  modules : ∀ other, other ∈ Keyed.keys registry.neighbours ↔
    other ≠ sources.own ∧ Lists sources.others other
  entities : ∀ other entity,
    entity ∈ (Keyed.get? registry.neighbours other).getD [] ↔ sources.IsListed entity other
  application : ∀ entity, entity ∈ registry.application ↔ sources.IsGlobal entity

theorem describes_registry : sources.Describes sources.registry := by
  have adds := adds_addModules
    (sources.siblings.foldl addSibling
      { module := sources.own
        application := (sources.application.map Text.studlyCase).foldl addText []
        moduleNamespace := strippedNamespace sources.moduleNamespace
        applicationNamespace := strippedNamespace sources.applicationNamespace }) sources.others
  rw [foldl_addSibling] at adds
  rw [registry, build, foldl_addSibling]
  refine ⟨adds.module, adds.moduleNamespace, adds.applicationNamespace,
    fun entity => (adds.siblings entity).trans (or_congr_left ?_),
    adds.nodup List.nodup_nil, fun other => (adds.modules other).trans ?_,
    fun other entity => (adds.entities other entity).trans ?_, fun entity => ?_⟩
  · simp [mem_foldl_addText]
  · simp [Keyed.keys]
  · simp [Keyed.get?, IsListed]
  · refine (iff_of_eq (congrArg (entity ∈ ·) adds.application)).trans ?_
    simp [mem_foldl_addText, IsGlobal]

variable {sources} {registry : Registry}

theorem Describes.neighbourOf?_eq_some_iff
    (describes : sources.Describes registry) {entity other : String} :
    registry.neighbourOf? entity = some other ↔
      sources.IsListed entity other ∧
        ∀ later, sources.IsListed entity later → other ≤ later := by
  have known (module : String) : ((Keyed.get? registry.neighbours module).getD []).contains entity =
      true ↔ sources.IsListed entity module := by
    rw [List.contains_iff_mem, describes.entities]
  have isKey {module : String} (listed : sources.IsListed entity module) :
      module ∈ Keyed.keys registry.neighbours := by
    obtain ⟨apart, pair, member, named, -⟩ := listed
    exact (describes.modules module).mpr ⟨apart, pair, member, named⟩
  simp only [neighbourOf?, find?_sortedTexts_eq_some_iff, known]
  constructor
  · rintro ⟨-, listed, first⟩
    exact ⟨listed, fun later also => first later (isKey also) also⟩
  · rintro ⟨listed, first⟩
    exact ⟨isKey listed, listed, fun later _ also => first later also⟩

theorem Describes.neighbourOf?_eq_none_iff
    (describes : sources.Describes registry) {entity : String} :
    registry.neighbourOf? entity = none ↔ ∀ other, ¬ sources.IsListed entity other := by
  simp only [neighbourOf?, List.find?_eq_none, mem_sortedTexts, List.contains_iff_mem,
    describes.entities]
  refine ⟨fun none other listed => ?_, fun none other _ => none other⟩
  obtain ⟨apart, pair, member, named, -⟩ := id listed
  exact none other ((describes.modules other).mpr ⟨apart, pair, member, named⟩) listed

/-- A registry counts the other modules once each, however their names are spelled. -/
theorem Describes.length_neighbours (describes : sources.Describes registry) :
    registry.neighbours.length = sources.otherModules.length := by
  have same : (Keyed.keys registry.neighbours).Perm sources.otherModules := by
    refine (List.perm_ext_iff_of_nodup describes.nodup (List.nodup_dedup _)).mpr fun other => ?_
    rw [describes.modules, List.mem_dedup, List.mem_filter, List.mem_map, and_comm]
    simp [Lists]
  simpa [Keyed.keys] using same.length_eq

theorem finds_resolve (sources : Sources) (name : String) :
    sources.Finds (Text.studlyCase name) (sources.registry.resolve name) := by
  have describes := sources.describes_registry
  have isOwn := describes.siblings (Text.studlyCase name)
  have isGlobal := describes.application (Text.studlyCase name)
  rw [← List.contains_iff_mem] at isOwn isGlobal
  rw [resolve]
  by_cases own : sources.IsOwn (Text.studlyCase name)
  · rw [if_pos (isOwn.mpr own), describes.module]
    exact .sibling own
  · rw [if_neg (mt isOwn.mp own)]
    cases found : sources.registry.neighbourOf? (Text.studlyCase name) with
    | some other =>
        obtain ⟨listed, first⟩ := describes.neighbourOf?_eq_some_iff.mp found
        exact .neighbour own listed first
    | none =>
        have unlisted := describes.neighbourOf?_eq_none_iff.mp found
        dsimp only
        split_ifs with known
        · exact .application own unlisted (isGlobal.mp known)
        · rw [describes.module, describes.length_neighbours]
          exact .unknown own unlisted (mt isGlobal.mpr known)

/-- The tiers leave no choice. -/
theorem Finds.unique
    {entity : String} {target other : Target} (finds : sources.Finds entity target)
    (findsToo : sources.Finds entity other) : target = other := by
  cases finds with
  | sibling own =>
      cases findsToo with
      | sibling => rfl
      | neighbour apart | application apart | unknown apart => exact absurd own apart
  | neighbour apart listed first =>
      cases findsToo with
      | sibling own => exact absurd own apart
      | neighbour _ listedToo firstToo =>
          rw [le_antisymm (first _ listedToo) (firstToo _ listed)]
      | application _ unlisted | unknown _ unlisted => exact absurd listed (unlisted _)
  | application apart unlisted isGlobal =>
      cases findsToo with
      | sibling own => exact absurd own apart
      | neighbour _ listed => exact absurd listed (unlisted _)
      | application => rfl
      | unknown _ _ isUnknown => exact absurd isGlobal isUnknown
  | unknown apart unlisted isUnknown =>
      cases findsToo with
      | sibling own => exact absurd own apart
      | neighbour _ listed => exact absurd listed (unlisted _)
      | application _ _ isGlobal => exact absurd isGlobal isUnknown
      | unknown => rfl

/-! ## Order and new entities -/

/-- Modules in another order, each with its entities in another order. -/
theorem mentions_of_rearranged
    {left between right : Keyed (List String)} (perm : left.Perm between)
    (pairs : List.Forall₂ (fun pair other => pair.1 = other.1 ∧ pair.2.Perm other.2) between right) :
    (∀ module, Lists left module ↔ Lists right module) ∧
      ∀ module entity, Mentions left module entity ↔ Mentions right module entity := by
  have moved : (∀ module, Lists left module ↔ Lists between module) ∧
      ∀ module entity, Mentions left module entity ↔ Mentions between module entity := by
    simp only [Lists, Mentions, perm.mem_iff, implies_true, and_self]
  suffices same : (∀ module, Lists between module ↔ Lists right module) ∧
      ∀ module entity, Mentions between module entity ↔ Mentions right module entity by
    exact ⟨fun module => (moved.1 module).trans (same.1 module),
      fun module entity => (moved.2 module entity).trans (same.2 module entity)⟩
  clear perm moved
  induction pairs with
  | nil => exact ⟨fun _ => Iff.rfl, fun _ _ => Iff.rfl⟩
  | cons alike _ hypothesis =>
      refine ⟨fun module => ?_, fun module entity => ?_⟩
      · rw [lists_cons, lists_cons, hypothesis.1, alike.1]
      · rw [mentions_cons, mentions_cons, hypothesis.2, alike.1]
        simp only [alike.2.mem_iff]

/-- Sources in another order give a registry that resolves every name in the same way. -/
theorem Rearranges.agrees {left right : Sources} (same : Rearranges left right) :
    Agrees left.registry right.registry := by
  obtain ⟨between, perm, pairs⟩ := same.others
  obtain ⟨lists, mentions⟩ := mentions_of_rearranged perm pairs
  have own : left.own = right.own := congrArg Text.studlyCase same.module
  have listed (entity other : String) : left.IsListed entity other ↔ right.IsListed entity other := by
    rw [IsListed, IsListed, own, mentions]
  have leftKnows := left.describes_registry
  have rightKnows := right.describes_registry
  refine Matches.agrees
    { module := by rw [leftKnows.module, rightKnows.module, own]
      moduleNamespace := by
        rw [leftKnows.moduleNamespace, rightKnows.moduleNamespace, same.moduleNamespace]
      applicationNamespace := by
        rw [leftKnows.applicationNamespace, rightKnows.applicationNamespace,
          same.applicationNamespace]
      siblings := fun entity => ?_
      leftNodup := leftKnows.nodup
      rightNodup := rightKnows.nodup
      modules := fun module => by rw [leftKnows.modules, rightKnows.modules, own, lists]
      entities := fun module entity => by rw [leftKnows.entities, rightKnows.entities, listed]
      application := fun entity _ => ?_ }
  · rw [leftKnows.siblings, rightKnows.siblings, IsOwn, IsOwn, own, mentions]
    simp only [same.siblings.mem_iff]
  · rw [leftKnows.application, rightKnows.application, IsGlobal, IsGlobal]
    simp only [same.application.mem_iff]

end Sources

/-- A new entity changes the look-up of its own name only. -/
theorem resolve_addSibling_of_ne (registry : Registry) {entity name : String}
    (different : Text.studlyCase name ≠ Text.studlyCase entity) :
    (registry.addSibling entity).resolve name = registry.resolve name := by
  have known : (registry.addSibling entity).siblings.contains (Text.studlyCase name) =
      registry.siblings.contains (Text.studlyCase name) := by
    rw [Bool.eq_iff_iff, List.contains_iff_mem, List.contains_iff_mem, addSibling, mem_addText]
    exact or_iff_left different
  rw [resolve, resolve, known]
  rfl

/--
A name is found in one tier only: in the module itself, or else in the first other module, or else
in the application.  Neither the order of the lists nor another spelling of the name matters, and a
new entity of the module matters for its own name only.
-/
theorem Sources.resolve_registry (sources : Sources) (name : String) :
    (∀ target, sources.registry.resolve name = target ↔
        sources.Finds (Text.studlyCase name) target) ∧
      (∀ other, sources.Rearranges other →
        other.registry.resolve name = sources.registry.resolve name) ∧
      sources.registry.resolve (sources.registry.resolve name).name =
        sources.registry.resolve name ∧
      ∀ entity, Text.studlyCase name ≠ Text.studlyCase entity →
        (sources.registry.addSibling entity).resolve name = sources.registry.resolve name := by
  refine ⟨fun target => ⟨?_, fun finds => (finds_resolve sources name).unique finds⟩,
    fun other same => (same.agrees.resolve name).symm, ?_,
    fun entity => resolve_addSibling_of_ne _⟩
  · rintro rfl
    exact finds_resolve sources name
  · rw [resolve_eq_iff, name_resolve, Text.studlyCase_studlyCase]

/-- Names for a blog; it lists a comment of its own, and two spellings of the shop. -/
def blogSources : Sources where
  module := "blog"
  siblings := ["post"]
  others := [("shop", ["order"]), ("Shop", ["tag", "invoice"]), ("blog", ["comment"]),
    ("archive", ["tag"])]
  application := ["user", "tag"]
  moduleNamespace := "Modules"
  applicationNamespace := "App\\Models"

theorem resolve_blogSources :
    blogSources.registry.resolve (blogSources.registry.resolve "comment").name =
        ⟨"Comment", .sibling "Blog" "Modules\\Blog\\Models\\Comment"⟩ ∧
      (Sources.registry { blogSources with others := blogSources.others.reverse }).resolve "tag" =
        ⟨"Tag", .neighbour "Archive" "Modules\\Archive\\Models\\Tag"⟩ ∧
      (blogSources.registry.addSibling "post").resolve "tag" =
        ⟨"Tag", .neighbour "Archive" "Modules\\Archive\\Models\\Tag"⟩ := by
  have reversed : blogSources.Rearranges { blogSources with others := blogSources.others.reverse } :=
    ⟨rfl, .refl _, ⟨_, (List.reverse_perm _).symm, List.forall₂_same.mpr fun _ _ => ⟨rfl, .refl _⟩⟩,
      .refl _, rfl, rfl⟩
  have found : blogSources.registry.resolve "tag" =
      ⟨"Tag", .neighbour "Archive" "Modules\\Archive\\Models\\Tag"⟩ := by
    have named : "Modules\\Archive\\Models\\Tag" =
        blogSources.registry.modelName "Tag" "Archive" := by decide +kernel
    have spelled : Text.studlyCase "tag" = "Tag" := by decide +kernel
    rw [(blogSources.resolve_registry "tag").1, spelled, named]
    refine .neighbour (by decide +kernel) (by decide +kernel) ?_
    rintro later ⟨-, pair, member, rfl, name, among, same⟩
    have all : ∀ pair ∈ blogSources.others, ∀ name ∈ pair.2,
        Text.studlyCase name = "Tag" → "Archive" ≤ Text.studlyCase pair.1 := by decide +kernel
    exact all pair member name among same
  refine ⟨?_, ?_, ?_⟩
  · rw [(blogSources.resolve_registry "comment").2.2.1]
    decide +kernel
  · rw [(blogSources.resolve_registry "tag").2.1 _ reversed, found]
  · rw [(blogSources.resolve_registry "tag").2.2.2 "post" (by decide +kernel), found]

end Registry

end Scaffold
