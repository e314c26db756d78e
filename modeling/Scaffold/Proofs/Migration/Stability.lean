import Scaffold.Proofs.Migration.KeyAssignment

/-!
# Why migrations leave the order of declaration

Descriptors are placed from one root after the other, in their order of declaration, and a root
places itself and descriptors that it leads to by foreign keys.  So every descriptor that is moved
before an earlier one is needed by a root that is declared no later than that one.  Nothing is moved
when foreign keys only point to tables that are declared before.
-/

namespace Scaffold.Migration

/-! ## Positions -/

/-- One descriptor of a list stands somewhere before another one. -/
def Precedes (descriptors : List Descriptor) (first second : Descriptor) : Prop :=
  ∃ i j : Nat, i < j ∧ descriptors[i]? = some first ∧ descriptors[j]? = some second

section

variable {descriptors : List Descriptor} {first second third : Descriptor}

theorem Precedes.mem (precedes : Precedes descriptors first second) :
    first ∈ descriptors ∧ second ∈ descriptors := by
  obtain ⟨i, j, _, atFirst, atSecond⟩ := precedes
  exact ⟨List.mem_of_getElem? atFirst, List.mem_of_getElem? atSecond⟩

/-- A list without repetitions has every member at one position. -/
theorem position_unique
    (nodup : descriptors.Nodup) {i j : Nat} (here : descriptors[i]? = some first)
    (there : descriptors[j]? = some first) :
    i = j := by
  obtain ⟨inside, _⟩ := List.getElem?_eq_some_iff.mp here
  exact (List.getElem?_inj inside nodup).mp (here.trans there.symm)

theorem Precedes.trans
    (nodup : descriptors.Nodup) (before : Precedes descriptors first second)
    (after : Precedes descriptors second third) :
    Precedes descriptors first third := by
  obtain ⟨i, j, less, atFirst, atSecond⟩ := before
  obtain ⟨k, l, more, again, atThird⟩ := after
  obtain rfl := position_unique nodup atSecond again
  exact ⟨i, l, less.trans more, atFirst, atThird⟩

theorem Precedes.asymm
    (nodup : descriptors.Nodup) (before : Precedes descriptors first second) :
    ¬ Precedes descriptors second first := by
  intro after
  obtain ⟨i, j, less, atFirst, _⟩ := before.trans nodup after
  exact Nat.ne_of_lt less (position_unique nodup atFirst (by assumption))

theorem precedes_or_precedes
    (firstMember : first ∈ descriptors) (secondMember : second ∈ descriptors)
    (different : first ≠ second) :
    Precedes descriptors first second ∨ Precedes descriptors second first := by
  obtain ⟨i, atFirst⟩ := List.mem_iff_getElem?.mp firstMember
  obtain ⟨j, atSecond⟩ := List.mem_iff_getElem?.mp secondMember
  rcases Nat.lt_trichotomy i j with less | rfl | more
  · exact .inl ⟨i, j, less, atFirst, atSecond⟩
  · exact absurd (Option.some.inj (atFirst.symm.trans atSecond)) different
  · exact .inr ⟨j, i, more, atSecond, atFirst⟩

theorem pairwise_precedes (descriptors : List Descriptor) :
    descriptors.Pairwise (Precedes descriptors) := by
  rw [List.pairwise_iff_getElem]
  intro i j insideFirst insideSecond less
  exact ⟨i, j, less, List.getElem?_eq_getElem insideFirst, List.getElem?_eq_getElem insideSecond⟩

/-- What stands before a member of the first part of a list belongs to that part. -/
theorem Precedes.mem_left
    {before after : List Descriptor} (nodup : (before ++ after).Nodup)
    (precedes : Precedes (before ++ after) first second) (member : second ∈ before) :
    first ∈ before := by
  obtain ⟨i, j, less, atFirst, atSecond⟩ := precedes
  obtain ⟨k, within⟩ := List.mem_iff_getElem?.mp member
  obtain ⟨inside, _⟩ := List.getElem?_eq_some_iff.mp within
  have further : (before ++ after)[k]? = some second := by
    rwa [List.getElem?_append_left inside]
  obtain rfl := position_unique nodup atSecond further
  rw [List.getElem?_append_left (less.trans inside)] at atFirst
  exact List.mem_of_getElem? atFirst

end

/-! ## What a root places -/

/-- Placing in turn adds what the single steps add. -/
theorem foldl_reaches
    {descriptors : List Descriptor} (step : Placement → Descriptor → Placement)
    {asked : List Descriptor}
    (reaches : ∀ descriptor ∈ asked, ∀ placement, ∀ other ∈ (step placement descriptor).ordered,
      other ∈ placement.ordered ∨ Relation.ReflTransGen (Constrains descriptors) descriptor other)
    (placement : Placement) :
    ∀ other ∈ (asked.foldl step placement).ordered, other ∈ placement.ordered ∨
      ∃ descriptor ∈ asked, Relation.ReflTransGen (Constrains descriptors) descriptor other := by
  induction asked generalizing placement with
  | nil => exact fun other member => .inl member
  | cons descriptor rest hypothesis =>
      intro other member
      have later := hypothesis (fun one among => reaches one (by simp [among]))
        (step placement descriptor) other member
      rcases later with first | ⟨root, among, leads⟩
      · exact (reaches descriptor (by simp) placement other first).imp_right fun leads =>
          ⟨descriptor, by simp, leads⟩
      · exact .inr ⟨root, by simp [among], leads⟩

/-- A root places itself and descriptors that it leads to. -/
theorem place_reaches
    {descriptors : List Descriptor} (fuel : Nat) (visiting : List String) (placement : Placement)
    {descriptor : Descriptor} (member : descriptor ∈ descriptors) :
    ∀ other ∈ (place descriptors fuel visiting placement descriptor).ordered,
      other ∈ placement.ordered ∨
        Relation.ReflTransGen (Constrains descriptors) descriptor other := by
  induction fuel generalizing visiting placement descriptor with
  | zero => exact fun other member => .inl member
  | succ fuel hypothesis =>
      rw [place]
      dsimp only
      split_ifs with known
      · exact fun other member => .inl member
      · intro other placed
        rcases List.mem_append.mp placed with before | last
        · have inner := foldl_reaches (place descriptors fuel (descriptor.table :: visiting))
            (fun target among placement => by
              obtain ⟨_, _, found⟩ := List.mem_filterMap.mp among
              exact hypothesis _ placement (ofTable?_mem found).1) placement other before
          refine inner.imp_right ?_
          rintro ⟨target, among, leads⟩
          obtain ⟨table, referenced, found⟩ := List.mem_filterMap.mp among
          obtain ⟨targetMember, rfl⟩ := ofTable?_mem found
          exact .head ⟨member, targetMember, mem_referencedTables_iff.mp referenced⟩ leads
        · rw [List.mem_singleton.mp last]
          exact .inr .refl

/-- The first roots place themselves and descriptors that they lead to, in front of all others. -/
theorem exists_placed_first
    {descriptors : List Descriptor} (distinct : DistinctTables descriptors) (count : Nat) :
    ∃ early rest, order descriptors = early ++ rest ∧
      (∀ root ∈ descriptors.take count, root ∈ early) ∧
        ∀ other ∈ early, ∃ root ∈ descriptors.take count,
          Relation.ReflTransGen (Constrains descriptors) root other := by
  let step := place descriptors (descriptors.length + 1) []
  let early := (descriptors.take count).foldl step {}
  have split : order descriptors = ((descriptors.drop count).foldl step early).ordered := by
    rw [← List.foldl_append, List.take_append_drop]
    rfl
  have nothing : Placement.IsSettled descriptors {} :=
    ⟨⟨by simp, by simp, by simp [DistinctTables]⟩, by simp⟩
  have stage := roots_extend distinct (List.take_subset count descriptors) nothing
  have later := roots_extend distinct (List.drop_subset count descriptors) stage.isSettled
  obtain ⟨rest, whole⟩ := later.ordered
  refine ⟨early.ordered, rest, split.trans whole.symm, ?_, ?_⟩
  · intro root among
    exact (stage.placed root among).resolve_left (by simp)
  · intro other member
    have reached := foldl_reaches step
      (fun descriptor among placement =>
        place_reaches _ _ placement (List.take_subset count descriptors among))
      {} other member
    exact reached.resolve_left (by simp)

/-! ## Inversions -/

/-- A descriptor that is moved before an earlier one is needed by a root no later than that one. -/
theorem exists_root_of_inversion
    {descriptors : List Descriptor} (distinct : DistinctTables descriptors)
    {first second : Descriptor} (declared : Precedes descriptors first second)
    (moved : Precedes (order descriptors) second first) :
    ∃ root, (root = first ∨ Precedes descriptors root first) ∧
      LeadsTo descriptors root second := by
  have nodup : descriptors.Nodup := .of_map _ distinct
  obtain ⟨i, j, less, atFirst, atSecond⟩ := declared
  -- The second one stands before the first, so a root up to the first has placed it.
  obtain ⟨early, rest, split, placed, reached⟩ := exists_placed_first distinct (i + 1)
  have within : (descriptors.take (i + 1))[i]? = some first := by
    rw [List.getElem?_take_of_lt (Nat.lt_succ_self i)]
    exact atFirst
  have orderNodup : (order descriptors).Nodup := (order_perm distinct).nodup_iff.mpr nodup
  rw [split] at moved orderNodup
  have secondPlaced : second ∈ early :=
    moved.mem_left orderNodup (placed first (List.mem_of_getElem? within))
  obtain ⟨root, among, leads⟩ := reached second secondPlaced
  obtain ⟨k, atRoot⟩ := List.mem_iff_getElem?.mp among
  rw [List.getElem?_take] at atRoot
  split_ifs at atRoot with near
  refine ⟨root, ?_, ?_⟩
  · rcases Nat.lt_or_eq_of_le (Nat.le_of_lt_succ near) with before | rfl
    · exact .inr ⟨k, i, before, atRoot, atFirst⟩
    · exact .inl (Option.some.inj (atRoot.symm.trans atFirst))
  · rcases Relation.reflTransGen_iff_eq_or_transGen.mp leads with rfl | more
    · have same := position_unique nodup atSecond atRoot
      omega
    · exact more

/-- Foreign keys that point back lead back. -/
theorem precedes_of_leadsTo
    {descriptors : List Descriptor} (nodup : descriptors.Nodup)
    (back : ∀ source target, Constrains descriptors source target → source ≠ target →
      Precedes descriptors target source)
    {source target : Descriptor} (leads : LeadsTo descriptors source target) :
    target = source ∨ Precedes descriptors target source := by
  induction leads with
  | single constrains =>
      exact or_iff_not_imp_left.mpr fun different => back _ _ constrains (Ne.symm different)
  | @tail middle last _ constrains hypothesis =>
      by_cases same : middle = last
      · rwa [← same]
      · have before := back _ _ constrains same
        rcases hypothesis with rfl | between
        · exact .inr before
        · exact .inr (before.trans nodup between)

/-- Nothing is moved when all foreign keys point back. -/
theorem not_inverted_of_back
    {descriptors : List Descriptor} (distinct : DistinctTables descriptors)
    (back : ∀ source target, Constrains descriptors source target → source ≠ target →
      Precedes descriptors target source)
    {first second : Descriptor} (declared : Precedes descriptors first second) :
    ¬ Precedes (order descriptors) second first := by
  intro moved
  have nodup : descriptors.Nodup := .of_map _ distinct
  -- The root would stand before the later one and lead back to it.
  obtain ⟨root, early, leads⟩ := exists_root_of_inversion distinct declared moved
  have before : Precedes descriptors root second := by
    rcases early with rfl | earlier
    · exact declared
    · exact earlier.trans nodup declared
  rcases precedes_of_leadsTo nodup back leads with rfl | behind
  · exact before.asymm nodup before
  · exact before.asymm nodup behind

theorem order_eq_of_back
    {descriptors : List Descriptor} (distinct : DistinctTables descriptors)
    (back : ∀ source target, Constrains descriptors source target → source ≠ target →
      Precedes descriptors target source) :
    order descriptors = descriptors := by
  have nodup : descriptors.Nodup := .of_map _ distinct
  have permuted := order_perm distinct
  have orderNodup : (order descriptors).Nodup := permuted.nodup_iff.mpr nodup
  have kept : (order descriptors).Pairwise (Precedes descriptors) := by
    refine ((pairwise_precedes (order descriptors)).and orderNodup).imp ?_
    rintro first second ⟨moved, different⟩
    have firstMember := permuted.mem_iff.mp moved.mem.1
    have secondMember := permuted.mem_iff.mp moved.mem.2
    apply (precedes_or_precedes firstMember secondMember different).resolve_right
    intro declared
    exact not_inverted_of_back distinct back declared moved
  apply permuted.eq_of_pairwise _ kept (pairwise_precedes descriptors)
  intro first second _ _ before after
  exact absurd after (before.asymm nodup)

/--
The order of migrations is the order of declaration when every foreign key points back or to its own
table.  A descriptor comes before one that is declared earlier only if a descriptor that is declared
no later than that one leads to it.
-/
theorem order_keeps_declaration
    {descriptors : List Descriptor} (distinct : DistinctTables descriptors) :
    ((∀ source target, Constrains descriptors source target → source.table ≠ target.table →
        Precedes descriptors target source) →
      order descriptors = descriptors) ∧
    ∀ first second, Precedes descriptors first second →
      Precedes (order descriptors) second first →
        ∃ root, (root = first ∨ Precedes descriptors root first) ∧
          LeadsTo descriptors root second := by
  constructor
  · intro back
    apply order_eq_of_back distinct
    intro source target constrains different
    apply back source target constrains
    intro same
    exact different (distinct.eq_of_table_eq constrains.1 constrains.2.1 same)
  · intro first second
    exact exists_root_of_inversion distinct

/-- A comment pulls the posts before an unrelated note; users that are declared first stay first. -/
theorem order_keeps_declaration_posts :
    order [sketch "User" "users" [], sketch "Post" "posts" ["posts", "users"]] =
        [sketch "User" "users" [], sketch "Post" "posts" ["posts", "users"]] ∧
      ∃ root,
        (root = sketch "Note" "notes" [] ∨
          Precedes [sketch "Comment" "comments" ["posts"], sketch "Note" "notes" [],
            sketch "Post" "posts" []] root (sketch "Note" "notes" [])) ∧
          LeadsTo [sketch "Comment" "comments" ["posts"], sketch "Note" "notes" [],
            sketch "Post" "posts" []] root (sketch "Post" "posts" []) := by
  constructor
  · apply (order_keeps_declaration (by unfold DistinctTables; decide)).1
    rintro source target ⟨sourceMember, targetMember, attr, attrMember, _, points⟩ different
    simp only [List.mem_cons, List.not_mem_nil, or_false] at sourceMember targetMember
    rcases sourceMember with rfl | rfl
    · simp [sketch] at attrMember
    · rcases targetMember with rfl | rfl
      · exact ⟨0, 1, by decide, rfl, rfl⟩
      · exact absurd rfl different
  · exact (order_keeps_declaration (by unfold DistinctTables; decide)).2
      (sketch "Note" "notes" []) (sketch "Post" "posts" [])
      ⟨1, 2, by decide, rfl, rfl⟩ ⟨0, 2, by decide, rfl, rfl⟩

end Scaffold.Migration
