import Mathlib.Data.List.Perm.Lattice
import Mathlib.Logic.Relation
import Scaffold.Migration.Order

/-!
# The order in which tables are created

The order of migrations is a permutation of the descriptors, whatever their foreign keys point to.
A table that a foreign key points to comes before the table of the key, unless it leads back there by
foreign keys of its own.
-/

namespace Scaffold.Migration

/-- A foreign key of a descriptor points to the table of another descriptor, or to its own. -/
def Constrains (descriptors : List Descriptor) (source target : Descriptor) : Prop :=
  source ∈ descriptors ∧ target ∈ descriptors ∧
    ∃ attr ∈ source.attributes, attr.type.isForeignKey = true ∧ attr.on = some target.table

/-- A descriptor leads to another one by one or more foreign keys. -/
def LeadsTo (descriptors : List Descriptor) : Descriptor → Descriptor → Prop :=
  Relation.TransGen (Constrains descriptors)

/-- No two descriptors share a table. -/
def DistinctTables (descriptors : List Descriptor) : Prop :=
  (descriptors.map (·.table)).Nodup

theorem mem_referencedTables_iff {descriptor : Descriptor} {table : String} :
    table ∈ descriptor.referencedTables ↔
      ∃ attr ∈ descriptor.attributes, attr.type.isForeignKey = true ∧ attr.on = some table := by
  simp [Descriptor.referencedTables, List.mem_filterMap]

theorem DistinctTables.eq_of_table_eq
    {descriptors : List Descriptor} (distinct : DistinctTables descriptors)
    {left right : Descriptor} (leftMember : left ∈ descriptors) (rightMember : right ∈ descriptors)
    (same : left.table = right.table) :
    left = right :=
  List.inj_on_of_nodup_map distinct leftMember rightMember same

theorem ofTable?_mem
    {descriptors : List Descriptor} {table : String} {descriptor : Descriptor}
    (found : ofTable? descriptors table = some descriptor) :
    descriptor ∈ descriptors ∧ descriptor.table = table := by
  have member := List.mem_of_find?_eq_some found
  have test := List.find?_some found
  exact ⟨List.mem_reverse.mp member, by simpa using test⟩

/-- A descriptor is found by its table, which is no other's. -/
theorem ofTable?_table
    {descriptors : List Descriptor} (distinct : DistinctTables descriptors)
    {descriptor : Descriptor} (member : descriptor ∈ descriptors) :
    ofTable? descriptors descriptor.table = some descriptor := by
  cases found : ofTable? descriptors descriptor.table with
  | none =>
      have absent := List.find?_eq_none.mp found descriptor (List.mem_reverse.mpr member)
      simp at absent
  | some other =>
      obtain ⟨otherMember, same⟩ := ofTable?_mem found
      rw [distinct.eq_of_table_eq otherMember member same]

/-- The descriptors that are placed before a descriptor are those that it constrains. -/
theorem mem_targets_iff
    {descriptors : List Descriptor} (distinct : DistinctTables descriptors)
    {source : Descriptor} (member : source ∈ descriptors) (target : Descriptor) :
    target ∈ source.referencedTables.filterMap (ofTable? descriptors) ↔
      Constrains descriptors source target := by
  rw [List.mem_filterMap]
  constructor
  · rintro ⟨table, referenced, found⟩
    obtain ⟨targetMember, rfl⟩ := ofTable?_mem found
    exact ⟨member, targetMember, mem_referencedTables_iff.mp referenced⟩
  · rintro ⟨_, targetMember, referenced⟩
    exact ⟨target.table, mem_referencedTables_iff.mpr referenced,
      ofTable?_table distinct targetMember⟩

/-! ## Placing -/

/-- Every table is placed once at most. -/
structure Placement.IsOrderly (descriptors : List Descriptor) (placement : Placement) : Prop where
  tables : ∀ table, table ∈ placement.placed ↔ table ∈ placement.ordered.map (·.table)
  among : ∀ descriptor ∈ placement.ordered, descriptor ∈ descriptors
  distinct : DistinctTables placement.ordered

/-- Every placed descriptor stands after those that it constrains and that do not lead back to it. -/
structure Placement.IsSettled (descriptors : List Descriptor) (placement : Placement) : Prop
    extends IsOrderly descriptors placement where
  settled :
    ∀ before descriptor after, placement.ordered = before ++ descriptor :: after →
      ∀ target, Constrains descriptors descriptor target →
        target ∈ before ∨ LeadsTo descriptors target descriptor

/-- What placing one descriptor, or several in turn, achieves. -/
structure Placement.Extends
    (descriptors : List Descriptor) (visiting : List String) (asked : List Descriptor)
    (before after : Placement) : Prop where
  isSettled : after.IsSettled descriptors
  ordered : before.ordered <+: after.ordered
  untouched : ∀ table ∈ visiting, table ∉ after.placed
  placed : ∀ descriptor ∈ asked, descriptor.table ∈ visiting ∨ descriptor ∈ after.ordered

/-- A descriptor may be placed while tables that all lead to it are being placed. -/
structure Placement.Admits
    (descriptors : List Descriptor) (visiting : List String) (placement : Placement) : Prop where
  isSettled : placement.IsSettled descriptors
  distinct : visiting.Nodup
  among : visiting ⊆ descriptors.map (·.table)
  untouched : ∀ table ∈ visiting, table ∉ placement.placed

namespace Placement

theorem IsOrderly.append
    {descriptors : List Descriptor} {placement : Placement} {descriptor : Descriptor}
    (isOrderly : placement.IsOrderly descriptors) (member : descriptor ∈ descriptors)
    (new : descriptor.table ∉ placement.placed) :
    IsOrderly descriptors
      ⟨placement.ordered ++ [descriptor], descriptor.table :: placement.placed⟩ where
  tables table := by
    simp only [List.mem_cons, isOrderly.tables table, List.map_append, List.mem_append,
      List.map_cons, List.map_nil, List.not_mem_nil, or_false]
    exact Or.comm
  among other otherMember := by
    rcases List.mem_append.mp otherMember with old | last
    · exact isOrderly.among other old
    · rw [List.mem_singleton.mp last]
      exact member
  distinct := by
    have fresh : descriptor.table ∉ placement.ordered.map (·.table) := fun old =>
      new ((isOrderly.tables _).mpr old)
    have distinct := isOrderly.distinct
    unfold DistinctTables at distinct ⊢
    rw [List.map_append, List.nodup_append]
    refine ⟨distinct, by simp, fun table old other last same => fresh ?_⟩
    rw [List.map_singleton, List.mem_singleton] at last
    rw [← last, ← same]
    exact old

/-- Putting a descriptor last keeps a placement settled. -/
theorem IsSettled.append
    {descriptors : List Descriptor} {placement : Placement} {descriptor : Descriptor}
    (isSettled : placement.IsSettled descriptors) (member : descriptor ∈ descriptors)
    (new : descriptor.table ∉ placement.placed)
    (targets : ∀ target, Constrains descriptors descriptor target →
      target ∈ placement.ordered ∨ LeadsTo descriptors target descriptor) :
    IsSettled descriptors
      ⟨placement.ordered ++ [descriptor], descriptor.table :: placement.placed⟩ where
  toIsOrderly := isSettled.toIsOrderly.append member new
  settled before other after split target constrains := by
    rcases List.eq_nil_or_concat after with rfl | ⟨others, last, rfl⟩
    · obtain ⟨rfl, sameLast⟩ := List.append_inj' split rfl
      cases sameLast
      exact targets target constrains
    · have regrouped : placement.ordered ++ [descriptor] = (before ++ other :: others) ++ [last] := by
        simpa using split
      obtain ⟨ordered, _⟩ := List.append_inj' regrouped rfl
      exact isSettled.settled before other others ordered target constrains

/-- Fewer tables are being placed than there are descriptors, or as many. -/
theorem Admits.length_le
    {descriptors : List Descriptor} {visiting : List String} {placement : Placement}
    (admits : placement.Admits descriptors visiting) :
    visiting.length ≤ descriptors.length := by
  simpa using List.Nodup.length_le_of_subset admits.distinct admits.among

/-- Placing several descriptors in turn, each of which is placed as it should be. -/
theorem Extends.foldl
    {descriptors : List Descriptor} {visiting : List String}
    (step : Placement → Descriptor → Placement)
    (placing : ∀ placement : Placement, placement.Admits descriptors visiting →
      ∀ descriptor ∈ descriptors,
        (∀ source ∈ descriptors, source.table ∈ visiting → LeadsTo descriptors source descriptor) →
          Extends descriptors visiting [descriptor] placement (step placement descriptor))
    {asked : List Descriptor} (among : ∀ descriptor ∈ asked, descriptor ∈ descriptors)
    (leads : ∀ descriptor ∈ asked, ∀ source ∈ descriptors, source.table ∈ visiting →
      LeadsTo descriptors source descriptor)
    {placement : Placement} (admits : placement.Admits descriptors visiting) :
    Extends descriptors visiting asked placement (asked.foldl step placement) := by
  induction asked generalizing placement with
  | nil =>
      exact ⟨admits.isSettled, List.prefix_refl _, admits.untouched, by simp⟩
  | cons descriptor rest hypothesis =>
      have first := placing placement admits descriptor (among descriptor (by simp))
        (leads descriptor (by simp))
      have others := hypothesis (fun other member => among other (by simp [member]))
        (fun other member => leads other (by simp [member]))
        ⟨first.isSettled, admits.distinct, admits.among, first.untouched⟩
      refine ⟨others.isSettled, first.ordered.trans others.ordered, others.untouched, ?_⟩
      intro other member
      rcases List.mem_cons.mp member with rfl | later
      · exact (first.placed other (by simp)).imp_right fun early => others.ordered.subset early
      · exact others.placed other later

end Placement

/-- Placing keeps a placement orderly and leaves out the tables that are being placed. -/
theorem place_isOrderly
    {descriptors : List Descriptor} (fuel : Nat) {visiting : List String} {placement : Placement}
    (isOrderly : placement.IsOrderly descriptors) {descriptor : Descriptor}
    (member : descriptor ∈ descriptors) :
    (place descriptors fuel visiting placement descriptor).IsOrderly descriptors ∧
      ∀ table ∈ visiting, table ∉ placement.placed →
        table ∉ (place descriptors fuel visiting placement descriptor).placed := by
  induction fuel generalizing visiting placement descriptor with
  | zero => exact ⟨isOrderly, fun _ _ => id⟩
  | succ fuel hypothesis =>
      have several (visiting : List String) (asked : List Descriptor)
          (among : ∀ other ∈ asked, other ∈ descriptors) (before : Placement)
          (orderly : before.IsOrderly descriptors) :
          (asked.foldl (place descriptors fuel visiting) before).IsOrderly descriptors ∧
            ∀ table ∈ visiting, table ∉ before.placed →
              table ∉ (asked.foldl (place descriptors fuel visiting) before).placed := by
        induction asked generalizing before with
        | nil => exact ⟨orderly, fun _ _ => id⟩
        | cons other rest others =>
            obtain ⟨first, apart⟩ :=
              @hypothesis visiting _ orderly _ (among other (by simp))
            obtain ⟨last, apartRest⟩ :=
              others (fun one among' => among one (by simp [among'])) _ first
            exact ⟨last, fun table visited new => apartRest table visited (apart table visited new)⟩
      rw [place]
      simp only [Bool.or_eq_true, List.contains_iff_mem]
      split_ifs with known
      · exact ⟨isOrderly, fun _ _ => id⟩
      · obtain ⟨notPlaced, notVisited⟩ := not_or.mp known
        obtain ⟨inner, apart⟩ := several (descriptor.table :: visiting)
          (descriptor.referencedTables.filterMap (ofTable? descriptors)) (fun other among => by
            obtain ⟨table, _, found⟩ := List.mem_filterMap.mp among
            exact (ofTable?_mem found).1) placement isOrderly
        refine ⟨inner.append member (apart _ (by simp) notPlaced), fun table visited new placed => ?_⟩
        rcases List.mem_cons.mp placed with rfl | old
        · exact notVisited visited
        · exact apart table (by simp [visited]) new old

/-- The order of migrations names every table once at most, whatever the descriptors are. -/
theorem order_isOrderly (descriptors : List Descriptor) :
    DistinctTables (order descriptors) ∧ order descriptors ⊆ descriptors := by
  have several (asked : List Descriptor) (among : asked ⊆ descriptors) (before : Placement)
      (orderly : before.IsOrderly descriptors) :
      (asked.foldl (place descriptors (descriptors.length + 1) []) before).IsOrderly
        descriptors := by
    induction asked generalizing before with
    | nil => exact orderly
    | cons descriptor rest hypothesis =>
        obtain ⟨member, others⟩ := List.cons_subset.mp among
        exact hypothesis others _ (place_isOrderly _ orderly member).1
  have whole := several descriptors (List.Subset.refl _) {}
    ⟨by simp, by simp, by simp [DistinctTables]⟩
  exact ⟨whole.distinct, fun descriptor member => whole.among descriptor member⟩

/-- Placing a descriptor with enough fuel for all tables that are not yet being placed. -/
theorem place_spec
    {descriptors : List Descriptor} (distinct : DistinctTables descriptors) (fuel : Nat)
    {visiting : List String} (enough : descriptors.length < fuel + visiting.length)
    {placement : Placement} (admits : placement.Admits descriptors visiting)
    {descriptor : Descriptor} (member : descriptor ∈ descriptors)
    (leads : ∀ source ∈ descriptors, source.table ∈ visiting →
      LeadsTo descriptors source descriptor) :
    Placement.Extends descriptors visiting [descriptor] placement
      (place descriptors fuel visiting placement descriptor) := by
  induction fuel generalizing visiting placement descriptor with
  | zero =>
      have bound := admits.length_le
      omega
  | succ fuel hypothesis =>
      rw [place]
      simp only [Bool.or_eq_true, List.contains_iff_mem]
      split_ifs with known
      · refine ⟨admits.isSettled, List.prefix_refl _, admits.untouched, ?_⟩
        intro other same
        rw [List.mem_singleton.mp same]
        rcases known with placed | visited
        · obtain ⟨early, earlyMember, sameTable⟩ :=
            List.mem_map.mp ((admits.isSettled.tables _).mp placed)
          have sameDescriptor := distinct.eq_of_table_eq
            (admits.isSettled.among early earlyMember) member sameTable
          exact .inr (sameDescriptor ▸ earlyMember)
        · exact .inl visited
      · obtain ⟨notPlaced, notVisited⟩ := not_or.mp known
        have targetsIff {target : Descriptor} := mem_targets_iff distinct member target
        have innerAdmits : placement.Admits descriptors (descriptor.table :: visiting) := by
          refine ⟨admits.isSettled, List.nodup_cons.mpr ⟨notVisited, admits.distinct⟩, ?_, ?_⟩
          · exact List.cons_subset.mpr ⟨List.mem_map_of_mem member, admits.among⟩
          · intro table among
            rcases List.mem_cons.mp among with rfl | old
            · exact notPlaced
            · exact admits.untouched table old
        -- Whatever is being placed leads to the descriptor, and so to each of its targets.
        have innerLeads : ∀ target, Constrains descriptors descriptor target →
            ∀ source ∈ descriptors, source.table ∈ descriptor.table :: visiting →
              LeadsTo descriptors source target := by
          intro target constrains source sourceMember visited
          rcases List.mem_cons.mp visited with same | old
          · rw [distinct.eq_of_table_eq sourceMember member same]
            exact .single constrains
          · exact (leads source sourceMember old).tail constrains
        have inner := Placement.Extends.foldl
          (place descriptors fuel (descriptor.table :: visiting))
          (fun placement admits other otherMember otherLeads =>
            hypothesis (by simp only [List.length_cons]; omega) admits otherMember otherLeads)
          (fun target among => (targetsIff.mp among).2.1)
          (fun target among => innerLeads target (targetsIff.mp among)) innerAdmits
        have targetsBefore : ∀ target, Constrains descriptors descriptor target →
            target ∈ (List.foldl (place descriptors fuel (descriptor.table :: visiting)) placement
              (descriptor.referencedTables.filterMap (ofTable? descriptors))).ordered ∨
              LeadsTo descriptors target descriptor := by
          intro target constrains
          rcases inner.placed target (targetsIff.mpr constrains) with visited | before
          · rcases List.mem_cons.mp visited with same | old
            · obtain rfl := distinct.eq_of_table_eq constrains.2.1 member same
              exact .inr (.single constrains)
            · exact .inr (leads target constrains.2.1 old)
          · exact .inl before
        refine ⟨inner.isSettled.append member (inner.untouched _ (by simp)) targetsBefore,
          inner.ordered.trans (List.prefix_append _ _), ?_, by simp⟩
        intro table visited placed
        rcases List.mem_cons.mp placed with rfl | old
        · exact notVisited visited
        · exact inner.untouched table (by simp [visited]) old

/-- What placing roots in turn achieves. -/
theorem roots_extend
    {descriptors : List Descriptor} (distinct : DistinctTables descriptors)
    {roots : List Descriptor} (among : roots ⊆ descriptors) {placement : Placement}
    (isSettled : placement.IsSettled descriptors) :
    Placement.Extends descriptors [] roots placement
      (roots.foldl (place descriptors (descriptors.length + 1) []) placement) := by
  refine Placement.Extends.foldl _ ?_ (fun _ member => among member) (by simp) ?_
  · intro placement admits descriptor member leads
    exact place_spec distinct _ (by simp) admits member leads
  · exact ⟨isSettled, .nil, by simp, by simp⟩

/-- What ordering all descriptors achieves. -/
theorem order_extends
    {descriptors : List Descriptor} (distinct : DistinctTables descriptors) :
    Placement.Extends descriptors [] descriptors {}
      (descriptors.foldl (place descriptors (descriptors.length + 1) []) {}) :=
  roots_extend distinct (List.Subset.refl _)
    ⟨⟨by simp, by simp, by simp [DistinctTables]⟩, by simp⟩

/-- The order of migrations is a permutation of the descriptors. -/
theorem order_perm
    {descriptors : List Descriptor} (distinct : DistinctTables descriptors) :
    (order descriptors).Perm descriptors := by
  have extended := order_extends distinct
  have orderedNodup : (order descriptors).Nodup := .of_map _ extended.isSettled.distinct
  have givenNodup : descriptors.Nodup := .of_map _ distinct
  refine (List.perm_ext_iff_of_nodup orderedNodup givenNodup).mpr fun descriptor => ?_
  constructor
  · exact extended.isSettled.among descriptor
  · intro member
    exact (extended.placed descriptor member).resolve_left (by simp)

/-- The order of migrations leaves a descriptor out exactly when two share a table. -/
theorem subset_order_iff
    {descriptors : List Descriptor} (distinct : (descriptors.map (·.entity)).Nodup) :
    descriptors ⊆ order descriptors ↔ DistinctTables descriptors := by
  constructor
  · intro all
    have nodup : descriptors.Nodup := .of_map _ distinct
    apply nodup.map_on
    intro first member second otherMember same
    exact (order_isOrderly descriptors).1.eq_of_table_eq (all member) (all otherMember) same
  · intro tables descriptor member
    exact (order_perm tables).mem_iff.mpr member

theorem place_ordered
    (descriptors : List Descriptor) (fuel : Nat) (visiting : List String) (placement : Placement)
    (descriptor : Descriptor) :
    (place descriptors fuel visiting placement descriptor).ordered = placement.ordered ∨
      ∃ before, (place descriptors fuel visiting placement descriptor).ordered =
        before ++ [descriptor] := by
  cases fuel with
  | zero => exact .inl rfl
  | succ fuel =>
      rw [place]
      dsimp only
      split_ifs
      · exact .inl rfl
      · exact .inr ⟨_, rfl⟩

/-- The first descriptor is not left out. -/
theorem order_ne_nil
    {descriptors : List Descriptor} (some : descriptors ≠ []) : order descriptors ≠ [] := by
  have several (asked : List Descriptor) (before : Placement) (placed : before.ordered ≠ []) :
      (asked.foldl (place descriptors (descriptors.length + 1) []) before).ordered ≠ [] := by
    induction asked generalizing before with
    | nil => exact placed
    | cons descriptor rest hypothesis =>
        apply hypothesis
        rcases place_ordered descriptors (descriptors.length + 1) [] before descriptor with
          same | ⟨others, last⟩
        · rwa [same]
        · rw [last]
          exact List.append_ne_nil_of_right_ne_nil _ (List.cons_ne_nil _ _)
  obtain ⟨first, rest, shape⟩ := List.exists_cons_of_ne_nil some
  have step : order descriptors = (rest.foldl (place descriptors (descriptors.length + 1) [])
      (place descriptors (descriptors.length + 1) [] {} first)).ordered := by
    rw [order]
    conv_lhs => rw [shape, List.foldl_cons, ← shape]
  rw [step]
  apply several
  rw [place]
  exact List.append_ne_nil_of_right_ne_nil _ (List.cons_ne_nil _ _)

/-- A table that a foreign key points to is created first, unless it leads back. -/
theorem order_settled
    {descriptors : List Descriptor} (distinct : DistinctTables descriptors)
    {before after : List Descriptor} {source : Descriptor}
    (split : order descriptors = before ++ source :: after) {target : Descriptor}
    (constrains : Constrains descriptors source target) :
    target ∈ before ∨ LeadsTo descriptors target source :=
  (order_extends distinct).isSettled.settled before source after split target constrains

end Scaffold.Migration
