import Mathlib.Data.List.Perm.Basic
import Scaffold.Proofs.Factory.ForeignTarget
import Scaffold.Proofs.Keyed
import Scaffold.Proofs.Module.Isolation
import Scaffold.Proofs.Schema.Creation

/-!
# Factory expressions and the order of declaration

A column and a constraint of it may share a name, and then both of them may be filled.  The one that
is declared later gives the expression of the name.  So the expressions of an accepted schema do not
depend on the order of its attributes, except where a column and its constraint are filled in two
ways: the expression of that name stays the same exactly when the order of the two does.
-/

namespace Scaffold

namespace Factory

variable {registry : Registry} {relations : List Relation} {attributes others : List Attribute}

/-- What fills an attribute, if anything does. -/
def filling? (registry : Registry) (relations : List Relation) (attr : Attribute) :
    Option FactoryExpression :=
  (expression? registry relations attr).toOption.join

/-- The attributes of a name that are filled, in the order of their declaration. -/
def filled (registry : Registry) (relations : List Relation) (attributes : List Attribute)
    (name : String) : List Attribute :=
  attributes.filter fun attr =>
    attr.name == name && (filling? registry relations attr).isSome

/-- A column and a constraint of one name are filled in two ways. -/
structure IsContested (registry : Registry) (relations : List Relation)
    (column constraint : Attribute) : Prop where
  name : column.name = constraint.name
  isColumn : column.type ≠ .foreign
  isConstraint : constraint.type = .foreign
  fillings : ∃ left right, filling? registry relations column = some left ∧
    filling? registry relations constraint = some right ∧ left ≠ right

/-! ## The last of a name -/

theorem mem_filled_iff {attr : Attribute} {name : String} :
    attr ∈ filled registry relations attributes name ↔
      attr ∈ attributes ∧ attr.name = name ∧
        ∃ filling, filling? registry relations attr = some filling := by
  rw [filled, List.mem_filter, Bool.and_eq_true, beq_iff_eq, Option.isSome_iff_exists]

/-- The last attribute of a name that is filled gives the expression of the name. -/
theorem get?_expressions
    {found result : Keyed FactoryExpression}
    (resolved : expressions registry relations attributes found = .ok result) (name : String) :
    result.get? name =
      ((filled registry relations attributes name).getLast?.bind
        (filling? registry relations)).or (found.get? name) := by
  induction attributes generalizing found with
  | nil =>
      obtain rfl := Except.ok.inj resolved
      rfl
  | cons attr rest hypothesis =>
      rw [expressions] at resolved
      cases first : expression? registry relations attr with
      | error error =>
          rw [first] at resolved
          cases resolved
      | ok filling =>
          rw [first] at resolved
          have own : filling? registry relations attr = filling := by
            rw [filling?, first]
            rfl
          cases filling with
          | none =>
              have same : filled registry relations (attr :: rest) name =
                  filled registry relations rest name := by
                rw [filled, List.filter_cons_of_neg (by simp [own])]
                rfl
              rw [same]
              exact hypothesis resolved
          | some expression =>
              rw [hypothesis resolved, Keyed.get?_put]
              split_ifs with here
              · have more : filled registry relations (attr :: rest) name =
                    attr :: filled registry relations rest name := by
                  rw [filled, List.filter_cons_of_pos (by simp [own, here])]
                  rfl
                rw [more, List.getLast?_cons]
                cases last : (filled registry relations rest name).getLast? with
                | none => simp [own]
                | some other =>
                    obtain ⟨-, -, filling, has⟩ := mem_filled_iff.mp (List.mem_of_getLast? last)
                    simp [has]
              · have same : filled registry relations (attr :: rest) name =
                    filled registry relations rest name := by
                  rw [filled, List.filter_cons_of_neg (by simp [here])]
                  rfl
                rw [same]

/-! ## Attributes of one name -/

/-- A pair of times is left to the framework. -/
theorem filling?_eq_none_of_pair {attr : Attribute} (pair : attr.type.creation = .pair) :
    filling? registry relations attr = none := by
  have skipped : isSkipped attr = true := by
    simp [isSkipped, (ColumnType.isTimestampPair_iff _).mpr pair]
  rw [filling?, expression?, if_pos skipped]
  rfl

theorem creation_eq_constraint_iff {attr : Attribute} :
    attr.type.creation = .constraint ↔ attr.type = .foreign := by
  rw [← ColumnType.isForeign_iff, beq_iff_eq]

/-- Of two filled attributes of one name, one is a column and the other one constrains it. -/
theorem filled_pairwise
    (distinct : Schema.firstRepeated? [] [] attributes = none) (name : String) :
    (filled registry relations attributes name).Pairwise fun first second =>
      (first.type = .foreign ↔ second.type ≠ .foreign) := by
  have apart := (Schema.groups_apart_of_firstRepeated? distinct).1.filter
    fun attr => attr.name == name && (filling? registry relations attr).isSome
  refine apart.imp_of_mem fun {first second} here there differ => ?_
  obtain ⟨-, rfl, filling, fills⟩ := mem_filled_iff.mp here
  obtain ⟨-, same, fillingToo, fillsToo⟩ := mem_filled_iff.mp there
  have notShared : ¬ first.SharesGroup second := fun shared => differ shared same.symm
  have notPair : first.type.creation ≠ .pair := fun pair => by
    rw [filling?_eq_none_of_pair pair] at fills
    cases fills
  have notPairToo : second.type.creation ≠ .pair := fun pair => by
    rw [filling?_eq_none_of_pair pair] at fillsToo
    cases fillsToo
  rw [Attribute.SharesGroup, Attribute.TakesName, Attribute.TakesName] at notShared
  rw [← creation_eq_constraint_iff, ne_eq, ← creation_eq_constraint_iff]
  cases one : first.type.creation <;> cases two : second.type.creation <;> simp_all

/-- A name is filled by no attribute, by one, or by a column and its constraint in some order. -/
theorem filled_cases
    (distinct : Schema.firstRepeated? [] [] attributes = none) (name : String) :
    (filled registry relations attributes name).length ≤ 1 ∨
      ∃ first second, filled registry relations attributes name = [first, second] ∧
        (first.type = .foreign ↔ second.type ≠ .foreign) := by
  have apart : (filled registry relations attributes name).Pairwise _ :=
    filled_pairwise distinct name
  match filled registry relations attributes name, apart with
  | [], _ => exact .inl (by simp)
  | [attr], _ => exact .inl (by simp)
  | [first, second], apart =>
      exact .inr ⟨first, second, rfl, (List.pairwise_cons.mp apart).1 second List.mem_cons_self⟩
  | first :: second :: third :: rest, apart =>
      -- Three attributes cannot all differ in whether they constrain the column.
      obtain ⟨here, there⟩ := List.pairwise_cons.mp apart
      have one := here second (by simp)
      have two := here third (by simp)
      have three := (List.pairwise_cons.mp there).1 third (by simp)
      tauto

theorem length_filled_le
    (distinct : Schema.firstRepeated? [] [] attributes = none) (name : String) :
    (filled registry relations attributes name).length ≤ 2 := by
  have cases : (filled registry relations attributes name).length ≤ 1 ∨ _ :=
    filled_cases distinct name
  rcases cases with short | ⟨first, second, two, -⟩
  · exact short.trans (by decide)
  · rw [two]
    rfl

/-- Two filled attributes of one name stand in the order in which they fill it. -/
theorem pair_sublist_iff {first second : Attribute} {left right : FactoryExpression}
    (short : (filled registry relations attributes second.name).length ≤ 2)
    (name : first.name = second.name) (fills : filling? registry relations first = some left)
    (fillsToo : filling? registry relations second = some right) :
    [first, second].Sublist attributes ↔
      filled registry relations attributes second.name = [first, second] := by
  constructor
  · intro among
    have kept := among.filter fun attr =>
      attr.name == second.name && (filling? registry relations attr).isSome
    have same : [first, second].filter (fun attr => attr.name == second.name &&
        (filling? registry relations attr).isSome) = [first, second] := by
      simp [name, fills, fillsToo]
    rw [same] at kept
    exact (kept.eq_of_length_le short).symm
  · intro same
    rw [← same]
    exact List.filter_sublist

/-- The attribute that is declared later gives the expression of the name. -/
theorem get?_of_pair_sublist
    (distinct : Schema.firstRepeated? [] [] attributes = none)
    {found : Keyed FactoryExpression}
    (resolved : expressions registry relations attributes [] = .ok found)
    {first second : Attribute} {left right : FactoryExpression}
    (name : first.name = second.name) (fills : filling? registry relations first = some left)
    (fillsToo : filling? registry relations second = some right)
    (among : [first, second].Sublist attributes) :
    found.get? second.name = some right := by
  have same :=
    (pair_sublist_iff (length_filled_le distinct second.name) name fills fillsToo).mp among
  rw [get?_expressions resolved, same, ← fillsToo]
  simp [Keyed.get?]

/-! ## Order of declaration -/

theorem eq_of_perm_of_length_le {left right : List Attribute}
    (perm : left.Perm right) (short : left.length ≤ 1) : right = left := by
  rcases left with _ | ⟨attr, _ | ⟨other, rest⟩⟩
  · exact perm.nil_eq.symm
  · exact List.perm_singleton.mp perm.symm
  · simp at short

theorem eq_or_swap_of_perm {first second : Attribute} {attributes : List Attribute}
    (perm : [first, second].Perm attributes) :
    attributes = [first, second] ∨ attributes = [second, first] := by
  obtain ⟨left, right, rfl⟩ := List.length_eq_two.mp perm.length_eq.symm
  rcases List.mem_pair.mp (perm.mem_iff.mpr List.mem_cons_self) with rfl | rfl
  · exact .inl (by rw [List.singleton_perm_singleton.mp perm.cons_inv])
  · have swapped := (List.Perm.swap _ _ _).trans perm
    exact .inr (by rw [List.singleton_perm_singleton.mp swapped.cons_inv])

/-- Another order of declaration fills a name by the same attributes, perhaps swapped. -/
theorem filled_perm_cases
    (distinct : Schema.firstRepeated? [] [] attributes = none) (perm : attributes.Perm others)
    (name : String) :
    filled registry relations others name = filled registry relations attributes name ∨
      ∃ first second, filled registry relations attributes name = [first, second] ∧
        filled registry relations others name = [second, first] ∧
          (first.type = .foreign ↔ second.type ≠ .foreign) := by
  have permFilled : (filled registry relations attributes name).Perm
      (filled registry relations others name) := perm.filter _
  have cases : (filled registry relations attributes name).length ≤ 1 ∨ _ :=
    filled_cases distinct name
  rcases cases with short | ⟨first, second, two, differ⟩
  · exact .inl (eq_of_perm_of_length_le permFilled short)
  · rw [two] at permFilled
    rcases eq_or_swap_of_perm permFilled with same | swapped
    · exact .inl (same.trans two.symm)
    · exact .inr ⟨first, second, two, swapped, differ⟩

/-- Where a column and its constraint are swapped, they are contested or filled in one way. -/
theorem isContested_or_eq {first second : Attribute} {name : String}
    (both : filled registry relations attributes name = [first, second])
    (differ : first.type = .foreign ↔ second.type ≠ .foreign) :
    IsContested registry relations first second ∨ IsContested registry relations second first ∨
      filling? registry relations first = filling? registry relations second := by
  have member (attr : Attribute) (among : attr ∈ [first, second]) :
      attr.name = name ∧ ∃ filling, filling? registry relations attr = some filling :=
    (mem_filled_iff.mp (both ▸ among)).2
  obtain ⟨named, left, fills⟩ := member first List.mem_cons_self
  obtain ⟨namedToo, right, fillsToo⟩ := member second (by simp)
  by_cases same : left = right
  · exact .inr (.inr (by rw [fills, fillsToo, same]))
  · by_cases isConstraint : first.type = .foreign
    · exact .inr (.inl ⟨namedToo.trans named.symm, differ.mp isConstraint, isConstraint, right, left,
        fillsToo, fills, Ne.symm same⟩)
    · exact .inl ⟨named.trans namedToo.symm, isConstraint, by tauto, left, right, fills, fillsToo,
        same⟩

theorem IsContested.pair_sublist_iff {column constraint : Attribute} {name : String}
    (contest : IsContested registry relations column constraint) (named : column.name = name)
    (short : (filled registry relations attributes name).length ≤ 2) :
    [column, constraint].Sublist attributes ↔
      filled registry relations attributes name = [column, constraint] := by
  obtain ⟨left, right, fills, fillsToo, -⟩ := contest.fillings
  obtain rfl : constraint.name = name := contest.name.symm.trans named
  exact Factory.pair_sublist_iff short named fills fillsToo

/-- Swapping the two attributes of a name changes its expression only if they are contested. -/
theorem filling?_eq_iff_of_swapped {first second : Attribute} {name : String}
    (both : filled registry relations attributes name = [first, second])
    (differ : first.type = .foreign ↔ second.type ≠ .foreign) :
    filling? registry relations second = filling? registry relations first ↔
      ∀ column constraint, column.name = name → IsContested registry relations column constraint →
        ([first, second] = [column, constraint] ↔ [second, first] = [column, constraint]) := by
  have named (attr : Attribute) (among : attr ∈ [first, second]) : attr.name = name :=
    (mem_filled_iff.mp (both ▸ among)).2.1
  have apart : first ≠ second := by
    rintro rfl
    tauto
  constructor
  · intro same column constraint _ contest
    obtain ⟨left, right, fills, fillsToo, different⟩ := contest.fillings
    refine iff_of_false (fun here => ?_) fun here => ?_
    · obtain ⟨rfl, rfl⟩ : first = column ∧ second = constraint := by simpa using here
      exact different (Option.some.inj (fills.symm.trans (same.symm.trans fillsToo)))
    · obtain ⟨rfl, rfl⟩ : second = column ∧ first = constraint := by simpa using here
      exact different (Option.some.inj (fills.symm.trans (same.trans fillsToo)))
  · intro orders
    rcases isContested_or_eq both differ with contest | contest | same
    · have kept := orders first second (named first List.mem_cons_self) contest
      exact absurd (kept.mp rfl) (by simp [apart])
    · have kept := orders second first (named second (by simp)) contest
      exact absurd (kept.mpr rfl) (by simp [apart])
    · exact same.symm

/--
In whatever order accepted attributes are declared, a name has the same expression, provided that a
column and a constraint of that name that are filled in two ways stay in their order.
-/
theorem get?_expressions_eq_iff
    (distinct : Schema.firstRepeated? [] [] attributes = none) (perm : attributes.Perm others)
    {found other : Keyed FactoryExpression}
    (resolved : expressions registry relations attributes [] = .ok found)
    (resolvedToo : expressions registry relations others [] = .ok other) (name : String) :
    found.get? name = other.get? name ↔
      ∀ column constraint, column.name = name →
        IsContested registry relations column constraint →
          ([column, constraint].Sublist attributes ↔ [column, constraint].Sublist others) := by
  have short : (filled registry relations attributes name).length ≤ 2 :=
    length_filled_le distinct name
  have permFilled : (filled registry relations attributes name).Perm
      (filled registry relations others name) := perm.filter _
  have orders : (∀ column constraint, column.name = name →
      IsContested registry relations column constraint →
        ([column, constraint].Sublist attributes ↔ [column, constraint].Sublist others)) ↔
      ∀ column constraint, column.name = name →
        IsContested registry relations column constraint →
          (filled registry relations attributes name = [column, constraint] ↔
            filled registry relations others name = [column, constraint]) := by
    refine forall₄_congr fun column constraint named contest => ?_
    rw [contest.pair_sublist_iff named short,
      contest.pair_sublist_iff named (permFilled.length_eq ▸ short)]
  rw [orders, get?_expressions resolved, get?_expressions resolvedToo]
  rcases filled_perm_cases distinct perm name with same | ⟨first, second, two, swapped, differ⟩
  · rw [same]
    exact iff_of_true rfl fun _ _ _ _ => Iff.rfl
  · rw [two, swapped, ← filling?_eq_iff_of_swapped two differ]
    simp [Keyed.get?]

/-! ## Contested names -/

section Filling

variable {attr column constraint : Attribute} {left right : FactoryExpression}

theorem isSkipped_of_filling? (fills : filling? registry relations attr = some left) :
    isSkipped attr = false := by
  by_contra skipped
  rw [filling?, expression?, if_pos (by simpa using skipped)] at fills
  cases fills

theorem filling?_of_word {word call : String} (kept : isSkipped attr = false)
    (worded : nameWord? attr.name = some (word, call)) :
    filling? registry relations attr = some ⟨attr.name, .byName word, call⟩ := by
  rw [filling?, expression?, kept, worded]
  rfl

/-- A foreign key is filled from its target only. -/
theorem filling?_of_target (kept : isSkipped attr = false) (unworded : nameWord? attr.name = none)
    (foreign : attr.type.isForeignKey = true) :
    filling? registry relations attr =
      some ⟨attr.name, .byTarget (registry.resolve (targetName relations attr)),
        (registry.resolve (targetName relations attr)).name ++ "::factory()"⟩ := by
  rw [filling?, expression?, kept, unworded, foreign]
  rfl

/-- A type fills an attribute without a target. -/
theorem typeExpression_ne_byTarget {made : FactoryRule × String}
    (typed : typeExpression attr = .ok made) (target : Target) : made.1 ≠ .byTarget target := by
  have decimal : (decimalExpression attr).map (fun expression =>
      (FactoryRule.byType "decimal", expression)) = .ok made → made.1 ≠ .byTarget target := by
    intro same byTarget
    cases written : decimalExpression attr with
    | error error =>
        rw [written] at same
        cases same
    | ok expression =>
        rw [written] at same
        rw [← Except.ok.inj same] at byTarget
        cases byTarget
  rw [typeExpression.eq_def] at typed
  cases type : attr.type <;> rw [type] at typed <;>
    first
    | exact decimal typed
    | rw [← Except.ok.inj typed]
      intro byTarget
      cases byTarget

theorem rule_ne_byTarget (unworded : nameWord? attr.name = none)
    (other : attr.type.isForeignKey = false)
    (fills : filling? registry relations attr = some left) (target : Target) :
    left.rule ≠ .byTarget target := by
  rw [filling?, expression?, isSkipped_of_filling? fills, unworded, other] at fills
  cases typed : typeExpression attr with
  | error error =>
      rw [typed] at fills
      cases fills
  | ok made =>
      rw [typed] at fills
      obtain rfl := Option.some.inj fills
      exact typeExpression_ne_byTarget typed target

/-- A constraint is filled where its column is. -/
theorem isSkipped_of_constraint (name : column.name = constraint.name)
    (isConstraint : constraint.type = .foreign) (kept : isSkipped column = false) :
    isSkipped constraint = false := by
  simp_all [isSkipped, ColumnType.isIdentity, ColumnType.isTimestampPair, ColumnType.isSoftDelete,
    ColumnType.isMorph, Attribute.isPlaceholder]

theorem isContested_iff_ne (name : column.name = constraint.name) (isColumn : column.type ≠ .foreign)
    (isConstraint : constraint.type = .foreign)
    (fills : filling? registry relations column = some left)
    (fillsToo : filling? registry relations constraint = some right) :
    IsContested registry relations column constraint ↔ left ≠ right := by
  constructor
  · intro contest
    obtain ⟨_, _, has, hasToo, different⟩ := contest.fillings
    rwa [Option.some.inj (fills.symm.trans has), Option.some.inj (fillsToo.symm.trans hasToo)]
  · intro different
    exact ⟨name, isColumn, isConstraint, left, right, fills, fillsToo, different⟩

/--
A column that is filled is contested by a constraint when no word of their name fills them, and the
column has a type with no target or another target than the constraint.
-/
theorem isContested_iff (name : column.name = constraint.name) (isColumn : column.type ≠ .foreign)
    (isConstraint : constraint.type = .foreign)
    (fills : filling? registry relations column = some left) :
    IsContested registry relations column constraint ↔
      nameWord? column.name = none ∧
        (column.type.isForeignKey = true →
          registry.resolve (targetName relations column) ≠
            registry.resolve (targetName relations constraint)) := by
  have kept := isSkipped_of_filling? fills
  have keptToo := isSkipped_of_constraint name isConstraint kept
  cases worded : nameWord? column.name with
  | some found =>
      have fillsToo : filling? registry relations constraint = some _ :=
        filling?_of_word keptToo (name ▸ worded)
      rw [isContested_iff_ne name isColumn isConstraint fills fillsToo,
        Option.some.inj (fills.symm.trans (filling?_of_word kept worded)), name]
      simp
  | none =>
      have fillsToo : filling? registry relations constraint = some _ :=
        filling?_of_target keptToo (name ▸ worded) (by rw [isConstraint]; rfl)
      rw [isContested_iff_ne name isColumn isConstraint fills fillsToo]
      cases key : column.type.isForeignKey with
      | true =>
          rw [Option.some.inj (fills.symm.trans (filling?_of_target kept worded key)), name]
          simp only [ne_eq, true_and, forall_const]
          refine not_congr ⟨fun same => ?_, fun same => by rw [same]⟩
          exact FactoryRule.byTarget.inj (FactoryExpression.mk.inj same).2.1
      | false =>
          refine iff_of_true ?_ ⟨rfl, nofun⟩
          rintro rfl
          exact rule_ne_byTarget worded key fills _ rfl

end Filling

/-! ## Every order of declaration -/

/--
Whether the factory of accepted attributes fails does not depend on their order.  Neither does the
expression of a name, provided that a column and a constraint of that name that are filled in two
ways stay in their order; of these the later one gives the expression.
-/
theorem expressions_of_perm
    {entity : Option String} (accepted : Schema.checkDistinct entity attributes = .ok ())
    (perm : attributes.Perm others) :
    (∀ error, expressions registry relations attributes [] = .error error ↔
      expressions registry relations others [] = .error error) ∧
    ∀ found other, expressions registry relations attributes [] = .ok found →
      expressions registry relations others [] = .ok other →
        (∀ name, found.get? name = other.get? name ↔
          ∀ column constraint, column.name = name →
            IsContested registry relations column constraint →
              ([column, constraint].Sublist attributes ↔ [column, constraint].Sublist others)) ∧
        ∀ column constraint, IsContested registry relations column constraint →
          ([column, constraint].Sublist attributes →
            found.get? constraint.name = filling? registry relations constraint) ∧
          ([constraint, column].Sublist attributes →
            found.get? constraint.name = filling? registry relations column) := by
  have distinct := Schema.firstRepeated?_eq_none_of_checkDistinct accepted
  constructor
  · intro error
    rw [expressions_eq_error_iff, expressions_eq_error_iff]
    exact exists_congr fun attr => and_congr_left fun _ => perm.mem_iff
  · intro found other resolved resolvedToo
    refine ⟨get?_expressions_eq_iff distinct perm resolved resolvedToo, ?_⟩
    intro column constraint contest
    obtain ⟨left, right, fills, fillsToo, -⟩ := contest.fillings
    constructor
    · intro before
      rw [fillsToo]
      exact get?_of_pair_sublist distinct resolved contest.name fills fillsToo before
    · intro after
      rw [fills, ← contest.name]
      exact get?_of_pair_sublist distinct resolved contest.name.symm fillsToo fills after

/-- A column that refers to the author of a post. -/
def authorColumn : Attribute :=
  { name := "author_id", type := .unsignedBigInteger }

/-- The constraint of the column of the author. -/
def authorConstraint : Attribute :=
  { name := "author_id", type := .foreign, on := some "users" }

/-- The title of a post. -/
def titleColumn : Attribute :=
  { name := "title", type := .string }

/-- The module of posts, which knows no entities. -/
def blogRegistry : Registry :=
  { module := "Blog" }

theorem isContested_author : IsContested blogRegistry [] authorColumn authorConstraint := by
  have fills : filling? blogRegistry [] authorColumn =
      some ⟨"author_id", .byType "integer", faker "randomNumber()"⟩ := by
    rfl
  refine (isContested_iff ?_ ?_ ?_ fills).mpr ⟨?_, ?_⟩
  · rfl
  · decide
  · rfl
  · decide
  · exact nofun

/-- Attributes of one name stand in the same order, wherever the title stands. -/
theorem pair_sublist_title_iff {first second : Attribute} (name : first.name = second.name) :
    [first, second].Sublist [authorColumn, authorConstraint, titleColumn] ↔
      [first, second].Sublist [titleColumn, authorColumn, authorConstraint] := by
  have apart : authorColumn.name ≠ titleColumn.name ∧ authorConstraint.name ≠ titleColumn.name := by
    decide
  simp only [List.sublist_cons_iff, List.sublist_nil, List.cons_eq_cons, reduceCtorEq]
  aesop

/-- The title may be declared anywhere, and the author is filled by the constraint that follows. -/
theorem expressions_of_perm_posts :
    ∃ found other,
      expressions blogRegistry [] [authorColumn, authorConstraint, titleColumn] [] = .ok found ∧
      expressions blogRegistry [] [titleColumn, authorColumn, authorConstraint] [] = .ok other ∧
      (∀ name, found.get? name = other.get? name) ∧
      found.get? "author_id" = filling? blogRegistry [] authorConstraint := by
  have accepted :
      Schema.checkDistinct (some "Post") [authorColumn, authorConstraint, titleColumn] = .ok () := by
    rfl
  have perm : [authorColumn, authorConstraint, titleColumn].Perm
      [titleColumn, authorColumn, authorConstraint] := by
    show ([authorColumn, authorConstraint] ++ [titleColumn]).Perm _
    exact List.perm_append_comm
  obtain ⟨-, same⟩ := @expressions_of_perm blogRegistry [] _ _ _ accepted perm
  obtain ⟨names, later⟩ := same _ _ rfl rfl
  refine ⟨_, _, rfl, rfl, fun name => (names name).mpr ?_, ?_⟩
  · intro column constraint _ contest
    exact pair_sublist_title_iff contest.name
  · exact (later _ _ isContested_author).1 (by simp)

/-- A column that is declared after its constraint is filled by its type. -/
theorem expressions_follow_declaration :
    Schema.checkDistinct (some "Post") [authorColumn, authorConstraint] = .ok () ∧
      [authorColumn, authorConstraint].Perm [authorConstraint, authorColumn] ∧
      ∃ found other,
        expressions blogRegistry [] [authorColumn, authorConstraint] [] = .ok found ∧
        expressions blogRegistry [] [authorConstraint, authorColumn] [] = .ok other ∧
        (found.get? "author_id").map (·.expression) = some "User::factory()" ∧
        (other.get? "author_id").map (·.expression) = some "$this->faker->randomNumber()" := by
  refine ⟨rfl, .swap _ _ _, _, _, rfl, rfl, ?_, ?_⟩
  · decide +kernel
  · decide

end Factory

end Scaffold
