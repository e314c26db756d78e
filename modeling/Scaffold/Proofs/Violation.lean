import Mathlib.Tactic.SplitIfs
import Scaffold.Entity.Descriptor

/-!
# The kinds of the violations of a component

Each record of a component is read by checks that stop at the first violation.  The kind of a
violation tells which record it belongs to: attributes, relations and indexes have kinds of their
own, and none of them is that of an unknown target.
-/

namespace Scaffold

open Scaffold.Attribute (Place)
open Scaffold.Document (Entries Fault Value)

/-- A computation stops, if it does, with an error that is expected. -/
def StopsWith {ε α : Type} (IsExpected : ε → Prop) : Except ε α → Prop
  | .ok _ => True
  | .error error => IsExpected error

section StopsWith

variable {ε α β : Type} {IsExpected : ε → Prop}

theorem StopsWith.bind
    {first : Except ε α} {next : α → Except ε β} (stops : StopsWith IsExpected first)
    (later : ∀ value, StopsWith IsExpected (next value)) :
    StopsWith IsExpected (first >>= next) := by
  cases first with
  | error error => exact stops
  | ok value => exact later value

theorem StopsWith.map {first : Except ε α} (stops : StopsWith IsExpected first) (change : α → β) :
    StopsWith IsExpected (first.map change) := by
  cases first <;> exact stops

theorem StopsWith.mono
    {IsAlsoExpected : ε → Prop} {computation : Except ε α} (stops : StopsWith IsExpected computation)
    (implies : ∀ error, IsExpected error → IsAlsoExpected error) :
    StopsWith IsAlsoExpected computation := by
  cases computation with
  | error error => exact implies error stops
  | ok value => trivial

theorem StopsWith.error_of_eq
    {computation : Except ε α} {error : ε} (stops : StopsWith IsExpected computation)
    (failed : computation = .error error) : IsExpected error := by
  rwa [failed] at stops

end StopsWith

/-- What the violations of a kind are about. -/
inductive ViolationGroup where
  | attribute | relation | index | target | other
  deriving DecidableEq

/-- What violations of a kind are about. -/
def ViolationKind.group : ViolationKind → ViolationGroup
  | .unknownType | .illegalField | .missingRequiredField => .attribute
  | .invalidRelation => .relation
  | .invalidIndex => .index
  | .unresolvedTarget => .target
  | .unspecific => .other

/-- A violation is about records of a group. -/
def Violation.IsAbout (group : ViolationGroup) (violation : Violation) : Prop :=
  violation.rule.kind.group = group

theorem ViolationKind.group_eq_relation_iff {kind : ViolationKind} :
    kind.group = .relation ↔ kind = .invalidRelation := by
  cases kind <;> decide

/-! ## Attributes -/

namespace Attribute

section Checks

variable {place : Place} {type : ColumnType} {record : Entries}

theorem stopsWith_readType : StopsWith (·.IsAbout .attribute) (readType place record) := by
  fun_cases readType place record <;> trivial

theorem stopsWith_checkAllowed :
    StopsWith (·.IsAbout .attribute) (checkAllowed place type record) := by
  fun_cases checkAllowed place type record <;> trivial

theorem stopsWith_checkRequired :
    StopsWith (·.IsAbout .attribute) (checkRequired place type record) := by
  fun_cases checkRequired place type record <;> trivial

theorem stopsWith_readName : StopsWith (·.IsAbout .attribute) (readName place type) := by
  fun_cases readName place type <;> trivial

theorem stopsWith_checkName {name : String} :
    StopsWith (·.IsAbout .attribute) (checkName place name) := by
  fun_cases checkName place name <;> trivial

theorem stopsWith_checkConstraint :
    StopsWith (·.IsAbout .attribute) (checkConstraint place type record) := by
  fun_cases checkConstraint place type record <;> trivial

theorem stopsWith_checkRelationship :
    StopsWith (·.IsAbout .attribute) (checkRelationship place type record) := by
  fun_cases checkRelationship place type record <;> trivial

theorem stopsWith_readField {α : Type} (field : String) (read : Value → Except Fault α) :
    StopsWith (·.IsAbout .attribute) (readField place record field read) := by
  fun_cases readField place record field read <;> trivial

theorem stopsWith_readDefault : StopsWith (·.IsAbout .attribute) (readDefault place record) := by
  fun_cases readDefault place record <;> trivial

theorem stopsWith_checkPlaces {total places : Option Nat} :
    StopsWith (·.IsAbout .attribute) (checkPlaces place total places) := by
  fun_cases checkPlaces place total places <;> trivial

end Checks

theorem stopsWith_readValues {place : Place} {type : ColumnType} {name : String}
    {record : Entries} :
    StopsWith (·.IsAbout .attribute) (readValues place type name record) := by
  refine (stopsWith_readField _ _).bind fun _ => (stopsWith_readField _ _).bind fun _ =>
    (stopsWith_readField _ _).bind fun _ => stopsWith_readDefault.bind fun _ => ?_
  repeat refine (stopsWith_readField _ _).bind fun _ => ?_
  exact stopsWith_checkPlaces.bind fun _ => trivial

theorem stopsWith_ofRecord {entity : Option String} {record : Value} :
    StopsWith (·.IsAbout .attribute) (ofRecord entity record) := by
  rw [ofRecord.eq_def]
  split
  · exact stopsWith_readType.bind fun _ => stopsWith_checkAllowed.bind fun _ =>
      stopsWith_checkRequired.bind fun _ => stopsWith_readName.bind fun _ =>
      stopsWith_checkName.bind fun _ => stopsWith_checkConstraint.bind fun _ =>
      stopsWith_checkRelationship.bind fun _ => stopsWith_readValues
  · trivial

theorem stopsWith_ofRecords {entity : Option String} (records : List Value) :
    StopsWith (·.IsAbout .attribute) (ofRecords entity records) := by
  induction records with
  | nil => trivial
  | cons record rest hypothesis =>
      exact stopsWith_ofRecord.bind fun _ => hypothesis.bind fun _ => trivial

end Attribute

/-! ## Relations -/

namespace Relation

section Checks

variable {place : Place} {kind : RelationKind} {entity : Option String} {record : Entries}

theorem stopsWith_readName : StopsWith (·.IsAbout .relation) (readName entity record) := by
  fun_cases readName entity record <;> trivial

theorem stopsWith_readKind : StopsWith (·.IsAbout .relation) (readKind place record) := by
  fun_cases readKind place record <;> trivial

theorem stopsWith_checkAllowed :
    StopsWith (·.IsAbout .relation) (checkAllowed place kind record) := by
  fun_cases checkAllowed place kind record <;> trivial

theorem stopsWith_checkRequired :
    StopsWith (·.IsAbout .relation) (checkRequired place kind record) := by
  fun_cases checkRequired place kind record <;> trivial

theorem stopsWith_readField {field : String} {nonEmpty : Bool} :
    StopsWith (·.IsAbout .relation) (readField place record field nonEmpty) := by
  fun_cases readField place record field nonEmpty <;> trivial

end Checks

theorem stopsWith_readValues
    {place : Place} {name : String} {kind : RelationKind} {record : Entries} :
    StopsWith (·.IsAbout .relation) (readValues place name kind record) := by
  rw [readValues]
  repeat refine stopsWith_readField.bind fun _ => ?_
  trivial

theorem stopsWith_ofRecord {entity : Option String} {record : Value} :
    StopsWith (·.IsAbout .relation) (ofRecord entity record) := by
  rw [ofRecord.eq_def]
  split
  · exact stopsWith_readName.bind fun _ => stopsWith_readKind.bind fun _ =>
      stopsWith_checkAllowed.bind fun _ => stopsWith_checkRequired.bind fun _ =>
      stopsWith_readValues
  · trivial

theorem stopsWith_ofRecords {entity : Option String} (records : List Value) :
    StopsWith (·.IsAbout .relation) (ofRecords entity records) := by
  induction records with
  | nil => trivial
  | cons record rest hypothesis =>
      exact stopsWith_ofRecord.bind fun _ => hypothesis.bind fun _ => trivial

theorem stopsWith_ofPlaceholder {entity : Option String} {attr : Attribute} :
    StopsWith (·.IsAbout .relation) (ofPlaceholder entity attr) := by
  rw [ofPlaceholder]
  split_ifs
  · trivial
  · exact stopsWith_ofRecord

theorem stopsWith_compileAll
    {entity : Option String} {registry : Registry} {relations : List Relation} :
    StopsWith (·.IsAbout .relation) (compileAll entity registry relations) := by
  refine StopsWith.map ?_ _
  fun_cases checkDistinct entity relations <;> trivial

end Relation

/-! ## Indexes and schemas -/

theorem Index.stopsWith_ofRecord {entity : Option String} {position : Nat} {record : Value} :
    StopsWith (·.IsAbout .index) (ofRecord entity position record) := by
  have columns (entries : Entries) :
      StopsWith (·.kind.group = .index) (readColumns entries) := by
    fun_cases readColumns entries <;> trivial
  have kinds (entries : Entries) : StopsWith (·.kind.group = .index) (readKind entries) := by
    fun_cases readKind entries <;> trivial
  fun_cases ofRecord entity position record with
  | case2 => exact (columns _).error_of_eq ‹_›
  | case3 => exact (kinds _).error_of_eq ‹_›
  | _ => trivial

theorem Index.stopsWith_ofRecords {entity : Option String} (position : Nat) (records : List Value) :
    StopsWith (·.IsAbout .index) (ofRecords entity position records) := by
  induction records generalizing position with
  | nil => trivial
  | cons record rest hypothesis =>
      exact stopsWith_ofRecord.bind fun _ => (hypothesis _).bind fun _ => trivial

theorem Schema.stopsWith_checkDistinct {entity : Option String} {attributes : List Attribute} :
    StopsWith (·.IsAbout .attribute) (checkDistinct entity attributes) := by
  fun_cases checkDistinct entity attributes <;> trivial

theorem Schema.stopsWith_placeIndexes
    {entity : Option String} {attributes : List Attribute} (position : Nat)
    (earlier requests : List Index) :
    StopsWith (·.IsAbout .index) (placeIndexes entity attributes position earlier requests) := by
  fun_induction placeIndexes entity attributes position earlier requests with
  | case2 position earlier index rest known hypothesis => exact hypothesis.map _
  | _ => trivial

/-! ## Components -/

/-- A violation is about a record, not about a target. -/
def Violation.IsAboutRecord (violation : Violation) : Prop :=
  violation.IsAbout .attribute ∨ violation.IsAbout .relation ∨ violation.IsAbout .index

/-- A record of a component that breaks a rule is not taken for an unknown target. -/
theorem Violation.IsAboutRecord.kind_ne {violation : Violation} (about : violation.IsAboutRecord) :
    violation.rule.kind ≠ .unresolvedTarget := by
  intro unresolved
  simp [IsAboutRecord, IsAbout, unresolved, ViolationKind.group] at about

namespace Draft

variable {entity : Option String}

theorem stopsWith_placeholderRelations (attributes : List Attribute) :
    StopsWith (·.IsAbout .relation) (placeholderRelations entity attributes) := by
  induction attributes with
  | nil => trivial
  | cons attr rest hypothesis =>
      rw [placeholderRelations]
      split_ifs
      · exact Relation.stopsWith_ofPlaceholder.bind fun _ => hypothesis.bind fun _ => trivial
      · exact hypothesis

/-- A component is not drafted because of one of its records. -/
theorem stopsWith_ofComponent {registry : Registry} {component : Component} :
    StopsWith (·.IsAboutRecord) (ofComponent registry component) := by
  have attributes {α : Type} {computation : Except Violation α}
      (stops : StopsWith (·.IsAbout .attribute) computation) :
      StopsWith (·.IsAboutRecord) computation := stops.mono fun _ => .inl
  have relations {α : Type} {computation : Except Violation α}
      (stops : StopsWith (·.IsAbout .relation) computation) :
      StopsWith (·.IsAboutRecord) computation := stops.mono fun _ => .inr ∘ .inl
  have indexes {α : Type} {computation : Except Violation α}
      (stops : StopsWith (·.IsAbout .index) computation) :
      StopsWith (·.IsAboutRecord) computation := stops.mono fun _ => .inr ∘ .inr
  rw [ofComponent]
  refine (attributes (Attribute.stopsWith_ofRecords _)).bind fun _ => ?_
  refine (attributes Schema.stopsWith_checkDistinct).bind fun _ => ?_
  refine (relations (stopsWith_placeholderRelations _)).bind fun _ => ?_
  refine (relations (Relation.stopsWith_ofRecords _)).bind fun _ => ?_
  refine (indexes (Index.stopsWith_ofRecords _ _)).bind fun _ => ?_
  refine StopsWith.bind ?_ fun _ => (relations Relation.stopsWith_compileAll).bind fun _ => trivial
  rw [Schema.compile]
  refine (attributes Schema.stopsWith_checkDistinct).bind fun _ => ?_
  exact (indexes (Schema.stopsWith_placeIndexes _ _ _)).bind fun _ => trivial

end Draft

end Scaffold
