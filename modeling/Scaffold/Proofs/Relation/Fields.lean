import Scaffold.Proofs.Attribute.Allowance
import Scaffold.Relation.Record

/-!
# The fields of accepted relations

A relation that was read from a record has the kind and the texts that the record gives, no field
but those that its kind allows, and a text that is not empty in every field that its kind requires.
-/

namespace Scaffold

open Scaffold.Document (Entries Fault Value)

/-- A record gives a text under a field. -/
def Document.GivesText (record : Entries) (field text : String) : Prop :=
  ∃ value, Entries.given? record field = some value ∧ textOf value = .ok text

/-- What requires a value takes no empty text. -/
theorem Document.ne_empty_of_isTruthy
    {value : Value} {text : String} (truthy : value.isTruthy = true)
    (read : textOf value = .ok text) : text ≠ "" := by
  rintro rfl
  cases value with
  | text given =>
      obtain rfl := Except.ok.inj read
      cases truthy
  | bytes values =>
      rw [textOf] at read
      split at read
      · rename_i decoded found
        obtain rfl := Except.ok.inj read
        rw [String.fromUTF8?] at found
        split_ifs at found
        have bytes : ByteArray.mk values.toArray = ByteArray.empty :=
          congrArg String.toByteArray (Option.some.inj found)
        have none : values = [] := by simpa using congrArg (fun bytes => bytes.data.toList) bytes
        rw [none] at truthy
        cases truthy
      · cases read
  | _ => cases read

namespace Relation

/-- The text fields of a relation. -/
def texts (relation : Relation) : List (String × Option String) :=
  [("model", relation.model), ("foreignKey", relation.foreignKey), ("localKey", relation.localKey),
    ("ownerKey", relation.ownerKey), ("morphName", relation.morphName), ("table", relation.table),
    ("foreignPivotKey", relation.foreignPivotKey), ("relatedPivotKey", relation.relatedPivotKey)]

/-- The value of a field is what a record gives under its name. -/
def Carries (record : Entries) (field : String) (value : Option String) : Prop :=
  (value = none ∧ Entries.given? record field = none) ∨
    ∃ text, value = some text ∧ Document.GivesText record field text

/-- A relation was read from the entries of a record. -/
structure IsReadFrom (relation : Relation) (record : Entries) : Prop where
  name : Attribute.givenName? record = some relation.name
  kind : Entries.get? record "type" = some (.text relation.kind.name)
  allowed : ∀ entry ∈ record, relation.kind.allows entry.1.keyText = true
  required : ∀ field ∈ relation.kind.requiredFields,
    ∃ value, Entries.get? record field = some value ∧ value.isTruthy = true
  carries : ∀ field value, (field, value) ∈ relation.texts → Carries record field value

theorem carries_of_readField
    {place : Attribute.Place} {record : Entries} {field : String} {nonEmpty : Bool}
    {result : Option String} (read : readField place record field nonEmpty = .ok result) :
    Carries record field result := by
  rw [readField] at read
  cases optional : Document.readOptional (Document.readText nonEmpty) (Entries.get? record field) with
  | error fault =>
      rw [optional] at read
      cases read
  | ok value =>
      rw [optional] at read
      obtain rfl := Except.ok.inj read
      rw [Document.readOptional.eq_def] at optional
      cases found : Entries.get? record field with
      | none =>
          rw [found] at optional
          exact .inl ⟨(Except.ok.inj optional).symm, by rw [Entries.given?, found]⟩
      | some given =>
          rw [found] at optional
          by_cases null : given = .null
          · subst null
            exact .inl ⟨(Except.ok.inj optional).symm, by rw [Entries.given?, found]⟩
          · have isGiven := Entries.given?_eq_some_iff.mpr ⟨found, null⟩
            have mapped : (Document.readText nonEmpty given).map some = .ok value := by
              cases given <;> first | exact optional | exact absurd rfl null
            rw [Document.readText] at mapped
            cases decoded : Document.textOf given with
            | error fault =>
                rw [decoded] at mapped
                cases mapped
            | ok text =>
                rw [decoded] at mapped
                dsimp only at mapped
                split at mapped
                · cases mapped
                · exact .inr ⟨text, (Except.ok.inj mapped).symm, given, isGiven, decoded⟩

theorem givenName?_of_readName
    {entity : Option String} {record : Entries} {name : String}
    (read : readName entity record = .ok name) : Attribute.givenName? record = some name := by
  rw [readName] at read
  cases given : Attribute.givenName? record with
  | none =>
      rw [given] at read
      cases read
  | some own =>
      rw [given] at read
      dsimp only at read
      split at read
      · rw [Except.ok.inj read]
      · cases read

theorem get?_type_of_readKind
    {place : Attribute.Place} {record : Entries} {kind : RelationKind}
    (read : readKind place record = .ok kind) :
    Entries.get? record "type" = some (.text kind.name) := by
  rw [readKind] at read
  cases found : Entries.get? record "type" with
  | none =>
      rw [found] at read
      cases read
  | some value =>
      rw [found] at read
      cases value with
      | text spelling =>
          dsimp only [Option.getD_some] at read
          cases named : RelationKind.ofName? spelling with
          | none =>
              rw [named] at read
              cases read
          | some other =>
              rw [named] at read
              obtain rfl := Except.ok.inj read
              have spelled := List.find?_some named
              rw [eq_of_beq spelled]
      | _ => cases read

theorem allows_of_checkAllowed
    {place : Attribute.Place} {record : Entries} {kind : RelationKind}
    (checked : checkAllowed place kind record = .ok ()) :
    ∀ entry ∈ record, kind.allows entry.1.keyText = true := by
  rw [checkAllowed] at checked
  cases found : record.find? fun entry => !kind.allows entry.1.keyText with
  | none => simpa using found
  | some entry =>
      rw [found] at checked
      cases checked

theorem isTruthy_of_checkRequired
    {place : Attribute.Place} {record : Entries} {kind : RelationKind}
    (checked : checkRequired place kind record = .ok ()) :
    ∀ field ∈ kind.requiredFields,
      ∃ value, Entries.get? record field = some value ∧ value.isTruthy = true := by
  intro field member
  rw [checkRequired] at checked
  cases found : kind.requiredFields.find? fun field =>
      !((Entries.get? record field).getD .null).isTruthy with
  | some missing =>
      rw [found] at checked
      cases checked
  | none =>
      have truthy := List.find?_eq_none.mp found field member
      cases given : Entries.get? record field with
      | none => simp [given, Value.isTruthy] at truthy
      | some value => exact ⟨value, rfl, by simpa [given] using truthy⟩

/-- An accepted relation was read from a mapping. -/
theorem exists_isReadFrom_of_ofRecord
    {entity : Option String} {record : Value} {relation : Relation}
    (accepted : ofRecord entity record = .ok relation) :
    ∃ entries, record.content = .mapping entries ∧ relation.IsReadFrom entries := by
  rw [ofRecord] at accepted
  cases shape : record.content with
  | mapping entries =>
      refine ⟨entries, rfl, ?_⟩
      rw [shape] at accepted
      simp only [readValues, bind_eq_ok_iff] at accepted
      obtain ⟨name, named, kind, typed, ⟨⟩, allowed, ⟨⟩, required, model, readModel, foreignKey,
        readForeignKey, localKey, readLocalKey, ownerKey, readOwnerKey, morphName, readMorphName,
        table, readTable, foreignPivotKey, readForeignPivotKey, relatedPivotKey,
        readRelatedPivotKey, made⟩ := accepted
      obtain rfl := Except.ok.inj made
      refine ⟨givenName?_of_readName named, get?_type_of_readKind typed,
        allows_of_checkAllowed allowed, isTruthy_of_checkRequired required, ?_⟩
      intro field value member
      simp only [texts, List.mem_cons, Prod.mk.injEq, List.not_mem_nil, or_false] at member
      rcases member with ⟨rfl, rfl⟩ | ⟨rfl, rfl⟩ | ⟨rfl, rfl⟩ | ⟨rfl, rfl⟩ | ⟨rfl, rfl⟩ |
        ⟨rfl, rfl⟩ | ⟨rfl, rfl⟩ | ⟨rfl, rfl⟩ <;>
        exact carries_of_readField ‹_›
  | _ =>
      rw [shape] at accepted
      cases accepted

end Relation

end Scaffold
