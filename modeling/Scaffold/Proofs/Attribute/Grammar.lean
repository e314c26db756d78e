import Scaffold.Proofs.Attribute.Fields

/-!
# The grammar of attribute records

A record of a JSON document is an attribute exactly when it is in the grammar of this module: a
mapping with a type of the vocabulary, no field but those of the type, every field that the type
requires, a name where the type implies none, and values of the right shapes.  The attribute then
carries the values of the record as they are.
-/

namespace Scaffold.Attribute

open Scaffold.Document (Entries Fault IsWritten Recognises Value)

/-! ## The grammar -/

/-- An empty text, list or mapping. -/
def IsEmptyValue (value : Value) : Prop :=
  value = .text "" ∨ value = .list [] ∨ value = .mapping []

/-- A text that is not empty, be it well-formed or not. -/
def IsNonEmptyText (value : Value) : Prop :=
  (∃ text, text ≠ "" ∧ value = .text text) ∨ ∃ codes, value = .illFormed codes

/-- The values that each field takes, null apart. -/
def shapes : List (String × (Value → Prop)) :=
  [("length", IsWritten (1 ≤ ·) fun length : Nat => .int length),
    ("nullable", IsWritten (fun _ => True) .bool),
    ("unique", IsWritten (fun _ => True) .bool),
    ("default", IsWritten (fun _ => True) scalarValue),
    ("after", IsWritten (fun _ => True) .text),
    ("total", IsWritten (1 ≤ ·) fun total : Nat => .int total),
    ("places", IsWritten (0 ≤ ·) fun places : Nat => .int places),
    ("options", IsWritten List.Nodup fun options => .list (options.map .text)),
    ("on", IsWritten (· ≠ "") .text),
    ("references", IsWritten (· ≠ "") .text),
    ("onDelete", IsWritten (fun _ => True) fun action : ReferentialAction => .text action.name),
    ("onUpdate", IsWritten (fun _ => True) fun action : ReferentialAction => .text action.name),
    ("relationship", IsWritten HasTextKeys .mapping)]

/-- A record names its attribute by an identifier, or leaves the name to the type. -/
def IsNamed (record : Entries) (type : ColumnType) (name : String) : Prop :=
  (Entries.get? record "name" = some (.text name) ∧ Text.IsIdentifier name) ∨
    type.impliedName? = some name ∧
      ∀ value, Entries.get? record "name" = some value → ¬ IsNonEmptyText value

/-- A record is in the grammar of the attributes of a type. -/
structure InGrammar (record : Entries) (type : ColumnType) : Prop where
  typed : Entries.get? record "type" = some (.text type.name)
  allowed : ∀ entry ∈ record, ∃ field, entry.1 = .text field ∧ type.allows field = true
  required : ∀ field ∈ type.requiredFields,
    ∃ value, Entries.given? record field = some value ∧ ¬ IsEmptyValue value
  name : ∃ name, IsNamed record type name
  constraint : type = .foreignId → Entries.has record "on" = false →
    ∀ field ∈ ["references", "onDelete", "onUpdate"], Entries.has record field = false
  relationship : type = .relationship →
    ∃ entries, Entries.get? record "relationship" = some (.mapping entries) ∧ HasTextKeys entries
  shapes : ∀ shape ∈ shapes, ∀ value,
    Entries.given? record shape.1 = some value → shape.2 value
  places : ∀ total places : Int, Entries.get? record "total" = some (.int total) →
    Entries.get? record "places" = some (.int places) → places ≤ total

/-- The values of an attribute beside its name, its type and its default. -/
def values (attr : Attribute) : List (String × Option Value) :=
  [("length", attr.length.map fun length : Nat => .int length),
    ("nullable", attr.nullable.map .bool),
    ("unique", attr.unique.map .bool),
    ("after", attr.after.map .text),
    ("total", attr.total.map fun total : Nat => .int total),
    ("places", attr.places.map fun places : Nat => .int places),
    ("options", attr.options.map fun options => .list (options.map .text)),
    ("on", attr.on.map .text),
    ("references", attr.references.map .text),
    ("onDelete", attr.onDelete.map fun action => .text action.name),
    ("onUpdate", attr.onUpdate.map fun action => .text action.name),
    ("relationship", attr.relationship.map .mapping)]

/-- An attribute carries the values of a record unchanged, and no others. -/
structure Carries (attr : Attribute) (record : Entries) : Prop where
  typed : Entries.get? record "type" = some (.text attr.type.name)
  name : IsNamed record attr.type attr.name
  values : ∀ field ∈ attr.values, field.2 = Entries.given? record field.1
  default : attr.default.map scalarValue = Entries.get? record "default"
  hasDefault : attr.default.isSome = Entries.has record "default"

/-! ## The checks -/

section Checks

variable {record : Entries} (place : Place) {type : ColumnType}

theorem readType_eq_ok_iff :
    readType place record = .ok type ↔ Entries.get? record "type" = some (.text type.name) := by
  rw [readType.eq_def]
  cases Entries.get? record "type" with
  | none => simp
  | some value =>
      cases value with
      | text spelling =>
          simp only [Option.some.injEq, Value.text.injEq, ← ColumnType.ofName?_eq_some_iff]
          cases ColumnType.ofName? spelling <;> simp
      | _ => simp

theorem checkAllowed_eq_ok_iff (keys : ∀ entry ∈ record, entry.1.IsJson) :
    checkAllowed place type record = .ok () ↔
      ∀ entry ∈ record, ∃ field, entry.1 = .text field ∧ type.allows field = true := by
  have all : checkAllowed place type record = .ok () ↔
      ∀ entry ∈ record, type.allows entry.1.keyText = true := by
    rw [checkAllowed]
    cases found : record.find? fun entry => !type.allows entry.1.keyText with
    | none => simpa using found
    | some entry =>
        simp only [reduceCtorEq, false_iff, not_forall]
        refine ⟨entry, List.mem_of_find?_eq_some found, ?_⟩
        simpa using List.find?_some found
  rw [all]
  apply forall₂_congr
  intro entry member
  exact allows_keyText_iff (keys entry member)

theorem isAbsent_eq_false_iff (field : String) :
    isAbsent (Entries.get? record field) = false ↔
      ∃ value, Entries.given? record field = some value ∧ ¬ IsEmptyValue value := by
  rw [isAbsent.eq_def, Entries.given?]
  cases Entries.get? record field with
  | none => simp
  | some value => cases value <;> simp [IsEmptyValue]

theorem checkRequired_eq_ok_iff :
    checkRequired place type record = .ok () ↔ ∀ field ∈ type.requiredFields,
      ∃ value, Entries.given? record field = some value ∧ ¬ IsEmptyValue value := by
  simp only [← isAbsent_eq_false_iff, checkRequired]
  cases found : type.requiredFields.find? fun field => isAbsent (Entries.get? record field) with
  | none => simpa using found
  | some field =>
      simp only [reduceCtorEq, false_iff, not_forall]
      refine ⟨field, List.mem_of_find?_eq_some found, ?_⟩
      simpa using List.find?_some found

theorem checkConstraint_eq_ok_iff :
    checkConstraint place type record = .ok () ↔
      (type = .foreignId → Entries.has record "on" = false →
        ∀ field ∈ ["references", "onDelete", "onUpdate"], Entries.has record field = false) := by
  rw [checkConstraint]
  split_ifs with free
  · obtain ⟨rfl, without⟩ : type = .foreignId ∧ Entries.has record "on" = false := by
      simpa using free
    cases found : ["references", "onDelete", "onUpdate"].find? (Entries.has record) with
    | none =>
        have absent := List.find?_eq_none.mp found
        simp only [true_iff]
        intro _ _ field member
        simpa using absent field member
    | some field =>
        have here : Entries.has record field = true := List.find?_some found
        constructor
        · exact nofun
        · intro absent
          rw [absent rfl without field (List.mem_of_find?_eq_some found)] at here
          cases here
  · simp only [true_iff]
    intro isForeign without
    exact absurd (by simp [isForeign, without]) free

theorem checkRelationship_eq_ok_iff :
    checkRelationship place type record = .ok () ↔
      (type = .relationship →
        ∃ entries, Entries.get? record "relationship" = some (.mapping entries)) := by
  by_cases relationship : type = .relationship
  · subst relationship
    rw [checkRelationship.eq_def]
    cases Entries.get? record "relationship" with
    | none => simp
    | some value => cases value <;> simp
  · have other : checkRelationship place type record = .ok () := by
      cases type <;> first | rfl | exact absurd rfl relationship
    simp [other, relationship]

theorem isNamed_iff
    (values : ∀ entry ∈ record, entry.2.IsJson) {name : String} (entity : Option String) :
    readName ⟨entity, givenName? record⟩ type = .ok name ∧ checkName place name = .ok () ↔
      IsNamed record type name := by
  have checked : checkName place name = .ok () ↔ Text.IsIdentifier name := by
    rw [← Text.isIdentifier_iff, checkName]
    split_ifs with identifier <;> simp [identifier]
  have implied (other : givenName? record = none)
      (nothing : ∀ value, Entries.get? record "name" = some value → ¬ IsNonEmptyText value) :
      readName ⟨entity, givenName? record⟩ type = .ok name ∧ checkName place name = .ok () ↔
        IsNamed record type name := by
    have read : readName ⟨entity, givenName? record⟩ type = .ok name ↔
        type.impliedName? = some name := by
      rw [other, readName]
      cases type.impliedName? <;> simp
    rw [read, checked, IsNamed]
    constructor
    · rintro ⟨same, -⟩
      exact .inr ⟨same, nothing⟩
    · rintro (⟨given, first, rest, lineEnd, shape, -⟩ | ⟨same, -⟩)
      · refine absurd (.inl ⟨name, ?_, rfl⟩) (nothing _ given)
        rintro rfl
        cases shape
      · exact ⟨same, (Text.isIdentifier_iff name).mp
          (ColumnType.isIdentifier_impliedName? same)⟩
  have given (own : String) (isGiven : givenName? record = some own)
      (text : ∃ value, Entries.get? record "name" = some value ∧ IsNonEmptyText value)
      (only : ∀ name, Text.IsIdentifier name →
        (own = name ↔ Entries.get? record "name" = some (.text name))) :
      readName ⟨entity, givenName? record⟩ type = .ok name ∧ checkName place name = .ok () ↔
        IsNamed record type name := by
    rw [isGiven, readName, checked, IsNamed]
    simp only [Except.ok.injEq]
    constructor
    · rintro ⟨same, identifier⟩
      exact .inl ⟨(only name identifier).mp same, identifier⟩
    · rintro (⟨here, identifier⟩ | ⟨-, nothing⟩)
      · exact ⟨(only name identifier).mpr here, identifier⟩
      · obtain ⟨value, found, isText⟩ := text
        exact absurd isText (nothing value found)
  cases found : Entries.get? record "name" with
  | none => exact implied (by rw [givenName?, found]) (by simp [found])
  | some value =>
      cases value with
      | text own =>
          by_cases empty : own = ""
          · subst empty
            exact implied (by rw [givenName?, found]; rfl) (by simp [found, IsNonEmptyText])
          · refine given own ?_ ⟨_, found, .inl ⟨own, empty, rfl⟩⟩ ?_
            · rw [givenName?, found]
              simp [empty]
            · simp [found]
      | illFormed codes =>
          refine given _ (by rw [givenName?, found]) ⟨_, found, .inr ⟨codes, rfl⟩⟩ ?_
          cases Entries.isJson_of_get? values found with
          | illFormed without =>
              intro name identifier
              constructor
              · rintro rfl
                exact absurd identifier (Text.not_isIdentifier_shownCodes without)
              · simp [found]
      | _ => exact implied (by rw [givenName?, found]) (by simp [found, IsNonEmptyText])

/-! ## The values -/

variable {α : Type} {read : Value → Except Fault α} {Fits : α → Prop} {write : α → Value}

theorem readField_eq_ok_iff
    (recognises : Recognises read Fits write) (values : ∀ entry ∈ record, entry.2.IsJson)
    (field : String) (result : Option α) :
    readField place record field read = .ok result ↔
      (∀ value, result = some value → Fits value) ∧
        result.map write = Entries.given? record field := by
  rw [← Document.readOptional_eq_ok_iff recognises values, readField]
  cases Document.readOptional read (Entries.get? record field) <;> simp

theorem exists_readField_iff
    (recognises : Recognises read Fits write) (values : ∀ entry ∈ record, entry.2.IsJson)
    (field : String) :
    (∃ result, readField place record field read = .ok result) ↔
      ∀ value, Entries.given? record field = some value → IsWritten Fits write value := by
  simp only [readField_eq_ok_iff place recognises values field,
    ← Document.exists_readOptional_iff recognises values field,
    Document.readOptional_eq_ok_iff recognises values]

theorem readDefault_eq_ok_iff
    (values : ∀ entry ∈ record, entry.2.IsJson) (result : Option Php.Scalar) :
    readDefault place record = .ok result ↔
      result.map scalarValue = Entries.get? record "default" := by
  rw [readDefault]
  cases found : Entries.get? record "default" with
  | none => cases result <;> simp
  | some value =>
      have scalar := recognises_scalar (Entries.isJson_of_get? values found)
      dsimp only
      cases result with
      | none => cases readScalar value <;> simp
      | some result =>
          rw [Option.map_some, Option.some.injEq, ← true_and (scalarValue result = value),
            ← scalar result]
          cases readScalar value <;> simp

theorem exists_readDefault_iff (values : ∀ entry ∈ record, entry.2.IsJson) :
    (∃ result, readDefault place record = .ok result) ↔
      ∀ value, Entries.given? record "default" = some value →
        IsWritten (fun _ => True) scalarValue value := by
  simp only [readDefault_eq_ok_iff place values, Entries.given?_eq_some_iff]
  constructor
  · rintro ⟨result, written⟩ value ⟨found, -⟩
    rw [found] at written
    obtain ⟨scalar, -, same⟩ := Option.map_eq_some_iff.mp written
    exact ⟨scalar, trivial, same⟩
  · intro shape
    cases found : Entries.get? record "default" with
    | none => exact ⟨none, rfl⟩
    | some value =>
        by_cases null : value = .null
        · exact ⟨some .null, by rw [null]; rfl⟩
        · obtain ⟨scalar, -, same⟩ := shape value ⟨found, null⟩
          exact ⟨some scalar, by rw [← same]; rfl⟩

theorem checkPlaces_eq_ok_iff (total places : Option Nat) :
    checkPlaces place total places = .ok () ↔
      ∀ digits decimals, total = some digits → places = some decimals → decimals ≤ digits := by
  rw [checkPlaces.eq_def]
  cases total with
  | none => simp
  | some digits =>
      cases places with
      | none => simp
      | some decimals =>
          dsimp only
          split_ifs with less
          · simp only [Option.some.injEq, false_iff, not_forall]
            exact ⟨digits, decimals, rfl, rfl, by omega⟩
          · simp only [Option.some.injEq, true_iff]
            omega

/-- The values of a record are read when each of them is, and the places fit the digits. -/
theorem readValues_eq_ok_iff {name : String} {attr : Attribute} :
    readValues place type name record = .ok attr ↔
      (attr.name = name ∧ attr.type = type) ∧
      readField place record "length" (Document.readNatural 1) = .ok attr.length ∧
      readField place record "nullable" Document.readBool = .ok attr.nullable ∧
      readField place record "unique" Document.readBool = .ok attr.unique ∧
      readDefault place record = .ok attr.default ∧
      readField place record "after" (Document.readText false) = .ok attr.after ∧
      readField place record "total" (Document.readNatural 1) = .ok attr.total ∧
      readField place record "places" (Document.readNatural 0) = .ok attr.places ∧
      readField place record "options" readOptions = .ok attr.options ∧
      readField place record "on" (Document.readText true) = .ok attr.on ∧
      readField place record "references" (Document.readText true) = .ok attr.references ∧
      readField place record "onDelete" readAction = .ok attr.onDelete ∧
      readField place record "onUpdate" readAction = .ok attr.onUpdate ∧
      readField place record "relationship" readRelationship = .ok attr.relationship ∧
      checkPlaces place attr.total attr.places = .ok () := by
  simp only [readValues, bind_eq_ok_iff]
  constructor
  · rintro ⟨length, hasLength, nullable, hasNullable, unique, hasUnique, default, hasDefault, after,
      hasAfter, total, hasTotal, places, hasPlaces, options, hasOptions, on, hasOn, references,
      hasReferences, onDelete, hasOnDelete, onUpdate, hasOnUpdate, relationship, hasRelationship,
      _, fits, ⟨⟩⟩
    exact ⟨⟨rfl, rfl⟩, hasLength, hasNullable, hasUnique, hasDefault, hasAfter, hasTotal, hasPlaces,
      hasOptions, hasOn, hasReferences, hasOnDelete, hasOnUpdate, hasRelationship, fits⟩
  · rintro ⟨⟨rfl, rfl⟩, hasLength, hasNullable, hasUnique, hasDefault, hasAfter, hasTotal, hasPlaces,
      hasOptions, hasOn, hasReferences, hasOnDelete, hasOnUpdate, hasRelationship, fits⟩
    exact ⟨_, hasLength, _, hasNullable, _, hasUnique, _, hasDefault, _, hasAfter, _, hasTotal, _,
      hasPlaces, _, hasOptions, _, hasOn, _, hasReferences, _, hasOnDelete, _, hasOnUpdate, _,
      hasRelationship, _, fits, rfl⟩

/-- The values that are read are those of the record. -/
theorem values_of_readValues
    (values : ∀ entry ∈ record, entry.2.IsJson) {name : String} {attr : Attribute}
    (read : readValues place type name record = .ok attr) :
    ∀ field ∈ attr.values, field.2 = Entries.given? record field.1 := by
  obtain ⟨-, length, nullable, unique, -, after, total, decimals, options, on, references, onDelete,
    onUpdate, relationship, -⟩ := (readValues_eq_ok_iff place).mp read
  intro field member
  simp only [Attribute.values, List.mem_cons, List.not_mem_nil, or_false] at member
  rcases member with rfl | rfl | rfl | rfl | rfl | rfl | rfl | rfl | rfl | rfl | rfl | rfl
  · exact ((readField_eq_ok_iff place (Document.recognises_natural 1) values _ _).mp length).2
  · exact ((readField_eq_ok_iff place Document.recognises_bool values _ _).mp nullable).2
  · exact ((readField_eq_ok_iff place Document.recognises_bool values _ _).mp unique).2
  · exact ((readField_eq_ok_iff place Document.recognises_text values _ _).mp after).2
  · exact ((readField_eq_ok_iff place (Document.recognises_natural 1) values _ _).mp total).2
  · exact ((readField_eq_ok_iff place (Document.recognises_natural 0) values _ _).mp decimals).2
  · exact ((readField_eq_ok_iff place recognises_options values _ _).mp options).2
  · exact ((readField_eq_ok_iff place Document.recognises_nonEmptyText values _ _).mp on).2
  · exact ((readField_eq_ok_iff place Document.recognises_nonEmptyText values _ _).mp references).2
  · exact ((readField_eq_ok_iff place recognises_action values _ _).mp onDelete).2
  · exact ((readField_eq_ok_iff place recognises_action values _ _).mp onUpdate).2
  · exact ((readField_eq_ok_iff place recognises_relationship values _ _).mp relationship).2

/-- Values are read when every given one has the shape of its field and the places fit the digits. -/
theorem exists_readValues_iff
    (values : ∀ entry ∈ record, entry.2.IsJson) (name : String) :
    (∃ attr, readValues place type name record = .ok attr) ↔
      (∀ shape ∈ shapes, ∀ value,
        Entries.given? record shape.1 = some value → shape.2 value) ∧
      ∀ total places : Int, Entries.get? record "total" = some (.int total) →
        Entries.get? record "places" = some (.int places) → places ≤ total := by
  have fits {total places : Option Nat}
      (hasTotal : total.map (fun total : Nat => Value.int total) = Entries.given? record "total")
      (hasPlaces : places.map (fun places : Nat => Value.int places) =
        Entries.given? record "places") :
      checkPlaces place total places = .ok () ↔
        ∀ total places : Int, Entries.get? record "total" = some (.int total) →
          Entries.get? record "places" = some (.int places) → places ≤ total := by
    rw [checkPlaces_eq_ok_iff]
    have given (field : String) (number : Int) :
        Entries.get? record field = some (.int number) ↔
          Entries.given? record field = some (.int number) := by
      simp [Entries.given?_eq_some_iff]
    simp only [given, ← hasTotal, ← hasPlaces]
    cases total <;> cases places <;> simp
  simp only [shapes, List.forall_mem_cons, List.not_mem_nil, false_imp_iff, implies_true, and_true,
    ← exists_readField_iff place (Document.recognises_natural _) values,
    ← exists_readField_iff place Document.recognises_bool values,
    ← exists_readField_iff place Document.recognises_text values,
    ← exists_readField_iff place Document.recognises_nonEmptyText values,
    ← exists_readField_iff place recognises_options values,
    ← exists_readField_iff place recognises_action values,
    ← exists_readField_iff place recognises_relationship values,
    ← exists_readDefault_iff place values]
  constructor
  · rintro ⟨attr, read⟩
    obtain ⟨-, length, nullable, unique, default, after, total, decimals, options, on, references,
      onDelete, onUpdate, relationship, checked⟩ := (readValues_eq_ok_iff place).mp read
    refine ⟨⟨⟨_, length⟩, ⟨_, nullable⟩, ⟨_, unique⟩, ⟨_, default⟩, ⟨_, after⟩, ⟨_, total⟩,
      ⟨_, decimals⟩, ⟨_, options⟩, ⟨_, on⟩, ⟨_, references⟩, ⟨_, onDelete⟩, ⟨_, onUpdate⟩,
      ⟨_, relationship⟩⟩, ?_⟩
    exact (fits ((readField_eq_ok_iff place (Document.recognises_natural 1) values _ _).mp total).2
      ((readField_eq_ok_iff place (Document.recognises_natural 0) values _ _).mp decimals).2).mp checked
  · rintro ⟨⟨⟨length, hasLength⟩, ⟨nullable, hasNullable⟩, ⟨unique, hasUnique⟩,
      ⟨default, hasDefault⟩, ⟨after, hasAfter⟩, ⟨total, hasTotal⟩, ⟨decimals, hasPlaces⟩,
      ⟨options, hasOptions⟩, ⟨on, hasOn⟩, ⟨references, hasReferences⟩, ⟨onDelete, hasOnDelete⟩,
      ⟨onUpdate, hasOnUpdate⟩, ⟨relationship, hasRelationship⟩⟩, few⟩
    have checked := (fits ((readField_eq_ok_iff place (Document.recognises_natural 1) values _ _).mp hasTotal).2
      ((readField_eq_ok_iff place (Document.recognises_natural 0) values _ _).mp hasPlaces).2).mpr few
    refine ⟨⟨name, type, length, nullable, unique, default, after, total, decimals, options, on,
      references, onDelete, onUpdate, relationship⟩, (readValues_eq_ok_iff place).mpr ?_⟩
    exact ⟨⟨rfl, rfl⟩, hasLength, hasNullable, hasUnique, hasDefault, hasAfter, hasTotal, hasPlaces,
      hasOptions, hasOn, hasReferences, hasOnDelete, hasOnUpdate, hasRelationship, checked⟩

end Checks

/-! ## Records -/

/-- A record is read when it passes every check. -/
theorem ofRecord_mapping_eq_ok_iff {entity : Option String} {record : Entries} {attr : Attribute} :
    ofRecord entity (.mapping record) = .ok attr ↔
      ∃ type name,
        readType ⟨entity, givenName? record⟩ record = .ok type ∧
        checkAllowed ⟨entity, givenName? record⟩ type record = .ok () ∧
        checkRequired ⟨entity, givenName? record⟩ type record = .ok () ∧
        (readName ⟨entity, givenName? record⟩ type = .ok name ∧
          checkName ⟨entity, some name⟩ name = .ok ()) ∧
        checkConstraint ⟨entity, some name⟩ type record = .ok () ∧
        checkRelationship ⟨entity, some name⟩ type record = .ok () ∧
        readValues ⟨entity, some name⟩ type name record = .ok attr := by
  simp only [ofRecord, Value.content, bind_eq_ok_iff]
  constructor
  · rintro ⟨type, typed, ⟨⟩, allowed, ⟨⟩, required, name, named, ⟨⟩, identifier, ⟨⟩, constraint, ⟨⟩,
      relationship, read⟩
    exact ⟨type, name, typed, allowed, required, ⟨named, identifier⟩, constraint, relationship, read⟩
  · rintro ⟨type, name, typed, allowed, required, ⟨named, identifier⟩, constraint, relationship,
      read⟩
    exact ⟨type, typed, (), allowed, (), required, name, named, (), identifier, (), constraint, (),
      relationship, read⟩

/-- A record of a price, whose default is an explicit null. -/
def priceRecord : Entries :=
  [(.text "name", .text "price"), (.text "type", .text "decimal"), (.text "total", .int 8),
    (.text "places", .int 2), (.text "default", .null)]

theorem isJson_priceRecord : (Value.mapping priceRecord).IsJson := by
  refine .mapping ?_ ?_ ?_
  · intro entry member
    simp only [priceRecord, List.mem_cons, List.not_mem_nil, or_false] at member
    rcases member with rfl | rfl | rfl | rfl | rfl <;> exact .text _
  · intro entry member
    simp only [priceRecord, List.mem_cons, List.not_mem_nil, or_false] at member
    rcases member with rfl | rfl | rfl | rfl | rfl
    · exact .text _
    · exact .text _
    · exact .int _
    · exact .int _
    · exact .null
  · simp [priceRecord, Value.sameKey, Value.wholeKey?]

end Scaffold.Attribute
