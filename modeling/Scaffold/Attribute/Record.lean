import Scaffold.Attribute.Basic
import Scaffold.Decimal.Numeral
import Scaffold.Document.Switch
import Scaffold.Text.Identifier
import Scaffold.Violation

/-!
# Attribute records

A record of a module document is checked against the closed table of attribute fields and read into
an attribute.  The checks stop at the first violation: the type, the fields that it allows, the
fields that it requires, the name, and then the shape of each value.
-/

namespace Scaffold.Attribute

open Scaffold.Document (Entries Fault Value)

/-- The name that a record gives, unless it is empty or no text. -/
def givenName? (record : Entries) : Option String :=
  match Entries.get? record "name" with
  | some (.text name) => if name.isEmpty then none else some name
  | some (.illFormed codes) => some (Text.shownCodes codes)
  | _ => none

/-- A required field counts as missing when it is null or an empty text, list or mapping. -/
def isAbsent : Option Value → Bool
  | none | some .null => true
  | some (.text value) => value.isEmpty
  | some (.list items) => items.isEmpty
  | some (.mapping entries) => entries.isEmpty
  | _ => false

/-- The place of an attribute's violations. -/
structure Place where
  entity : Option String
  subject : Option String

/-- A violation at a field of an attribute. -/
def Place.violation (place : Place) (rule : Rule) (field : Option String) : Violation :=
  ⟨rule, place.entity, place.subject, field⟩

/-- The type that a record gives. -/
def readType (place : Place) (record : Entries) : Except Violation ColumnType :=
  match Entries.get? record "type" with
  | none | some .null => .error (place.violation .attributeWithoutType (some "type"))
  | some value =>
      let found :=
        match value with
        | .text spelling => ColumnType.ofName? spelling
        | _ => none
      match found with
      | some type => .ok type
      | none => .error (place.violation (.unknownColumnType value.describe) (some "type"))

/-- Every field of a record is allowed for its type. -/
def checkAllowed (place : Place) (type : ColumnType) (record : Entries) : Except Violation Unit :=
  match record.find? fun entry => !type.allows entry.1.keyText with
  | some (key, _) =>
      .error (place.violation (.attributeFieldNotAllowed key.keyText type) (some key.keyText))
  | none => .ok ()

/-- A record has every field that its type requires. -/
def checkRequired (place : Place) (type : ColumnType) (record : Entries) : Except Violation Unit :=
  match type.requiredFields.find? fun field => isAbsent (Entries.get? record field) with
  | some field => .error (place.violation (.attributeFieldRequired field type) (some field))
  | none => .ok ()

/-- The name that a record gives or its type implies. -/
def readName (place : Place) (type : ColumnType) : Except Violation String :=
  match place.subject with
  | some name => .ok name
  | none =>
      match type.impliedName? with
      | some name => .ok name
      | none => .error (place.violation (.attributeWithoutName type) (some "name"))

/-- A name is an identifier. -/
def checkName (place : Place) (name : String) : Except Violation Unit :=
  if Text.isIdentifier name then .ok ()
  else .error (place.violation (.attributeNameMalformed name) (some "name"))

/-- A foreign key without a table carries no field of a constraint. -/
def checkConstraint (place : Place) (type : ColumnType) (record : Entries) :
    Except Violation Unit :=
  if type == .foreignId && !Entries.has record "on" then
    match ["references", "onDelete", "onUpdate"].find? (Entries.has record) with
    | some field => .error (place.violation (.constraintWithoutTable field) (some field))
    | none => .ok ()
  else .ok ()

/-- The relation of a placeholder is given by a mapping. -/
def checkRelationship (place : Place) (type : ColumnType) (record : Entries) :
    Except Violation Unit :=
  match type, Entries.get? record "relationship" with
  | .relationship, some (.mapping _) => .ok ()
  | .relationship, _ =>
      .error (place.violation .relationshipNotMapping (some "relationship"))
  | _, _ => .ok ()

/-- The scalar that a text given as bytes spells: a switch, a number, or else the text itself. -/
def spelledScalar (spelling : String) : Php.Scalar :=
  match Document.readSwitchWord spelling with
  | .ok value => .bool value
  | .error _ =>
      match Decimal.intOfNumeral 10 spelling.toList with
      | .ok value => .int value
      | .error _ =>
          match Decimal.doubleOfNumeral? spelling.toList with
          | some value => .double value
          | none => .text spelling

/-- A scalar. -/
def readScalar : Value → Except Fault Php.Scalar
  | .null => .ok .null
  | .bool value => .ok (.bool value)
  | .int value => .ok (.int value)
  | .double value => .ok (.double value)
  | .text value => .ok (.text value)
  | .illFormed _ => .error .illFormedText
  | .bytes values =>
      match Document.textOf (.bytes values) with
      | .ok spelling => .ok (spelledScalar spelling)
      | .error _ => .error .unreadableBoolean
  | _ => .error .notBoolean

/-- A list of texts. -/
def readTexts : List Value → Except Fault (List String)
  | [] => .ok []
  | value :: rest =>
      match Document.readText false value with
      | .error fault => .error fault
      | .ok text => (readTexts rest).map (text :: ·)

/-- The texts that come more than once, each once, in alphabetical order. -/
def repeated (texts : List String) : List String :=
  (texts.filter fun text => texts.count text > 1).eraseDups.mergeSort (fun x y => x ≤ y)

/-- The options of an enumeration: a list of distinct texts. -/
def readOptions (value : Value) : Except Fault (List String) :=
  match Document.itemsOf? value with
  | some items =>
      match readTexts items with
      | .error fault => .error fault
      | .ok options =>
          if (repeated options).isEmpty then .ok options
          else .error (.duplicateOptions (repeated options))
  | none => .error .notList

/-- A referential action. -/
def readAction (value : Value) : Except Fault ReferentialAction :=
  match Document.textOf value with
  | .ok spelling =>
      match ReferentialAction.ofName? spelling with
      | some action => .ok action
      | none => .error .notAction
  | .error _ => .error .notAction

/-- The definition of a relation: a mapping whose keys stand for texts. -/
def readRelationship : Value → Except Fault Entries
  | .mapping entries =>
      match readTexts (entries.map (·.1)) with
      | .ok _ => .ok (Document.withTextKeys entries)
      | .error fault => .error fault
  | _ => .error .notMapping

/-- Read a field of a record; a fault in it is a violation at the field. -/
def readField {α : Type} (place : Place) (record : Entries) (field : String)
    (read : Value → Except Fault α) : Except Violation (Option α) :=
  match Document.readOptional read (Entries.get? record field) with
  | .ok value => .ok value
  | .error fault => .error (place.violation (.attributeValue fault) (some field))

/-- The default of a record, where an explicit null counts as given. -/
def readDefault (place : Place) (record : Entries) : Except Violation (Option Php.Scalar) :=
  match Entries.get? record "default" with
  | none => .ok none
  | some value =>
      match readScalar value with
      | .ok scalar => .ok (some scalar)
      | .error fault => .error (place.violation (.attributeValue fault) (some "default"))

/-- There are at most as many decimal places as digits. -/
def checkPlaces (place : Place) (total places : Option Nat) : Except Violation Unit :=
  match total, places with
  | some total, some places =>
      if total < places then
        .error (place.violation (.placesBeyondTotal places total) (some "places"))
      else .ok ()
  | _, _ => .ok ()

/-- Read the values of a record whose type and name are known. -/
def readValues (place : Place) (type : ColumnType) (name : String) (record : Entries) :
    Except Violation Attribute := do
  let length ← readField place record "length" (Document.readNatural 1)
  let nullable ← readField place record "nullable" Document.readBool
  let unique ← readField place record "unique" Document.readBool
  let default ← readDefault place record
  let after ← readField place record "after" (Document.readText false)
  let total ← readField place record "total" (Document.readNatural 1)
  let places ← readField place record "places" (Document.readNatural 0)
  let options ← readField place record "options" readOptions
  let on ← readField place record "on" (Document.readText true)
  let references ← readField place record "references" (Document.readText true)
  let onDelete ← readField place record "onDelete" readAction
  let onUpdate ← readField place record "onUpdate" readAction
  let relationship ← readField place record "relationship" readRelationship
  checkPlaces place total places
  return {
    name, type, length, nullable, unique, default, after, total, places, options, on, references,
    onDelete, onUpdate, relationship }

/-- Read an attribute from a record of an entity. -/
def ofRecord (entity : Option String) (record : Value) : Except Violation Attribute :=
  match record.content with
  | .mapping entries => do
      let given : Place := ⟨entity, givenName? entries⟩
      let type ← readType given entries
      checkAllowed given type entries
      checkRequired given type entries
      let name ← readName given type
      let place : Place := ⟨entity, some name⟩
      checkName place name
      checkConstraint place type entries
      checkRelationship place type entries
      readValues place type name entries
  | other => .error ⟨.attributeNotMapping other.kindName, entity, none, none⟩

end Scaffold.Attribute
