import Scaffold.Attribute.Record
import Scaffold.Relation.Basic

/-!
# Relation records

A record of a module document is checked against the closed table of relation fields and read into a
relation.  A placeholder among the attributes gives the record of a relation as well, under the name
of the attribute.
-/

namespace Scaffold.Relation

open Scaffold.Attribute (Place)
open Scaffold.Document (Entries Fault Value)

/-- The name of a relation: an identifier. -/
def readName (entity : Option String) (record : Entries) : Except Violation String :=
  match Attribute.givenName? record with
  | none => .error ⟨.relationWithoutName, entity, none, some "name"⟩
  | some name =>
      if Text.isIdentifier name then .ok name
      else .error ⟨.relationNameMalformed name, entity, some name, some "name"⟩

/-- The kind of a relation. -/
def readKind (place : Place) (record : Entries) : Except Violation RelationKind :=
  let value := (Entries.get? record "type").getD .null
  let found :=
    match value with
    | .text spelling => RelationKind.ofName? spelling
    | _ => none
  match found with
  | some kind => .ok kind
  | none => .error (place.violation (.unknownRelationKind value.describe) (some "type"))

/-- Every field of a record is allowed for its kind. -/
def checkAllowed (place : Place) (kind : RelationKind) (record : Entries) :
    Except Violation Unit :=
  match record.find? fun entry => !kind.allows entry.1.keyText with
  | some (key, _) =>
      let field := key.keyText
      .error (place.violation (.relationFieldNotAllowed field kind.name) (some field))
  | none => .ok ()

/-- A record has every field that its kind requires. -/
def checkRequired (place : Place) (kind : RelationKind) (record : Entries) :
    Except Violation Unit :=
  let isMissing := fun field => !((Entries.get? record field).getD .null).isTruthy
  match kind.requiredFields.find? isMissing with
  | some field => .error (place.violation (.relationFieldRequired field kind.name) (some field))
  | none => .ok ()

/-- Read a text field of a record; a fault in it is a violation at the field. -/
def readField (place : Place) (record : Entries) (field : String) (nonEmpty : Bool) :
    Except Violation (Option String) :=
  match Document.readOptional (Document.readText nonEmpty) (Entries.get? record field) with
  | .ok value => .ok value
  | .error fault => .error (place.violation (.relationValue fault) (some field))

/-- Read the values of a record whose name and kind are known. -/
def readValues (place : Place) (name : String) (kind : RelationKind) (record : Entries) :
    Except Violation Relation := do
  let model ← readField place record "model" true
  let foreignKey ← readField place record "foreignKey" false
  let localKey ← readField place record "localKey" false
  let ownerKey ← readField place record "ownerKey" false
  let morphName ← readField place record "morphName" false
  let table ← readField place record "table" false
  let foreignPivotKey ← readField place record "foreignPivotKey" false
  let relatedPivotKey ← readField place record "relatedPivotKey" false
  return {
    name, kind, model, foreignKey, localKey, ownerKey, morphName, table, foreignPivotKey,
    relatedPivotKey }

/-- Read a relation from a record of an entity. -/
def ofRecord (entity : Option String) (record : Value) : Except Violation Relation :=
  match record.content with
  | .mapping entries => do
      let name ← readName entity entries
      let place : Place := ⟨entity, some name⟩
      let kind ← readKind place entries
      checkAllowed place kind entries
      checkRequired place kind entries
      readValues place name kind entries
  | other => .error ⟨.relationNotMapping other.kindName, entity, none, none⟩

/-- The relation that a placeholder stands for.  Its name is the name of the attribute. -/
def ofPlaceholder (entity : Option String) (attr : Attribute) : Except Violation Relation :=
  let inner := attr.relationship.getD []
  if Entries.has inner "name" then
    .error ⟨.relationRenamed, entity, some attr.name, some "relationship.name"⟩
  else ofRecord entity (.mapping ((.text "name", .text attr.name) :: inner))

end Scaffold.Relation
