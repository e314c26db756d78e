import Scaffold.Column.Type
import Scaffold.Document.Fault

/-!
# Violations

A record of a module document that breaks a rule stops the compilation of its entity with a
violation.  A violation says which rule is broken, and where: the entity, the attribute, relation or
index in it, and the field.
-/

namespace Scaffold

/-- The kinds of violations. -/
inductive ViolationKind where
  | unknownType
  | illegalField
  | missingRequiredField
  | invalidIndex
  | invalidRelation
  | unresolvedTarget
  | unspecific
  deriving DecidableEq, Repr

/-- The code of a kind in reports. -/
def ViolationKind.code : ViolationKind → String
  | .unknownType => "UNKNOWN_TYPE"
  | .illegalField => "ILLEGAL_FIELD"
  | .missingRequiredField => "MISSING_REQUIRED_FIELD"
  | .invalidIndex => "INVALID_INDEX"
  | .invalidRelation => "INVALID_RELATION"
  | .unresolvedTarget => "UNRESOLVED_TARGET"
  | .unspecific => "COMPILATION_ERROR"

/-- The rule that is broken. -/
inductive Rule where
  /-- An attribute is not a mapping; the kind of value that it is. -/
  | attributeNotMapping (kind : String)
  | attributeWithoutType
  /-- The type of an attribute is not in the vocabulary; the value as messages show it. -/
  | unknownColumnType (shown : String)
  | attributeFieldNotAllowed (field : String) (type : ColumnType)
  | attributeFieldRequired (field : String) (type : ColumnType)
  | attributeWithoutName (type : ColumnType)
  | attributeNameMalformed (name : String)
  /-- A field of a foreign key that constrains no table. -/
  | constraintWithoutTable (field : String)
  | relationshipNotMapping
  | attributeValue (fault : Document.Fault)
  | placesBeyondTotal (places total : Nat)
  | attributeRepeated
  | relationNotMapping (kind : String)
  | relationWithoutName
  | relationNameMalformed (name : String)
  | unknownRelationKind (shown : String)
  | relationFieldNotAllowed (field kind : String)
  | relationFieldRequired (field kind : String)
  | relationValue (fault : Document.Fault)
  | relationRenamed
  | relationRepeated
  | indexNotMapping (kind : String)
  | indexFieldUnknown (field : String)
  | indexWithoutColumns
  | indexColumnMalformed
  | indexColumnRepeated (columns : List String)
  | unknownIndexKind (shown : String)
  | indexColumnsUnknown (columns : List String)
  /-- A rule that a caller words itself. -/
  | stated (kind : ViolationKind) (text : String)
  deriving DecidableEq, Repr

/-- The kind of violation that breaking a rule is. -/
def Rule.kind : Rule → ViolationKind
  | .attributeWithoutType | .unknownColumnType _ => .unknownType
  | .attributeNotMapping _ | .attributeFieldNotAllowed _ _ | .attributeNameMalformed _
  | .constraintWithoutTable _ | .relationshipNotMapping | .attributeValue _
  | .placesBeyondTotal _ _ | .attributeRepeated => .illegalField
  | .attributeFieldRequired _ _ | .attributeWithoutName _ => .missingRequiredField
  | .relationNotMapping _ | .relationWithoutName | .relationNameMalformed _
  | .unknownRelationKind _ | .relationFieldNotAllowed _ _ | .relationFieldRequired _ _
  | .relationValue _ | .relationRenamed | .relationRepeated => .invalidRelation
  | .indexNotMapping _ | .indexFieldUnknown _ | .indexWithoutColumns | .indexColumnMalformed
  | .indexColumnRepeated _ | .unknownIndexKind _ | .indexColumnsUnknown _ => .invalidIndex
  | .stated kind _ => kind

/-- The wording of a broken rule. -/
def Rule.text : Rule → String
  | .attributeNotMapping kind => "attribute must be a mapping, got " ++ kind
  | .attributeWithoutType => "attribute has no 'type'"
  | .unknownColumnType shown => "unknown column type " ++ shown
  | .attributeFieldNotAllowed field type =>
      "'" ++ field ++ "' is not allowed for type '" ++ type.name ++ "'"
  | .attributeFieldRequired field type =>
      "type '" ++ type.name ++ "' requires '" ++ field ++ "'"
  | .attributeWithoutName type => "attribute of type '" ++ type.name ++ "' has no 'name'"
  | .attributeNameMalformed name =>
      "attribute name " ++ Text.quoted name ++ " is not a valid identifier"
  | .constraintWithoutTable field => "'" ++ field ++ "' needs a constrained table ('on')"
  | .relationshipNotMapping => "'relationship' must be a mapping with at least 'type'"
  | .attributeValue fault => "invalid value: " ++ fault.message
  | .placesBeyondTotal places total =>
      "places (" ++ Decimal.writtenInt places ++ ") must not exceed total (" ++
        Decimal.writtenInt total ++ ")"
  | .attributeRepeated => "attribute declared more than once"
  | .relationNotMapping kind => "relation must be a mapping, got " ++ kind
  | .relationWithoutName => "relation has no 'name'"
  | .relationNameMalformed name =>
      "relation name " ++ Text.quoted name ++ " is not a valid identifier"
  | .unknownRelationKind shown => "unknown relation type " ++ shown
  | .relationFieldNotAllowed field kind =>
      "'" ++ field ++ "' is not allowed on a " ++ kind ++ " relation"
  | .relationFieldRequired field kind => "a " ++ kind ++ " relation requires '" ++ field ++ "'"
  | .relationValue fault => "invalid value: " ++ fault.message
  | .relationRenamed =>
      "'name' is taken from the attribute and may not be set inside 'relationship'"
  | .relationRepeated => "relation declared more than once"
  | .indexNotMapping kind => "index must be a mapping, got " ++ kind
  | .indexFieldUnknown field => "'" ++ field ++ "' is not a valid index field"
  | .indexWithoutColumns => "index declares no columns"
  | .indexColumnMalformed => "index columns must be non-empty strings"
  | .indexColumnRepeated columns => "index repeats a column: " ++ Text.quotedList columns
  | .unknownIndexKind shown => "unknown index type " ++ shown
  | .indexColumnsUnknown columns =>
      "index references unknown column(s) " ++ Text.quotedList columns
  | .stated _ text => text

/-- A broken rule and its place. -/
structure Violation where
  rule : Rule
  entity : Option String := none
  subject : Option String := none
  field : Option String := none
  deriving DecidableEq, Repr

/-- The place of a violation: entity and subject, as far as they are given. -/
def Violation.place (violation : Violation) : String :=
  let parts := [violation.entity, violation.subject].filterMap id |>.filter (!·.isEmpty)
  if parts.isEmpty then "<input>" else ".".intercalate parts

/-- The wording of a violation: place, rule and field. -/
def Violation.message (violation : Violation) : String :=
  let field :=
    match violation.field with
    | some name => if name.isEmpty then "" else " [field '" ++ name ++ "']"
    | none => ""
  violation.place ++ ": " ++ violation.rule.text ++ field

end Scaffold
