import Scaffold.Column.Type
import Scaffold.Document.Value
import Scaffold.Php.Literal

/-!
# Attributes

An attribute describes a column, a constraint or a pair of columns of an entity's table, or stands
for a relation.  The closed table of this module says which fields an attribute of each type may
carry and which it must.
-/

namespace Scaffold

/-- A validated attribute.  A field that a record leaves out or gives as null is none here. -/
structure Attribute where
  name : String
  type : ColumnType
  length : Option Nat := none
  nullable : Option Bool := none
  unique : Option Bool := none
  /-- The default, which may be an explicit null. -/
  default : Option Php.Scalar := none
  after : Option String := none
  total : Option Nat := none
  places : Option Nat := none
  options : Option (List String) := none
  on : Option String := none
  references : Option String := none
  onDelete : Option ReferentialAction := none
  onUpdate : Option ReferentialAction := none
  relationship : Option Document.Entries := none

namespace Attribute

/-- The attribute stands for a relation and has no column. -/
def isPlaceholder (attr : Attribute) : Bool :=
  attr.type == .relationship

/-- A short description of an attribute. -/
def describe (attr : Attribute) : String :=
  "<AttributeSpec " ++ attr.name ++ ": " ++ attr.type.name ++ ">"

/-- The attribute is a constraint, or a foreign key that constrains a table. -/
def hasConstraint (attr : Attribute) : Bool :=
  attr.type == .foreign || (attr.type == .foreignId && attr.on.isSome)

/-- The two columns of a morph pair. -/
def morphColumns (attr : Attribute) : List String :=
  [attr.name ++ "_type", attr.name ++ "_id"]

end Attribute

namespace ColumnType

/-- The fields beside name and type that an attribute of a type may carry. -/
def optionalFields (type : ColumnType) : List String :=
  match type with
  | string | char => ["nullable", "unique", "default", "after", "length"]
  | text | mediumText | longText => ["nullable", "after"]
  | uuid | integer | tinyInteger | smallInteger | mediumInteger | bigInteger | unsignedInteger
  | unsignedBigInteger => ["nullable", "unique", "default", "after"]
  | boolean | date | dateTime | time | timestamp | year | json | jsonb =>
      ["nullable", "default", "after"]
  | decimal | double | float => ["nullable", "unique", "default", "after", "total", "places"]
  | enum => ["nullable", "default", "after", "options"]
  | foreignId => ["on", "references", "onDelete", "onUpdate", "nullable", "after"]
  | foreign => ["on", "references", "onDelete", "onUpdate"]
  | timestamps | timestampsTz | softDeletes | softDeletesTz | id | increments | bigIncrements
  | morphs | nullableMorphs | uuidMorphs | nullableUuidMorphs => []
  | relationship => ["relationship"]

/-- An attribute of a type may carry a field. -/
def allows (type : ColumnType) (field : String) : Bool :=
  field == "name" || field == "type" || type.optionalFields.contains field

/-- The fields that an attribute of a type must carry, in the order in which they are looked for. -/
def requiredFields : ColumnType → List String
  | enum => ["options"]
  | decimal | double | float => ["total", "places"]
  | foreign => ["on"]
  | relationship => ["relationship"]
  | _ => []

end ColumnType

end Scaffold
