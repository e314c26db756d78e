/-!
# Column types

The closed vocabulary of column types, the families that are treated alike, and the referential
actions of foreign keys.  A module document names a type by its spelling.
-/

namespace Scaffold

/-- The type of a declared attribute. -/
inductive ColumnType where
  | string | char
  | text | mediumText | longText
  | uuid
  | integer | tinyInteger | smallInteger | mediumInteger | bigInteger
  | unsignedInteger | unsignedBigInteger
  | boolean
  | date | dateTime | time | timestamp | year
  | timestamps | timestampsTz
  | json | jsonb
  | decimal | double | float
  | enum
  | foreignId | foreign
  | softDeletes | softDeletesTz
  | id | increments | bigIncrements
  | morphs | nullableMorphs | uuidMorphs | nullableUuidMorphs
  | relationship
  deriving DecidableEq, Repr

namespace ColumnType

/-- The spelling of a type in a document, which is also the method that creates its column. -/
def name : ColumnType → String
  | string => "string"
  | char => "char"
  | text => "text"
  | mediumText => "mediumText"
  | longText => "longText"
  | uuid => "uuid"
  | integer => "integer"
  | tinyInteger => "tinyInteger"
  | smallInteger => "smallInteger"
  | mediumInteger => "mediumInteger"
  | bigInteger => "bigInteger"
  | unsignedInteger => "unsignedInteger"
  | unsignedBigInteger => "unsignedBigInteger"
  | boolean => "boolean"
  | date => "date"
  | dateTime => "dateTime"
  | time => "time"
  | timestamp => "timestamp"
  | year => "year"
  | timestamps => "timestamps"
  | timestampsTz => "timestampsTz"
  | json => "json"
  | jsonb => "jsonb"
  | decimal => "decimal"
  | double => "double"
  | float => "float"
  | enum => "enum"
  | foreignId => "foreignId"
  | foreign => "foreign"
  | softDeletes => "softDeletes"
  | softDeletesTz => "softDeletesTz"
  | id => "id"
  | increments => "increments"
  | bigIncrements => "bigIncrements"
  | morphs => "morphs"
  | nullableMorphs => "nullableMorphs"
  | uuidMorphs => "uuidMorphs"
  | nullableUuidMorphs => "nullableUuidMorphs"
  | relationship => "relationship"

/-- Every column type. -/
def all : List ColumnType :=
  [string, char, text, mediumText, longText, uuid, integer, tinyInteger, smallInteger,
    mediumInteger, bigInteger, unsignedInteger, unsignedBigInteger, boolean, date, dateTime, time,
    timestamp, year, timestamps, timestampsTz, json, jsonb, decimal, double, float, enum, foreignId,
    foreign, softDeletes, softDeletesTz, id, increments, bigIncrements, morphs, nullableMorphs,
    uuidMorphs, nullableUuidMorphs, relationship]

theorem mem_all (type : ColumnType) : type ∈ all := by
  cases type <;> decide

/-- The type of a spelling. -/
def ofName? (spelling : String) : Option ColumnType :=
  all.find? (·.name == spelling)

/-- Texts of any length. -/
def isText : ColumnType → Bool
  | text | mediumText | longText => true
  | _ => false

/-- The pair of creation and update times. -/
def isTimestampPair : ColumnType → Bool
  | timestamps | timestampsTz => true
  | _ => false

/-- Columns and constraints that point to another table. -/
def isForeignKey : ColumnType → Bool
  | foreignId | foreign => true
  | _ => false

/-- Deletion times. -/
def isSoftDelete : ColumnType → Bool
  | softDeletes | softDeletesTz => true
  | _ => false

/-- Primary keys that count up. -/
def isIdentity : ColumnType → Bool
  | id | increments | bigIncrements => true
  | _ => false

/-- Pairs of a type column and a key column. -/
def isMorph : ColumnType → Bool
  | morphs | nullableMorphs | uuidMorphs | nullableUuidMorphs => true
  | _ => false

/-- The name of a column whose attribute gives none. -/
def impliedName? : ColumnType → Option String
  | id | increments | bigIncrements => some "id"
  | timestamps | timestampsTz => some "timestamps"
  | softDeletes | softDeletesTz => some "deleted_at"
  | _ => none

end ColumnType

/-- What happens to a row when the row that it points to is deleted or changed. -/
inductive ReferentialAction where
  | cascade | restrict | setNull | noAction
  deriving DecidableEq, Repr

namespace ReferentialAction

/-- The spelling of an action. -/
def name : ReferentialAction → String
  | cascade => "cascade"
  | restrict => "restrict"
  | setNull => "set null"
  | noAction => "no action"

/-- Every referential action. -/
def all : List ReferentialAction :=
  [cascade, restrict, setNull, noAction]

/-- The action of a spelling. -/
def ofName? (spelling : String) : Option ReferentialAction :=
  all.find? (·.name == spelling)

end ReferentialAction

/-- The columns that the framework manages itself. -/
def systemColumns : List String :=
  ["id", "created_at", "updated_at", "deleted_at"]

end Scaffold
