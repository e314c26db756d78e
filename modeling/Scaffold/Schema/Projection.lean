import Scaffold.Keyed
import Scaffold.Schema.Basic

/-!
# Projections of attributes

The model of an entity lists the attributes that may be filled in bulk, and its form request says by
rules which values they take.
-/

namespace Scaffold.Schema

/-- Attributes of a type may be filled in bulk. -/
def isFillableType (type : ColumnType) : Bool :=
  !(type.isIdentity || type.isTimestampPair || type.isSoftDelete || type.isForeignKey ||
    type == .relationship)

/-- The columns that a constraint of their own constrains. -/
def constrainedColumns (attributes : List Attribute) : List String :=
  (attributes.filter (·.type == .foreign)).map (·.name)

/-- The columns that an attribute lets fill in bulk. -/
def fillableOf (constrained : List String) (attr : Attribute) : List String :=
  if !isFillableType attr.type || systemColumns.contains attr.name ||
      constrained.contains attr.name then []
  else if attr.type.isMorph then attr.morphColumns
  else [attr.name]

/-- The columns that may be filled in bulk, each once, in the order of declaration. -/
def fillable (attributes : List Attribute) : List String :=
  distinct (attributes.flatMap (fillableOf (constrainedColumns attributes)))

/-- The rules of a form request for the type of an attribute. -/
def typeRules (attr : Attribute) : List String :=
  match attr.type with
  | .string | .char => ["string", "max:" ++ Decimal.writtenInt (attr.length.getD 255)]
  | .text | .mediumText | .longText => ["string"]
  | .uuid => ["uuid"]
  | .year | .integer | .tinyInteger | .smallInteger | .mediumInteger | .bigInteger
  | .unsignedInteger | .unsignedBigInteger => ["integer"]
  | .boolean => ["boolean"]
  | .time => ["date_format:H:i:s"]
  | .date | .dateTime | .timestamp => ["date"]
  | .json | .jsonb => ["array"]
  | .decimal | .double | .float => ["numeric"]
  | .enum => ["in:" ++ ",".intercalate (attr.options.getD [])]
  | .foreignId =>
      match attr.on with
      | some table =>
          ["integer", "exists:" ++ table ++ "," ++ attr.references.getD "id"]
      | none => ["integer"]
  | _ => []

/-- Whether a request must, may or may not give a value. -/
def presenceRule (attr : Attribute) : String :=
  if attr.nullable == some true then "nullable"
  else if attr.default.isSome then "sometimes"
  else "required"

/-- All rules of a form request for an attribute of a table. -/
def requestRules (table : String) (attr : Attribute) : List String :=
  presenceRule attr :: typeRules attr ++
    (if attr.unique == some true then ["unique:" ++ table ++ "," ++ attr.name] else [])

/-- A form request has rules for an attribute. -/
def isRequested (fillable : List String) (attr : Attribute) : Bool :=
  !attr.type.isMorph &&
    (fillable.contains attr.name || attr.type == .foreignId)

/-- The rules of a form request under the names of their fields. -/
def validationRules (attributes : List Attribute) (table : String) : Keyed String :=
  let requested := attributes.filter (isRequested (fillable attributes))
  Keyed.ofList (requested.map fun attr =>
    (attr.name, "|".intercalate (requestRules table attr)))

end Scaffold.Schema
