import Scaffold.Column.Expression
import Scaffold.Index.Basic
import Scaffold.Violation

/-!
# Schemas

The schema of an entity is the body of its migration: an identity unless one is declared, the
declared columns in order, the creation and update times unless they are declared, and the indexes.
An index that a column has by its own definition, or that was asked for before, is left out.
-/

namespace Scaffold

/-- A line of a schema that creates columns or a constraint. -/
structure Column where
  name : String
  type : ColumnType
  expression : String
  /-- The line was not declared. -/
  synthetic : Bool := false
  deriving DecidableEq, Repr

/-- Why an index request gives no line. -/
inductive Elision where
  | repeated (index : Index)
  | implied (index : Index)
  deriving DecidableEq, Repr

/-- The description of an index request that gives no line. -/
def Elision.describe : Elision → String
  | .repeated index =>
      index.kind.name ++ "(" ++ ", ".intercalate index.columns ++ "): duplicate request"
  | .implied index =>
      index.kind.name ++ "(" ++ ", ".intercalate index.columns ++
        "): implied by the column definition"

/-- The lines of a migration. -/
structure Schema where
  columns : List Column
  indexes : List Index
  elided : List Elision
  deriving DecidableEq, Repr

/-- The expression that creates an index. -/
def Index.expression (index : Index) : String :=
  let target :=
    match index.columns with
    | [column] => Php.string column
    | columns => Php.stringArray columns
  Attribute.tableCall index.kind.method [target]

/-- The lines of a schema as statements. -/
def Schema.lines (schema : Schema) : List String :=
  schema.columns.map (·.expression ++ ";") ++ schema.indexes.map (·.expression ++ ";")

/-- The names of the lines that create columns. -/
def Schema.columnNames (schema : Schema) : List String :=
  schema.columns.map (·.name)

namespace Schema

/-- The columns of the creation and update times. -/
def timestampColumns : List String :=
  ["created_at", "updated_at"]

/-- The attributes that have columns or constraints. -/
def declared (attributes : List Attribute) : List Attribute :=
  attributes.filter (!·.isPlaceholder)

/-- An identity column or a column `id` is declared. -/
def declaresIdentity (attributes : List Attribute) : Bool :=
  (declared attributes).any fun attr => attr.type.isIdentity || attr.name == "id"

/-- Which of the creation and update times are declared as columns of their own. -/
def declaredTimestamps (attributes : List Attribute) : List String :=
  timestampColumns.filter fun column => (declared attributes).any (·.name == column)

/-- The creation and update times are declared, as a pair or one by one. -/
def declaresTimestamps (attributes : List Attribute) : Bool :=
  (declared attributes).any (·.type.isTimestampPair) ||
    declaredTimestamps attributes == timestampColumns

/-- The first attribute whose name another one of its group has taken before. -/
def firstRepeated? (columns constraints : List String) : List Attribute → Option Attribute
  | [] => none
  | attr :: rest =>
      if attr.type.isTimestampPair then firstRepeated? columns constraints rest
      else if attr.type == .foreign then
        if constraints.contains attr.name then some attr
        else firstRepeated? columns (attr.name :: constraints) rest
      else if columns.contains attr.name then some attr
      else firstRepeated? (attr.name :: columns) constraints rest

/--
No attribute is declared twice.  A constraint may share its name with the column that it constrains,
and a pair of timestamps has no name of its own.
-/
def checkDistinct (entity : Option String) (attributes : List Attribute) : Except Violation Unit :=
  match firstRepeated? [] [] attributes with
  | some attr => .error ⟨.attributeRepeated, entity, some attr.name, some "name"⟩
  | none => .ok ()

/-- The identity column of a schema that declares none. -/
def syntheticIdentity (attributes : List Attribute) : List Column :=
  if declaresIdentity attributes then [] else [⟨"id", .id, Attribute.tableCall "id" [], true⟩]

/-- The line of a declared attribute. -/
def declaredColumn (attr : Attribute) : Column :=
  ⟨attr.name, attr.type, attr.expression, false⟩

/-- A nullable creation or update time whose partner is declared. -/
def lonelyTimestamp (column : String) : Column :=
  ⟨column, .timestamp,
    Attribute.tableCall "timestamp" [Php.string column] ++ Attribute.link "nullable" [], true⟩

/-- The creation and update times that a schema does not declare. -/
def syntheticTimestamps (attributes : List Attribute) : List Column :=
  if declaresTimestamps attributes then []
  else
    match declaredTimestamps attributes with
    | [] => [⟨"timestamps", .timestamps, Attribute.tableCall "timestamps" [], true⟩]
    | present => (timestampColumns.filter (!present.contains ·)).map lonelyTimestamp

/-- The columns that an index may name for a declared attribute. -/
def indexable (attr : Attribute) : List String :=
  if attr.type.isTimestampPair then timestampColumns
  else if attr.type.isMorph then attr.morphColumns
  else [attr.name]

/-- All columns that an index may name. -/
def indexableColumns (attributes : List Attribute) : List String :=
  (if declaresIdentity attributes then [] else ["id"]) ++
    (declared attributes).flatMap indexable ++
    (if declaresTimestamps attributes then [] else timestampColumns)

/-- The kinds of index that a column has by the definition of an attribute. -/
def impliedBy (attr : Attribute) : List IndexKind :=
  (if attr.type.isIdentity then [.primary, .unique, .index] else []) ++
    (if attr.unique == some true then [.unique, .index] else []) ++
    (if attr.hasConstraint then [.index] else [])

/-- A column has an index of a kind by its own definition. -/
def isImplied (attributes : List Attribute) (column : String) (kind : IndexKind) : Bool :=
  (!declaresIdentity attributes && column == "id" && [.primary, .unique, .index].contains kind) ||
    (declared attributes).any fun attr =>
      attr.name == column && (impliedBy attr).contains kind

/-- The one column of an index, unless it is composite. -/
def singleColumn? (index : Index) : Option String :=
  match index.columns with
  | [column] => some column
  | _ => none

/-- What becomes of an index request after earlier ones. -/
def elision? (attributes : List Attribute) (earlier : List Index) (index : Index) :
    Option Elision :=
  if earlier.contains index then some (.repeated index)
  else if (singleColumn? index).any (isImplied attributes · index.kind) then some (.implied index)
  else none

/-- The columns of a request that the schema does not have. -/
def unknownColumns (attributes : List Attribute) (index : Index) : List String :=
  index.columns.filter (!(indexableColumns attributes).contains ·)

/--
Sort index requests into those that give a line and those that are left out, the first violation
stopping it.
-/
def placeIndexes (entity : Option String) (attributes : List Attribute) :
    Nat → List Index → List Index → Except Violation (List Index × List Elision)
  | _, _, [] => .ok ([], [])
  | position, earlier, index :: rest =>
      match unknownColumns attributes index with
      | [] =>
          (placeIndexes entity attributes (position + 1) (index :: earlier) rest).map
            fun (kept, elided) =>
              match elision? attributes earlier index with
              | some elision => (kept, elision :: elided)
              | none => (index :: kept, elided)
      | unknown =>
          .error ⟨.indexColumnsUnknown unknown, entity, some (Index.subject position),
            some "columns"⟩

/-- The lines that create columns, in the order of the migration. -/
def columnLines (attributes : List Attribute) : List Column :=
  syntheticIdentity attributes ++ (declared attributes).map declaredColumn ++
    syntheticTimestamps attributes

/-- Compile attributes and index requests into a schema. -/
def compile (entity : Option String) (attributes : List Attribute) (indexes : List Index) :
    Except Violation Schema := do
  checkDistinct entity attributes
  let (kept, elided) ← placeIndexes entity attributes 0 [] indexes
  return ⟨columnLines attributes, kept, elided⟩

end Schema

end Scaffold
