import Scaffold.Keyed
import Scaffold.Relation.Method
import Scaffold.Text.Inflection

/-!
# Factory expressions

A factory fills each attribute of an entity with a made-up value.  The name of an attribute decides
first, then a foreign key is filled from the factory of its target, and otherwise the type decides.
Identities, timestamps and morph pairs are left to the framework.
-/

namespace Scaffold

/-- The rule that gave a factory expression. -/
inductive FactoryRule where
  /-- The name of the attribute holds a word. -/
  | byName (word : String)
  /-- The attribute points to another entity. -/
  | byTarget (target : Target)
  /-- The type of the attribute belongs to a group. -/
  | byType (group : String)
  /-- No other rule applies. -/
  | byDefault
  deriving DecidableEq, Repr

/-- The expression that fills an attribute. -/
structure FactoryExpression where
  field : String
  rule : FactoryRule
  expression : String
  deriving DecidableEq, Repr

/-- A number of a factory lies beyond the largest double. -/
inductive FactoryError where
  | numberTooLarge
  deriving DecidableEq, Repr

namespace FactoryExpression

/-- The name of the rule that gave an expression. -/
def strategy (expression : FactoryExpression) : String :=
  match expression.rule with
  | .byName word => "name:" ++ word
  | .byTarget _ => "foreign"
  | .byType group => "type:" ++ group
  | .byDefault => "fallback"

/-- The entity that an expression refers to. -/
def target? (expression : FactoryExpression) : Option Target :=
  match expression.rule with
  | .byTarget target => some target
  | _ => none

/-- The imports that an expression needs. -/
def imports (expression : FactoryExpression) : List String :=
  expression.target?.toList.map (·.importLine)

end FactoryExpression

namespace Factory

/-- A call of the generator of made-up values. -/
def faker (call : String) : String :=
  "$this->faker->" ++ call

/-- Words in names with the calls that they ask for, in the order in which they are looked for. -/
def nameWords : List (String × String) :=
  [("email", faker "unique()->safeEmail()"), ("password", faker "password()"),
    ("title", faker "sentence()"), ("name", faker "name()"), ("slug", faker "name()")]

/-- The first of the words that occurs in a name. -/
def nameWord? (name : String) : Option (String × String) :=
  nameWords.find? fun (word, _) => Text.occursIn word.toList (Text.lowered name.toList)

/-- The attribute is left to the framework. -/
def isSkipped (attr : Attribute) : Bool :=
  attr.type.isIdentity || attr.type.isTimestampPair || attr.type.isSoftDelete ||
    attr.type.isMorph || attr.isPlaceholder || systemColumns.contains attr.name

/-- The largest number with given digits and decimal places, as the nearest double. -/
def largestNumber? (total places : Nat) : Option Decimal.Double :=
  Decimal.Double.ofQuotient? false (Decimal.power 10 total - 1)
    (Decimal.power 10 places)

/-- The expression of a number with decimal places. -/
def decimalExpression (attr : Attribute) : Except FactoryError String :=
  let places := attr.places.getD 2
  match largestNumber? (attr.total.getD 8) places with
  | none => .error .numberTooLarge
  | some upper =>
      .ok (faker ("randomFloat(" ++ Decimal.writtenInt places ++ ", 0, " ++
        Decimal.writtenDouble upper ++ ")"))

/-- The group and the expression of a type. -/
def typeExpression (attr : Attribute) : Except FactoryError (FactoryRule × String) :=
  match attr.type with
  | .text | .mediumText | .longText => .ok (.byType "text", faker "paragraph()")
  | .integer | .tinyInteger | .smallInteger | .mediumInteger | .bigInteger | .unsignedInteger
  | .unsignedBigInteger => .ok (.byType "integer", faker "randomNumber()")
  | .date | .dateTime | .time | .timestamp | .year => .ok (.byType "date", faker "dateTime()")
  | .decimal | .double | .float =>
      (decimalExpression attr).map fun expression => (.byType "decimal", expression)
  | .json | .jsonb =>
      .ok (.byType "json",
        "json_encode([" ++ faker "word()" ++ " => " ++ faker "word()" ++ "])")
  | .boolean => .ok (.byType "boolean", faker "boolean()")
  | .uuid => .ok (.byType "uuid", faker "uuid()")
  | .enum =>
      .ok (.byType "enum",
        faker ("randomElement(" ++ Php.stringArray (attr.options.getD []) ++ ")"))
  | _ => .ok (.byDefault, faker "word()")

/-- The model of a relation, unless it is absent or empty. -/
def modelOf? (relation : Relation) : Option String :=
  relation.model.filter (!·.isEmpty)

/-- A relation gives a column as its foreign key. -/
def namesColumn (column : String) (relation : Relation) : Bool :=
  (modelOf? relation).isSome && relation.foreignKey == some column

/-- The conventional key of a relation to its owner is a column. -/
def impliesColumn (column : String) (relation : Relation) : Bool :=
  relation.kind == .belongsTo && (modelOf? relation).isSome &&
    Text.snakeCase relation.name ++ "_id" == column

/-- A name without `_id` at its end. -/
def withoutKeySuffix (name : String) : String :=
  let characters := name.toList
  if "_id".toList.isSuffixOf characters then String.ofList (Text.dropEnd characters 3) else name

/--
The entity that a foreign key points to: by a relation that gives the column as its foreign key,
else by a relation to an owner whose conventional key it is, else by the constrained table, else by
the name of the column.
-/
def targetName (relations : List Relation) (attr : Attribute) : String :=
  let related := relations.find? (namesColumn attr.name) <|>
    relations.find? (impliesColumn attr.name)
  match related.bind modelOf? with
  | some model => model
  | none =>
      match attr.on.filter (!·.isEmpty) with
      | some table => Text.modelName table
      | none => Text.studlyCase (withoutKeySuffix attr.name)

/-- The expression of an attribute, unless it is left to the framework. -/
def expression? (registry : Registry) (relations : List Relation) (attr : Attribute) :
    Except FactoryError (Option FactoryExpression) :=
  if isSkipped attr then .ok none
  else
    match nameWord? attr.name with
    | some (word, call) => .ok (some ⟨attr.name, .byName word, call⟩)
    | none =>
        if attr.type.isForeignKey then
          let target := registry.resolve (targetName relations attr)
          .ok (some ⟨attr.name, .byTarget target, target.name ++ "::factory()"⟩)
        else
          (typeExpression attr).map fun (rule, expression) =>
            some ⟨attr.name, rule, expression⟩

/--
The expressions of all attributes under their names; a later attribute of the same name gives the
expression that counts.
-/
def expressions (registry : Registry) (relations : List Relation) :
    List Attribute → Keyed FactoryExpression → Except FactoryError (Keyed FactoryExpression)
  | [], found => .ok found
  | attr :: rest, found => do
      match ← expression? registry relations attr with
      | some expression =>
          expressions registry relations rest (Keyed.put found attr.name expression)
      | none => expressions registry relations rest found

end Factory

end Scaffold
