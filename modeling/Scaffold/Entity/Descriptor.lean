import Scaffold.Factory.Expression
import Scaffold.Log
import Scaffold.Module.Component
import Scaffold.Schema.Projection
import Scaffold.Schema.Record

/-!
# Entity descriptors

A descriptor holds all that the generated files of an entity are made of.  A component is compiled
into it step by step: attributes, relations, schema, relation methods and factory expressions.  The
first violation stops the compilation.  Targets that are not known are warnings, unless references
are strict.
-/

namespace Scaffold

/-- Why a component does not compile. -/
inductive CompileError where
  | violation (violation : Violation)
  | factory (error : FactoryError)
  deriving DecidableEq, Repr

/-- What the generated files of an entity are made of. -/
structure Descriptor where
  entity : String
  module : String
  table : String
  attributes : List Attribute
  schema : Schema
  fillable : List String
  methods : List RelationMethod
  factory : Keyed FactoryExpression
  rules : Keyed String
  warnings : List String

namespace Descriptor

/-- The declaration of the attributes that may be filled in bulk. -/
def fillableDeclaration (descriptor : Descriptor) : String :=
  "protected $fillable = " ++ Php.stringArray descriptor.fillable ++ ";"

/-- The imports of the model. -/
def modelImports (descriptor : Descriptor) : List String :=
  relationImports descriptor.methods

/-- The imports of the factory. -/
def factoryImports (descriptor : Descriptor) : List String :=
  distinct (descriptor.factory.flatMap fun (_, expression) => expression.imports)

/-- The imports of model and factory, each once. -/
def requiredImports (descriptor : Descriptor) : List String :=
  distinct (descriptor.modelImports ++ descriptor.factoryImports)

/-- The tables that the foreign keys of the entity point to. -/
def referencedTables (descriptor : Descriptor) : List String :=
  descriptor.attributes.filterMap fun attr => if attr.type.isForeignKey then attr.on else none

/-- The texts of a descriptor under the names by which templates know them. -/
def bundle (descriptor : Descriptor) : Keyed Document.Value :=
  let texts := fun (values : List String) => Document.Value.list (values.map .text)
  let method := fun (relation : RelationMethod) =>
    Document.Value.mapping
      [(.text "signature", .text relation.signature), (.text "body", .text relation.body)]
  let expression := fun (entry : String × FactoryExpression) =>
    (Document.Value.text entry.1, Document.Value.text entry.2.expression)
  [("fillableDeclaration", .text descriptor.fillableDeclaration),
    ("relationMethods", .list (descriptor.methods.map method)),
    ("requiredImports", texts descriptor.requiredImports),
    ("schemaLines", texts descriptor.schema.lines),
    ("syntheticFieldExpressions", .mapping (descriptor.factory.map expression))]

/-- A short description of a descriptor. -/
def describe (descriptor : Descriptor) : String :=
  "<EntityDescriptor " ++ descriptor.module ++ "/" ++ descriptor.entity ++ ": " ++
    Decimal.writtenInt descriptor.schema.columns.length ++ " columns, " ++
    Decimal.writtenInt descriptor.methods.length ++ " relations>"

end Descriptor

/-- A component whose records are all read and whose relations are resolved. -/
structure Draft where
  component : Component
  registry : Registry
  attributes : List Attribute
  relations : List Relation
  schema : Schema
  methods : List RelationMethod

namespace Draft

/-- The relations that placeholders stand for, in order. -/
def placeholderRelations (entity : Option String) : List Attribute → Except Violation (List Relation)
  | [] => .ok []
  | attr :: rest =>
      if attr.isPlaceholder then do
        let relation ← Relation.ofPlaceholder entity attr
        let others ← placeholderRelations entity rest
        return relation :: others
      else placeholderRelations entity rest

/-- Read the records of a component. -/
def ofComponent (registry : Registry) (component : Component) : Except Violation Draft := do
  let entity := some component.entity
  let attributes ← Attribute.ofRecords entity component.attributes
  Schema.checkDistinct entity attributes
  let inline ← placeholderRelations entity attributes
  let listed ← Relation.ofRecords entity component.relations
  let indexes ← Index.ofRecords entity 0 component.indexes
  let schema ← Schema.compile entity attributes indexes
  let relations := inline ++ listed
  let methods ← Relation.compileAll entity registry relations
  return { component, registry, attributes, relations, schema, methods }

/-- The warnings about unknown targets of relations. -/
def relationWarnings (draft : Draft) : List String :=
  draft.methods.filterMap (·.warning?)

/-- The warning about the unknown target of a factory expression. -/
def factoryWarning? (entity : String) (expression : FactoryExpression) : Option String :=
  (expression.target?.filter (!·.isResolved)).map fun target =>
    entity ++ "." ++ expression.field ++ ": factory target '" ++ target.name ++
      "' could not be resolved (" ++ target.reason ++ ")"

/-- The unknown targets of relations and factory expressions, in order. -/
def unresolvedTargets (methods : List RelationMethod) (factory : Keyed FactoryExpression) :
    List Target :=
  methods.filterMap (·.unresolved?) ++
    factory.filterMap fun (_, expression) => expression.target?.filter (!·.isResolved)

/-- The violation that an unknown target is when references are strict. -/
def unresolvedViolation (entity : String) (target : Target) : Violation :=
  let text :=
    "target model '" ++ target.name ++ "' could not be resolved (" ++ target.reason ++ ")"
  ⟨.stated .unresolvedTarget text, some entity, none, none⟩

/-- Complete a draft to a descriptor. -/
def finish (strict : Bool) (draft : Draft) : Except CompileError Descriptor :=
  let entity := draft.component.entity
  match Factory.expressions draft.registry draft.relations draft.attributes [] with
  | .error error => .error (.factory error)
  | .ok factory =>
      match strict, unresolvedTargets draft.methods factory with
      | true, target :: _ => .error (.violation (unresolvedViolation entity target))
      | _, _ =>
          .ok {
            entity
            module := draft.registry.module
            table := draft.component.table
            attributes := draft.attributes
            schema := draft.schema
            fillable := Schema.fillable draft.attributes
            methods := draft.methods
            factory
            rules := Schema.validationRules draft.attributes draft.component.table
            warnings :=
              draft.relationWarnings ++
                factory.filterMap fun (_, expression) => factoryWarning? entity expression }

end Draft

/-- Compile a component into a descriptor. -/
def Component.compile (registry : Registry) (strict : Bool) (component : Component) :
    Except CompileError Descriptor :=
  match Draft.ofComponent registry component with
  | .error violation => .error (.violation violation)
  | .ok draft => draft.finish strict

/-- What compiling a component logs: a warning for each relation whose target is not known. -/
def Component.compileLog (registry : Registry) (component : Component) : List LogRecord :=
  match Draft.ofComponent registry component with
  | .error _ => []
  | .ok draft => draft.relationWarnings.map (.warning .relations)

end Scaffold
