import Scaffold.Entity.Registry
import Scaffold.Php.Literal
import Scaffold.Relation.Record

/-!
# Relation methods

Each relation becomes a method of its entity's model.  The arguments of its call are positional up
to the first optional one that is left out; those after it are given by name, so no gap has to be
filled.
-/

namespace Scaffold

/-- An argument of the call that builds a relation. -/
inductive RelationArgument where
  | target (target : Target)
  | text (value : String)
  | named (parameter value : String)
  deriving DecidableEq, Repr

/-- An argument as the call spells it. -/
def RelationArgument.spelled : RelationArgument → String
  | .target found => found.classReference
  | .text value => Php.string value
  | .named parameter value => parameter ++ ": " ++ Php.string value

/-- The optional parameters of a call with the values that a relation gives. -/
def Relation.optionalArguments (relation : Relation) : List (String × Option String) :=
  match relation.kind with
  | .belongsTo => [("foreignKey", relation.foreignKey), ("ownerKey", relation.ownerKey)]
  | .hasOne | .hasMany => [("foreignKey", relation.foreignKey), ("localKey", relation.localKey)]
  | .morphToMany =>
      [("table", relation.table), ("foreignPivotKey", relation.foreignPivotKey),
        ("relatedPivotKey", relation.relatedPivotKey)]
  | .morphOne | .morphMany | .morphTo => []

/-- Every value by name. -/
def namedArguments (optional : List (String × Option String)) : List RelationArgument :=
  optional.filterMap fun (parameter, value) => value.map (.named parameter)

/-- Values by position up to the first that is left out, and by name after it. -/
def layoutArguments : List (String × Option String) → List RelationArgument
  | [] => []
  | (_, some value) :: rest => .text value :: layoutArguments rest
  | (_, none) :: rest => namedArguments rest

/-- The morph name of a relation: its own name unless it gives one. -/
def Relation.morph (relation : Relation) : String :=
  match relation.morphName with
  | some name => if name.isEmpty then relation.name else name
  | none => relation.name

/-- The call of a kind takes a morph name after the target. -/
def RelationKind.takesMorph : RelationKind → Bool
  | .morphOne | .morphMany | .morphToMany => true
  | _ => false

/-- The method of a relation. -/
structure RelationMethod where
  relation : Relation
  /-- The target, unless the relation leads to one of several. -/
  target : Option Target
  arguments : List RelationArgument
  /-- The entity whose model has the method. -/
  entity : Option String
  deriving DecidableEq, Repr

namespace RelationMethod

/-- Compile a relation of an entity. -/
def ofRelation (entity : Option String) (registry : Registry) (relation : Relation) :
    RelationMethod :=
  match relation.kind with
  | .morphTo => ⟨relation, none, [.text relation.morph], entity⟩
  | kind =>
      let target := registry.resolve (relation.model.getD "")
      let morph := if kind.takesMorph then [.text relation.morph] else []
      ⟨relation, some target, .target target :: morph ++ layoutArguments relation.optionalArguments,
        entity⟩

/-- The class of the relation that the method returns. -/
def returnType (method : RelationMethod) : String :=
  method.relation.kind.className

/-- The import of the class that the method returns. -/
def returnImport (method : RelationMethod) : String :=
  "use Illuminate\\Database\\Eloquent\\Relations\\" ++ method.returnType ++ ";"

/-- The head of the method. -/
def signature (method : RelationMethod) : String :=
  "public function " ++ method.relation.name ++ "(): " ++ method.returnType

/-- The statement of the method. -/
def body (method : RelationMethod) : String :=
  "return $this->" ++ method.relation.kind.name ++ "(" ++
    ", ".intercalate (method.arguments.map (·.spelled)) ++ ");"

/-- The comment above the method. -/
def docblock (method : RelationMethod) : String :=
  "/**\n * Get the " ++ method.relation.name ++ " associated with the " ++
    Text.nameOr method.entity "model" ++ ".\n */"

/-- The imports that the method needs in its model. -/
def imports (method : RelationMethod) : List String :=
  (match method.target with
    | some target => if target.isSibling || !target.isResolved then [target.importLine] else []
    | none => []) ++ [method.returnImport]

/-- The target of the method, if it is not known. -/
def unresolved? (method : RelationMethod) : Option Target :=
  method.target.filter (!·.isResolved)

/-- The warning about an unknown target. -/
def warning? (method : RelationMethod) : Option String :=
  method.unresolved?.map fun target =>
    Text.nameOr method.entity "<entity>" ++ "." ++ method.relation.name ++ ": target model '" ++
      target.name ++ "' could not be resolved (" ++ target.reason ++
      "); a placeholder reference was generated"

end RelationMethod

namespace Relation

/-- The first relation whose name another one has taken before. -/
def firstRepeated? (known : List String) : List Relation → Option Relation
  | [] => none
  | relation :: rest =>
      if known.contains relation.name then some relation
      else firstRepeated? (relation.name :: known) rest

/-- No two relations share a name. -/
def checkDistinct (entity : Option String) (relations : List Relation) : Except Violation Unit :=
  match firstRepeated? [] relations with
  | some relation => .error ⟨.relationRepeated, entity, some relation.name, some "name"⟩
  | none => .ok ()

/-- Compile relations of an entity in order. -/
def compileAll (entity : Option String) (registry : Registry) (relations : List Relation) :
    Except Violation (List RelationMethod) :=
  (checkDistinct entity relations).map fun _ =>
    relations.map (RelationMethod.ofRelation entity registry)

/-- Read relation records in order. -/
def ofRecords (entity : Option String) : List Document.Value → Except Violation (List Relation)
  | [] => .ok []
  | record :: rest => do
      let relation ← ofRecord entity record
      let others ← ofRecords entity rest
      return relation :: others

/--
Read relation records in order, where a name that is taken stops the reading before the records
after it are looked at.
-/
def ofDistinctRecords (entity : Option String) (known : List String) :
    List Document.Value → Except Violation (List Relation)
  | [] => .ok []
  | record :: rest => do
      let relation ← ofRecord entity record
      if known.contains relation.name then
        .error ⟨.relationRepeated, entity, some relation.name, some "name"⟩
      else
        let others ← ofDistinctRecords entity (relation.name :: known) rest
        return relation :: others

end Relation

/-- The imports of relation methods, each once. -/
def relationImports (methods : List RelationMethod) : List String :=
  distinct (methods.flatMap (·.imports))

end Scaffold
