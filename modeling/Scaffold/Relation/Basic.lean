import Scaffold.Document.Value

/-!
# Relations

A relation leads from an entity to another one, or to one of several through a morph.  The closed
table of this module says which fields a relation of each kind may carry and which it must.
-/

namespace Scaffold

/-- The kinds of relations. -/
inductive RelationKind where
  | belongsTo | hasOne | hasMany | morphOne | morphMany | morphTo | morphToMany
  deriving DecidableEq, Repr

namespace RelationKind

/-- The spelling of a kind, which is also the method that builds the relation. -/
def name : RelationKind → String
  | belongsTo => "belongsTo"
  | hasOne => "hasOne"
  | hasMany => "hasMany"
  | morphOne => "morphOne"
  | morphMany => "morphMany"
  | morphTo => "morphTo"
  | morphToMany => "morphToMany"

/-- Every kind of relation. -/
def all : List RelationKind :=
  [belongsTo, hasOne, hasMany, morphOne, morphMany, morphTo, morphToMany]

/-- The kind of a spelling. -/
def ofName? (spelling : String) : Option RelationKind :=
  all.find? (·.name == spelling)

/-- The class of the relations of a kind. -/
def className : RelationKind → String
  | belongsTo => "BelongsTo"
  | hasOne => "HasOne"
  | hasMany => "HasMany"
  | morphOne => "MorphOne"
  | morphMany => "MorphMany"
  | morphTo => "MorphTo"
  | morphToMany => "MorphToMany"

/-- The fields beside name and type that a relation of a kind may carry. -/
def optionalFields : RelationKind → List String
  | belongsTo => ["model", "foreignKey", "ownerKey"]
  | hasOne | hasMany => ["model", "foreignKey", "localKey"]
  | morphOne | morphMany => ["model", "morphName"]
  | morphToMany => ["model", "morphName", "table", "foreignPivotKey", "relatedPivotKey"]
  | morphTo => ["morphName"]

/-- A relation of a kind may carry a field. -/
def allows (kind : RelationKind) (field : String) : Bool :=
  field == "name" || field == "type" || kind.optionalFields.contains field

/-- The fields that a relation of a kind must carry, in alphabetical order. -/
def requiredFields : RelationKind → List String
  | belongsTo | hasOne | hasMany => ["model"]
  | morphOne | morphMany | morphToMany => ["model", "morphName"]
  | morphTo => []

end RelationKind

/-- A validated relation. -/
structure Relation where
  name : String
  kind : RelationKind
  model : Option String := none
  foreignKey : Option String := none
  localKey : Option String := none
  ownerKey : Option String := none
  morphName : Option String := none
  table : Option String := none
  foreignPivotKey : Option String := none
  relatedPivotKey : Option String := none
  deriving DecidableEq, Repr

/-- A short description of a relation. -/
def Relation.describe (relation : Relation) : String :=
  "<RelationSpec " ++ relation.name ++ ": " ++ relation.kind.name ++ " " ++
    relation.model.getD "" ++ ">"

end Scaffold
