import Scaffold.Attribute.Basic

/-!
# Column expressions

The call chain by which a migration creates the column of an attribute: the call of the type,
followed by the modifiers and, for a foreign key, by its constraint.
-/

namespace Scaffold.Attribute

/-- The call of a method of the table under construction. -/
def tableCall (method : String) (arguments : List String) : String :=
  "$table->" ++ method ++ "(" ++ ", ".intercalate arguments ++ ")"

/-- One link of a call chain. -/
def link (method : String) (arguments : List String) : String :=
  "->" ++ method ++ "(" ++ ", ".intercalate arguments ++ ")"

/-- A natural number as an argument. -/
def numberArgument (number : Option Nat) : String :=
  Decimal.writtenInt (number.getD 0)

/-- The arguments of the call that creates a column. -/
def columnArguments (attr : Attribute) : List String :=
  let name := Php.string attr.name
  match attr.type with
  | .string | .char =>
      match attr.length with
      | some length => [name, Decimal.writtenInt length]
      | none => [name]
  | .decimal | .double | .float =>
      [name, numberArgument attr.total, numberArgument attr.places]
  | .enum => [name, Php.stringArray (attr.options.getD [])]
  | .timestamps | .timestampsTz => []
  | .softDeletes | .softDeletesTz => if attr.name == "deleted_at" then [] else [name]
  | .id => if attr.name == "id" then [] else [name]
  | _ => [name]

/-- The call that creates a column, before its modifiers. -/
def baseCall (attr : Attribute) : String :=
  let call := tableCall attr.type.name attr.columnArguments
  if attr.type == .foreign then
    call ++ link "references" [Php.string (attr.references.getD "id")] ++
      link "on" [Php.string (attr.on.getD "")]
  else call

/-- The modifiers of a column. -/
def modifiers (attr : Attribute) : List String :=
  (if attr.nullable == some true then [link "nullable" []] else []) ++
    (if attr.unique == some true then [link "unique" []] else []) ++
    (match attr.default with
      | some value => [link "default" [value.literal]]
      | none => []) ++
    (match attr.after with
      | some column => if column.isEmpty then [] else [link "after" [Php.string column]]
      | none => [])

/-- The constraint of a foreign key column. -/
def constrained (attr : Attribute) : List String :=
  match attr.type, attr.on with
  | .foreignId, some table =>
      [link "constrained"
        (Php.string table :: (attr.references.map fun column => [Php.string column]).getD [])]
  | _, _ => []

/-- The referential actions of a constraint. -/
def actions (attr : Attribute) : List String :=
  let action := fun (method : String) (chosen : Option ReferentialAction) =>
    match chosen with
    | some value => [link method [Php.string value.name]]
    | none => []
  if attr.hasConstraint then
    action "onDelete" attr.onDelete ++ action "onUpdate" attr.onUpdate
  else []

/-- The call chain that creates the column of an attribute. -/
def expression (attr : Attribute) : String :=
  attr.baseCall ++
    String.join (attr.modifiers ++ attr.constrained ++ attr.actions)

end Scaffold.Attribute
