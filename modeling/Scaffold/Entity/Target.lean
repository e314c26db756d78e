import Scaffold.Decimal.Written

/-!
# Targets

A relation or a foreign key leads to a target: an entity of the same module, an entity of another
module, a model of the application, or a name that is not known.  A target says how the generated
code names its class.
-/

namespace Scaffold

/-- Where a target was found. -/
inductive Scope where
  /-- In the module itself. -/
  | sibling (module fullName : String)
  /-- In another module. -/
  | neighbour (module fullName : String)
  /-- Among the models of the application. -/
  | application (fullName : String)
  /-- Nowhere: the module that was searched, and how many others. -/
  | unknown (module : String) (others : Nat)
  deriving DecidableEq, Repr

/-- The outcome of looking up an entity name. -/
structure Target where
  /-- The short name of the class. -/
  name : String
  scope : Scope
  deriving DecidableEq, Repr

namespace Target

/-- The full name of the class of a known target. -/
def fullName? (target : Target) : Option String :=
  match target.scope with
  | .sibling _ fullName | .neighbour _ fullName | .application fullName => some fullName
  | .unknown _ _ => none

/-- The module of a target that belongs to one. -/
def module? (target : Target) : Option String :=
  match target.scope with
  | .sibling module _ | .neighbour module _ => some module
  | .application _ | .unknown _ _ => none

/-- Why a target is not known. -/
def reason? (target : Target) : Option String :=
  match target.scope with
  | .unknown module others =>
      some ("not found in module '" ++ module ++ "', " ++ Decimal.writtenInt others ++
        " other module(s) or the global models")
  | _ => none

/-- The reason of an unknown target as a part of a message. -/
def reason (target : Target) : String :=
  target.reason?.getD ""

/-- The target is a known class. -/
def isResolved (target : Target) : Bool :=
  target.fullName?.isSome

/-- The target belongs to the module itself. -/
def isSibling (target : Target) : Bool :=
  match target.scope with
  | .sibling _ _ => true
  | _ => false

/-- The name of the scope of a target in reports. -/
def scopeName (target : Target) : String :=
  match target.scope with
  | .sibling _ _ => "local"
  | .neighbour _ _ => "external"
  | .application _ => "global"
  | .unknown _ _ => "unresolved"

/-- The class expression inside a model: by full name outside the module, else by short name. -/
def classReference (target : Target) : String :=
  match target.scope with
  | .neighbour _ fullName | .application fullName => "\\" ++ fullName ++ "::class"
  | .sibling _ _ | .unknown _ _ => target.name ++ "::class"

/-- The import of a known class, or a remark to be reviewed for an unknown one. -/
def importLine (target : Target) : String :=
  match target.fullName? with
  | some fullName => "use " ++ fullName ++ ";"
  | none =>
      "// TODO: resolve the namespace of model '" ++ target.name ++ "' (" ++ target.reason ++ ")"

end Target

end Scaffold
