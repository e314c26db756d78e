import Scaffold.Module.Config
import Scaffold.Module.Definition
import Scaffold.Schema.Record
import Scaffold.Relation.Method
import Scaffold.Text.Words

/-!
# Reviews

A review reports every problem of a module definition at once: its name, the names of its entities
and, on request, all records of its components.  It consists of findings in order, and it passes
when none of them is an error.
-/

namespace Scaffold

open Scaffold.Document (Entries Value)

/-- How grave a finding is. -/
inductive FindingLevel where
  | error
  | warning
  | info
  deriving DecidableEq, Repr

/-- The name of a level. -/
def FindingLevel.name : FindingLevel → String
  | .error => "error"
  | .warning => "warning"
  | .info => "info"

/-- The name of a level in capitals. -/
def FindingLevel.title : FindingLevel → String
  | .error => "ERROR"
  | .warning => "WARNING"
  | .info => "INFO"

/-- The sign of a level in a listing. -/
def FindingLevel.sign : FindingLevel → String
  | .error => "✗"
  | .warning => "⚠"
  | .info => "ℹ"

/-- One thing that a review found. -/
structure Finding where
  level : FindingLevel
  code : String
  message : String
  context : Entries := []

/-- A finding in one line. -/
def Finding.describe (finding : Finding) : String :=
  "[" ++ finding.level.title ++ "] " ++ finding.code ++ ": " ++ finding.message

/-- A text or null as a value. -/
def textOrNull (text : Option String) : Value :=
  (text.map .text).getD .null

/-- The finding that a violation is. -/
def Finding.ofViolation (violation : Violation) : Finding :=
  let code := violation.rule.kind.code
  ⟨.error, code, violation.message,
    [(.text "code", .text code), (.text "entity", textOrNull violation.entity),
      (.text "subject", textOrNull violation.subject),
      (.text "field", textOrNull violation.field), (.text "rule", .text violation.rule.text)]⟩

/-- The findings of a review in order. -/
abbrev Review := List Finding

namespace Review

/-- The findings that are errors. -/
def errors (review : Review) : List Finding :=
  review.filter (·.level == .error)

/-- The findings that are warnings. -/
def warnings (review : Review) : List Finding :=
  review.filter (·.level == .warning)

/-- A review passes when it has no errors. -/
def passes (review : Review) : Bool :=
  (errors review).isEmpty

/-- The numbers of errors, of warnings and of all findings. -/
def summary (review : Review) : String :=
  "Validation: " ++ Decimal.writtenInt (errors review).length ++ " error(s), " ++
    Decimal.writtenInt (warnings review).length ++ " warning(s), " ++
    Decimal.writtenInt review.length ++ " total item(s)."

/-- A short description of a review. -/
def describe (review : Review) : String :=
  "<ValidationResult " ++ summary review ++ ">"

/-- The listing of a review, with or without remarks. -/
def listing (review : Review) (remarks : Bool) : String :=
  let shown := review.filter fun finding => remarks || finding.level != .info
  "\n".intercalate (summary review :: "" ::
    shown.map fun finding =>
      "  " ++ finding.level.sign ++ " [" ++ finding.code ++ "] " ++ finding.message)

end Review

/-- Words that PHP does not accept as the name of a class. -/
def reservedWords : List String :=
  ["abstract", "and", "array", "as", "break", "callable", "case", "catch", "class", "clone", "const",
    "continue", "declare", "default", "do", "echo", "else", "elseif", "empty", "enddeclare",
    "endfor", "endforeach", "endif", "endswitch", "endwhile", "enum", "eval", "exit", "extends",
    "final", "finally", "fn", "for", "foreach", "function", "global", "goto", "if", "implements",
    "include", "instanceof", "insteadof", "interface", "isset", "list", "match", "namespace", "new",
    "or", "print", "private", "protected", "public", "readonly", "require", "return", "static",
    "switch", "throw", "trait", "try", "unset", "use", "var", "while", "xor", "yield", "int",
    "float", "bool", "string", "true", "false", "null", "void", "iterable", "object", "mixed",
    "never"]

/-- A name without regard to case. -/
def foldedName (name : String) : String :=
  String.ofList (Text.lowered name.toList)

/-- A class name that PHP reserves. -/
def isReserved (name : String) : Bool :=
  reservedWords.contains (foldedName name)

/-- A class name: a capital followed by letters and digits. -/
def isClassName (name : String) : Bool :=
  match name.toList with
  | first :: rest => first.isUpper && rest.all Char.isAlphanum
  | [] => false

/-- A column name in the usual spelling: small words joined by single underscores. -/
def isColumnName (name : String) : Bool :=
  match Text.withoutLineEnd name.toList with
  | first :: rest =>
      first.isLower && rest.all (fun c => c.isLower || c.isDigit || c == '_') &&
        !Text.occursIn ['_', '_'] rest && rest.getLast? != some '_'
  | [] => false

namespace ModuleDefinition

/-- What the name of a module gives rise to. -/
def reviewName (definition : ModuleDefinition) : Review :=
  let name := definition.name
  let context := [(Value.text "module", Value.text name)]
  let studly := definition.studlyName
  if !isClassName studly then
    [⟨.error, "INVALID_MODULE_NAME",
      "Module name '" ++ name ++ "' cannot be turned into a namespace segment.", context⟩]
  else
    (if isReserved studly then
      [⟨.error, "MODULE_NAME_RESERVED", "Module name '" ++ name ++ "' is a PHP reserved word.",
        context⟩]
    else []) ++
      (if studly != name then
        [⟨.info, "MODULE_NAME_NORMALISED",
          "Module name '" ++ name ++ "' will be used as '" ++ studly ++ "'.", context⟩]
      else [])

/-- What the name of an entity gives rise to, after the entities known by their given names. -/
def reviewEntity (definition : ModuleDefinition) (known : Keyed String) (component : Component) :
    Review :=
  let name := component.name
  let entity := component.entity
  let context :=
    [(Value.text "module", Value.text definition.name), (Value.text "entity", Value.text name)]
  if !isClassName entity then
    [⟨.error, "INVALID_ENTITY_NAME", "Entity name '" ++ name ++ "' is not a valid class name.",
      context⟩]
  else
    (match Keyed.get? known entity with
      | some earlier =>
          [⟨.error, "DUPLICATE_ENTITY_NAME",
            "Entity '" ++ entity ++ "' is declared more than once ('" ++ earlier ++ "' and '" ++
              name ++ "').", context⟩]
      | none => []) ++
      (if isReserved entity then
        [⟨.error, "ENTITY_NAME_RESERVED", "Entity name '" ++ name ++ "' is a PHP reserved word.",
          context⟩]
      else []) ++
      (if foldedName entity == foldedName definition.studlyName &&
          definition.components.length > 1 then
        [⟨.info, "ENTITY_NAMED_AFTER_MODULE",
          "Entity '" ++ entity ++ "' shares the module's name.", context⟩]
      else [])

/-- What the names of entities give rise to, in order. -/
def reviewEntities (definition : ModuleDefinition) (known : Keyed String) :
    List Component → Review
  | [] => []
  | component :: rest =>
      let next :=
        if !isClassName component.entity || Keyed.has known component.entity then known
        else Keyed.put known component.entity component.name
      definition.reviewEntity known component ++ definition.reviewEntities next rest

/-- What the list of entities gives rise to. -/
def reviewNames (definition : ModuleDefinition) : Review :=
  if definition.components.isEmpty then
    [⟨.error, "NO_COMPONENTS", "Module '" ++ definition.name ++ "' declares no components.",
      [(.text "module", .text definition.name)]⟩]
  else definition.reviewEntities [] definition.components

end ModuleDefinition

namespace Component

/-- What a repeated attribute name gives rise to. -/
def reviewRepeated (entity : String) (attr : Attribute) : Review :=
  [⟨.error, ViolationKind.illegalField.code,
    entity ++ "." ++ attr.name ++ ": attribute declared more than once",
    [(.text "entity", .text entity), (.text "field", .text "name")]⟩]

/-- What the spelling of an attribute name gives rise to. -/
def reviewSpelling (entity : String) (attr : Attribute) : Review :=
  if isColumnName attr.name then []
  else
    [⟨.warning, "ATTRIBUTE_NAME_NOT_SNAKE_CASE",
      entity ++ "." ++ attr.name ++ ": column names are usually snake_case.",
      [(.text "entity", .text entity)]⟩]

/-- What attribute records give rise to, after the names of columns and constraints before them. -/
def reviewAttributes (entity : String) (columns constraints : List String) :
    List Value → Review
  | [] => []
  | record :: rest =>
      match Attribute.ofRecord (some entity) record with
      | .error violation =>
          Finding.ofViolation violation :: reviewAttributes entity columns constraints rest
      | .ok attr =>
          let isConstraint := attr.type == .foreign
          let taken := if isConstraint then constraints else columns
          (if taken.contains attr.name && !attr.type.isTimestampPair then
            reviewRepeated entity attr
          else []) ++ reviewSpelling entity attr ++
            (if isConstraint then
              reviewAttributes entity columns (attr.name :: constraints) rest
            else reviewAttributes entity (attr.name :: columns) constraints rest)

/-- The findings of readings that fail. -/
def reviewReadings {α : Type} (readings : List (Except Violation α)) : Review :=
  readings.filterMap fun reading =>
    match reading with
    | .error violation => some (Finding.ofViolation violation)
    | .ok _ => none

/-- What the records of a component give rise to. -/
def reviewRecords (component : Component) : Review :=
  let entity := component.entity
  reviewAttributes entity [] [] component.attributes ++
    reviewReadings (component.relations.map (Relation.ofRecord (some entity))) ++
    reviewReadings (component.indexes.mapIdx (Index.ofRecord (some entity)))

end Component

/-- Review a module definition, with or without the records of its components. -/
def ModuleDefinition.review (definition : ModuleDefinition) (config : Option Config)
    (withRecords : Bool) : Review :=
  definition.reviewName ++ definition.reviewNames ++
    (if withRecords then definition.components.flatMap (·.reviewRecords) else []) ++
    (if config.any (·.strictReferences) then
      [⟨.info, "STRICT_REFERENCES", "Unresolved model references will fail their entity.", []⟩]
    else [])

end Scaffold
