import Scaffold.Document.Describe

/-!
# Faults of values

A value of a document that has not the shape that its place asks for has a fault.  Each fault has a
wording and the name of its kind.
-/

namespace Scaffold.Document

/-- Why a value does not fit its place. -/
inductive Fault where
  | missing
  | unknownField
  | keyNotText
  | notText
  | illFormedText
  | emptyText
  | notList
  | notMapping
  | notInstance (model : String)
  | notBoolean
  | unreadableBoolean
  | notInteger
  | belowLeast (least : Nat)
  | notAction
  | duplicateOptions (options : List String)
  | emptyNamespace
  deriving DecidableEq, Repr

/-- The wording of a fault. -/
def Fault.message : Fault → String
  | .missing => "Field required"
  | .unknownField => "Extra inputs are not permitted"
  | .keyNotText => "Keys should be strings"
  | .notText => "Input should be a valid string"
  | .illFormedText =>
      "Input should be a valid string, unable to parse raw data as a unicode string"
  | .emptyText => "String should have at least 1 character"
  | .notList => "Input should be a valid list"
  | .notMapping => "Input should be a valid dictionary"
  | .notInstance model => "Input should be a valid dictionary or instance of " ++ model
  | .notBoolean => "Input should be a valid boolean"
  | .unreadableBoolean => "Input should be a valid boolean, unable to interpret input"
  | .notInteger => "Input should be a valid integer"
  | .belowLeast least =>
      "Input should be greater than or equal to " ++ Decimal.writtenInt least
  | .notAction => "Input should be 'cascade', 'restrict', 'set null' or 'no action'"
  | .duplicateOptions options =>
      "Value error, duplicate enum options: " ++ Text.quotedList options
  | .emptyNamespace => "Value error, namespace must not be empty"

/-- The name of the kind of a fault. -/
def Fault.kindName : Fault → String
  | .missing => "missing"
  | .unknownField => "extra_forbidden"
  | .keyNotText => "invalid_key"
  | .notText => "string_type"
  | .illFormedText => "string_unicode"
  | .emptyText => "string_too_short"
  | .notList => "list_type"
  | .notMapping => "dict_type"
  | .notInstance _ => "model_type"
  | .notBoolean => "bool_type"
  | .unreadableBoolean => "bool_parsing"
  | .notInteger => "int_type"
  | .belowLeast _ => "greater_than_equal"
  | .notAction => "enum"
  | .duplicateOptions _ => "value_error"
  | .emptyNamespace => "value_error"

/-- A step on the way to a value in a document. -/
inductive Step where
  | field (name : String)
  | position (index : Nat)
  /-- The entry of a mapping under a key that is no text. -/
  | key (key : Value)
  /-- The key of an entry, rather than its value. -/
  | keyItself

/-- A fault at a place in a document. -/
structure Issue where
  path : List Step
  fault : Fault

/-- A name as part of a dotted place; marks stand around one that has a dot itself. -/
def placeName (name : String) : String :=
  if name.toList.contains '.' then "\x60" ++ name ++ "\x60" else name

/-- A step as part of a dotted place. -/
def Step.text : Step → String
  | .field name => placeName name
  | .position index => Decimal.writtenInt index
  | .key (.bool value) => if value then "1" else "0"
  | .key (.illFormed codes) => placeName (Text.shownCodes codes)
  | .key value => placeName value.describe
  | .keyItself => "[key]"

/-- The lines of an issue; an issue of the whole document has no line for its place. -/
def Issue.lines (issue : Issue) : List String :=
  let place := ".".intercalate (issue.path.map Step.text)
  let line := "  " ++ issue.fault.message ++ " [type=" ++ issue.fault.kindName ++ "]"
  if issue.path.isEmpty then [line] else [place, line]

/-- The issues that a document has as an instance of a model. -/
structure ShapeError where
  model : String
  issues : List Issue

/-- The listing of all issues. -/
def ShapeError.message (error : ShapeError) : String :=
  let count := error.issues.length
  let head :=
    Decimal.writtenInt count ++ " validation error" ++ (if count = 1 then "" else "s") ++ " for " ++
      error.model
  "\n".intercalate (head :: error.issues.flatMap Issue.lines)

/-- The text of a value: a text itself, or bytes that encode one. -/
def textOf : Value → Except Fault String
  | .text value => .ok value
  | .bytes values =>
      match String.fromUTF8? ⟨values.toArray⟩ with
      | some value => .ok value
      | none => .error .illFormedText
  | .illFormed _ => .error .illFormedText
  | _ => .error .notText

/-- A text, possibly of a least length of one. -/
def readText (nonEmpty : Bool) (value : Value) : Except Fault String :=
  match textOf value with
  | .ok text => if nonEmpty && text.isEmpty then .error .emptyText else .ok text
  | .error fault => .error fault

/-- The items of a value that may stand for a list. -/
def itemsOf? : Value → Option (List Value)
  | .list items | .set items => some items
  | .pair first second => some [first, second]
  | _ => none

/-- A key as a text, if it stands for one. -/
def asTextKey (key : Value) : Value :=
  match textOf key with
  | .ok text => .text text
  | .error _ => key

/-- Entries under the texts that their keys stand for. -/
def withTextKeys (entries : Entries) : Entries :=
  entries.foldl (fun all (key, value) => Entries.insert all (asTextKey key) value) []

/-- A truth value, and nothing that could be read as one. -/
def readBool : Value → Except Fault Bool
  | .bool value => .ok value
  | _ => .error .notBoolean

/-- An integer that is at least `least`. -/
def readNatural (least : Nat) : Value → Except Fault Nat
  | .int value => if (least : Int) ≤ value then .ok value.toNat else .error (.belowLeast least)
  | _ => .error .notInteger

/-- A value that is absent or null, or is read by `read`. -/
def readOptional {α : Type} (read : Value → Except Fault α) : Option Value → Except Fault (Option α)
  | none | some .null => .ok none
  | some value => (read value).map some

end Scaffold.Document
