import Scaffold.Disk.Tree
import Scaffold.Document.Json
import Scaffold.Document.Yaml.Read

/-!
# Document files

A document is read from a file whose extension names its format, JSON or YAML.  A file with another
extension is read as JSON if that is possible, and else as YAML.
-/

namespace Scaffold.Document

open Scaffold.Disk (DiskError Path Tree)

/-- The formats of document files. -/
inductive Format where
  | json
  | yaml
  deriving DecidableEq, Repr

/-- The name of a format. -/
def Format.name : Format → String
  | .json => "JSON"
  | .yaml => "YAML"

/-- What a document is called in a format. -/
def Format.documentName : Format → String
  | .json => "JSON object"
  | .yaml => "YAML mapping"

/-- Why a document cannot be read from a file. -/
inductive FileError where
  | missing (path : Path)
  | notFile (path : Path)
  | disk (error : DiskError)
  | malformed (format : Format) (path : Path)
  | notMapping (format : Format) (kind : String)
  /-- A number of a JSON text has too many digits. -/
  | numberTooLong (digits : Nat)
  | scalar (error : Yaml.ScalarError)
  | defect (defect : Yaml.ScalarDefect)
  deriving DecidableEq, Repr

/-- The wording of an error, as far as it has one. -/
def FileError.message? : FileError → Option String
  | .missing path => some ("Module file not found: " ++ path.text)
  | .notFile path => some ("Module path is not a file: " ++ path.text)
  | .disk .notText => some DiskError.notText.message
  | .disk _ => none
  | .malformed format path => some ("Invalid " ++ format.name ++ " in " ++ path.text)
  | .notMapping format kind =>
      some ("Expected a " ++ format.documentName ++ " at top level, got " ++ kind ++ ".")
  | .numberTooLong digits => some (Decimal.tooLongMessage digits)
  | .scalar error => some error.message
  | .defect _ => none

/-- The entries of a document, which has to be a mapping. -/
def entriesOf (format : Format) (value : Value) : Except FileError Entries :=
  match value.content with
  | .mapping entries => .ok entries
  | other => .error (.notMapping format other.kindName)

/-- Read a document from the text of a file in a format. -/
def ofText (format : Format) (path : Path) (text : String) : Except FileError Entries :=
  match format with
  | .json =>
      match Json.read text with
      | .ok value => entriesOf .json value
      | .error .malformed => .error (.malformed .json path)
      | .error (.tooLong digits) => .error (.numberTooLong digits)
  | .yaml =>
      match Yaml.read text with
      | .ok value => entriesOf .yaml value
      | .error .invalid => .error (.malformed .yaml path)
      | .error (.scalar error) => .error (.scalar error)
      | .error (.defect defect) => .error (.defect defect)

/-- The format that the extension of a file name stands for. -/
def formatOf? (name : String) : Option Format :=
  match (Disk.extension? name).map (·.map Char.toLower) with
  | some ['j', 's', 'o', 'n'] => some .json
  | some ['y', 'a', 'm', 'l'] => some .yaml
  | some ['y', 'm', 'l'] => some .yaml
  | _ => none

/-- Read a document from a file that is there. -/
def ofTextFile (tree : Tree) (path : Path) : Except FileError Entries :=
  match tree.readText path with
  | .error error => .error (.disk error)
  | .ok text =>
      match formatOf? path.name with
      | some format => ofText format path text
      | none =>
          match ofText .json path text with
          | .ok entries => .ok entries
          | .error _ => ofText .yaml path text

/-- Read a document from a file. -/
def ofFile (tree : Tree) (path : Path) : Except FileError Entries :=
  match tree.has path, tree.isFile path with
  | .error error, _ | _, .error error => .error (.disk error)
  | .ok false, _ => .error (.missing path)
  | .ok true, .ok false => .error (.notFile path)
  | .ok true, .ok true => ofTextFile tree path

end Scaffold.Document
