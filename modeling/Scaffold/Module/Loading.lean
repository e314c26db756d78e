import Scaffold.Document.File
import Scaffold.Entity.Discovery
import Scaffold.Module.Document

/-!
# Loading module documents

A module document is looked up among the files of its module, among the published examples and in
the working directory.  When it is loaded, its module name and its settings may be replaced.
-/

namespace Scaffold

open Scaffold.Disk (DiskError Path Tree)
open Scaffold.Document

/-- Why a value cannot be used as settings to which others are added. -/
inductive SettingsError where
  /-- The value, or one of its items, does not consist of parts. -/
  | noParts
  /-- An item of a list is no pair of a key and a value. -/
  | noPair (position length : Nat)
  deriving DecidableEq, Repr

/-- The wording of an error, as far as it has one. -/
def SettingsError.message? : SettingsError → Option String
  | .noParts => none
  | .noPair position length =>
      some ("dictionary update sequence element #" ++ Decimal.writtenInt position ++
        " has length " ++ Decimal.writtenInt length ++ "; 2 is required")

/-- The parts of a value: characters, codes of bytes, items or keys. -/
def partsOf? (value : Value) : Option (List Value) :=
  match value.content with
  | .text text => some (text.toList.map fun c => .text (String.singleton c))
  | .illFormed codes => some (codes.map fun (code : Nat) => .ofCodes [code])
  | .bytes values => some (values.map fun (byte : UInt8) => .int byte.toNat)
  | .mapping entries => some (entries.map (·.1))
  | other => itemsOf? other

/-- Entries given as a list of pairs, added to others. -/
def entriesOfPairs (position : Nat) (entries : Entries) : List Value → Except SettingsError Entries
  | [] => .ok entries
  | item :: rest =>
      match partsOf? item with
      | none => .error .noParts
      | some [key, value] =>
          if Yaml.isKey key then entriesOfPairs (position + 1) (Entries.insert entries key value) rest
          else .error .noParts
      | some parts => .error (.noPair position parts.length)

/-- The entries of a value that is a mapping, or a list of pairs. -/
def settingsOf (value : Value) : Except SettingsError Entries :=
  match value.content with
  | .mapping entries => .ok entries
  | other =>
      match partsOf? other with
      | some items => entriesOfPairs 0 [] items
      | none => .error .noParts

/-- Why there is no file of a module document. -/
inductive LookupError where
  | missing (path : Path)
  | notAmong (name : String) (places : List Path)
  | disk (error : DiskError)
  deriving DecidableEq, Repr

/-- The wording of an error. -/
def LookupError.message : LookupError → String
  | .missing path => "Module file not found: " ++ path.text
  | .notAmong name places =>
      "Module file '" ++ name ++ "' not found (tried: " ++
        ", ".intercalate (places.map (·.text)) ++ ")"
  | .disk error => error.message

/-- Why a module document cannot be loaded. -/
inductive LoadError where
  | file (error : FileError)
  | settings (error : SettingsError)
  | document (error : DocumentError)

/-- The wording of an error, as far as it has one. -/
def LoadError.message? : LoadError → Option String
  | .file error => error.message?
  | .settings error => error.message?
  | .document error => some error.message

namespace ModuleDocument

/-- Add settings to those of a document, in place of those of the same names. -/
def withSettings (entries settings : Entries) : Except SettingsError Entries :=
  if settings.isEmpty then .ok entries
  else
    let name := (configName? entries).getD "config"
    let given := valueOr (Entries.get? entries name) (.mapping [])
    (settingsOf given).map fun own =>
      let all := settings.foldl (fun all entry => Entries.insert all entry.1 entry.2) own
      Entries.insert entries (.text name) (.mapping all)

/-- A document under another module name, unless that is empty. -/
def withName (entries : Entries) (name : String) : Entries :=
  if name.isEmpty then entries else Entries.insert entries (.text "module_name") (.text name)

/-- Load a module document from a file. -/
def load (tree : Tree) (path : Path) (name : String) (settings : Entries) :
    Except LoadError ModuleDocument :=
  match Document.ofFile tree path with
  | .error error => .error (.file error)
  | .ok entries =>
      match withSettings (withName entries name) settings with
      | .error error => .error (.settings error)
      | .ok entries => (read entries).mapError .document

/-- The places where a file of a relative path is looked up. -/
def places (tree : Tree) (modules : Path) (module : String) (path : Path) : List Path :=
  let own :=
    if module.isEmpty then []
    else [((modules.child (Text.studlyCase module)).child "config").join path]
  own ++ [(modules.child setupFolderName).join path, (Path.ofRoot tree.home).join path]

/-- The file of a module document. -/
def locate (tree : Tree) (modules : Path) (module name : String) : Except LookupError Path :=
  let path := Path.ofText name
  let places := if path.isAbsolute then [path] else places tree modules module path
  match tree.firstFile? places with
  | .error error => .error (.disk error)
  | .ok (some place) => .ok place
  | .ok none => .error (if path.isAbsolute then .missing path else .notAmong name places)

end ModuleDocument

end Scaffold
