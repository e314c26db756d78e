import Scaffold.Disk.Write
import Scaffold.Ledger.Basic

/-!
# Ledgers on disk

A ledger is kept in a file of the module's folder.  When a module has no such file, its ledger is
gathered from the models and seeders that lie in its folder.
-/

namespace Scaffold

open Scaffold.Disk (DiskError Path Tree WriteMode)
open Scaffold.Document (Entries Value)

/-- Why a ledger cannot be read. -/
inductive LedgerError where
  | notJson (file : Path)
  | notObject (file : Path)
  | notTexts (file : Path) (part : LedgerSection)
  /-- An integer has too many digits. -/
  | numberTooLong (digits : Nat)
  | disk (error : DiskError)
  deriving DecidableEq, Repr

/-- The wording of an error. -/
def LedgerError.message : LedgerError → String
  | .notJson file => "Invalid JSON in " ++ file.text
  | .notObject file => file.text ++ " must contain a JSON object"
  | .notTexts file part => file.text ++ ": '" ++ part.name ++ "' must be a list of strings"
  | .numberTooLong digits => Decimal.tooLongMessage digits
  | .disk error => error.message

namespace Ledger

/-- The file of the ledger of a module. -/
def file (folder : Path) : Path :=
  folder.child "module.json"

/-- The texts of a list. -/
def texts? : List Value → Option (List String)
  | [] => some []
  | .text entry :: rest => (texts? rest).map (entry :: ·)
  | .illFormed codes :: rest => (texts? rest).map (Text.shownCodes codes :: ·)
  | _ :: _ => none

/-- The entries that a document gives for a section; a section may be left out. -/
def givenEntries? (document : Entries) (part : LedgerSection) : Option (List String) :=
  match Entries.get? document part.name with
  | none => some []
  | some (.list items) => (texts? items).map distinct
  | some _ => none

/-- Take sections from a document in order, up to the first one that cannot be used. -/
def takeSections (file : Path) (document : Entries) (ledger : Ledger) :
    List LedgerSection → Ledger × Option LedgerError
  | [] => ({ ledger with unsaved := false }, none)
  | part :: rest =>
      match givenEntries? document part with
      | some entries => takeSections file document (ledger.setEntries part entries) rest
      | none => (ledger, some (.notTexts file part))

/-- Read a ledger from the text of its file. -/
def ofText (file : Path) (ledger : Ledger) (text : String) : Ledger × Option LedgerError :=
  match Document.Json.read text with
  | .error .malformed => (ledger, some (.notJson file))
  | .error (.tooLong digits) => (ledger, some (.numberTooLong digits))
  | .ok (.mapping document) => takeSections file document ledger LedgerSection.all
  | .ok _ => (ledger, some (.notObject file))

/-- Gather entries from the files of a folder whose names have given endings. -/
def gather (tree : Tree) (folder : Path) (ending : String) (skipped : List String)
    (part : LedgerSection) (ledger : Ledger) : Except DiskError Ledger :=
  (tree.isFolder folder).map fun found =>
    if found then
      ((tree.namesEnding folder ending).map Disk.stem).foldl
        (fun ledger entry => if skipped.contains entry then ledger else ledger.register part entry)
        ledger
    else ledger

/-- Gather the entries of a ledger from the folder of its module. -/
def gatherAll (tree : Tree) (folder : Path) (ledger : Ledger) : Ledger × Option LedgerError :=
  match gather tree (folder.child "Models") ".php" [] .entities ledger with
  | .error error => (ledger, some (.disk error))
  | .ok withEntities =>
      let aggregate := ledger.module ++ "DatabaseSeeder"
      match gather tree (folder.child "Database/Seeders") "Seeder.php" [aggregate] .seeders
          withEntities with
      | .error error => (withEntities, some (.disk error))
      | .ok complete => (complete, none)

/--
Load the ledger of a module from its folder.  An error leaves the sections that were read before it.
-/
def load (tree : Tree) (folder : Path) (ledger : Ledger) : Ledger × Option LedgerError :=
  match tree.isFile (file folder), tree.isFolder folder with
  | .error error, _ | .ok false, .error error => (ledger, some (.disk error))
  | .ok true, _ =>
      match tree.readText (file folder) with
      | .ok text => ofText (file folder) ledger text
      | .error error => (ledger, some (.disk error))
  | .ok false, .ok true => ledger.gatherAll tree folder
  | .ok false, .ok false => (ledger, none)

/-- Save the ledger of a module to its folder. -/
def save (tree : Tree) (mode : WriteMode) (folder : Path) (ledger : Ledger) :
    Tree × Ledger × Option DiskError :=
  match tree.writeText mode (file folder) ledger.text with
  | (written, none) => (written, { ledger with unsaved := false }, none)
  | (written, some error) => (written, ledger, some error)

end Ledger

end Scaffold
