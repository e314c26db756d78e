import Scaffold.Document.JsonText
import Scaffold.Keyed
import Scaffold.Text.Words

/-!
# Ledgers

The ledger of a module lists its entities and its seeders in the order in which they came.  It only
grows, and no list repeats an entry.  Files that belong to the whole module are rendered from it.
-/

namespace Scaffold

open Scaffold.Document (Entries Value)

/-- A list that a ledger keeps. -/
inductive LedgerSection where
  | entities
  | seeders
  deriving DecidableEq, Repr

namespace LedgerSection

/-- The name of a section. -/
def name : LedgerSection → String
  | .entities => "entities"
  | .seeders => "seeders"

/-- All sections in order. -/
def all : List LedgerSection :=
  [.entities, .seeders]

/-- The section of a name. -/
def ofName? (name : String) : Option LedgerSection :=
  all.find? (·.name == name)

/-- The message that there is no section of a name. -/
def unknownMessage (name : String) : String :=
  "Unknown registry section " ++ Text.quoted name ++ "; expected one of (" ++
    ", ".intercalate (all.map fun part => Text.quoted part.name) ++ ")"

end LedgerSection

/-- The record of what a module contains. -/
structure Ledger where
  /-- The name of the module as a namespace. -/
  module : String
  entities : List String := []
  seeders : List String := []
  /-- The ledger holds entries that were not saved. -/
  unsaved : Bool := false
  deriving DecidableEq, Repr

namespace Ledger

/-- The empty ledger of a module. -/
def ofModule (name : String) : Ledger :=
  { module := Text.studlyCase name }

/-- The entries of a section. -/
def entries (ledger : Ledger) : LedgerSection → List String
  | .entities => ledger.entities
  | .seeders => ledger.seeders

/-- Replace the entries of a section. -/
def setEntries (ledger : Ledger) (part : LedgerSection) (entries : List String) : Ledger :=
  match part with
  | .entities => { ledger with entities := entries }
  | .seeders => { ledger with seeders := entries }

/-- An entry stands in a section. -/
def contains (ledger : Ledger) (part : LedgerSection) (entry : String) : Bool :=
  (ledger.entries part).contains entry

/-- Add an entry to a section unless it stands there. -/
def register (ledger : Ledger) (part : LedgerSection) (entry : String) : Ledger :=
  if ledger.contains part entry then ledger
  else { ledger.setEntries part (ledger.entries part ++ [entry]) with unsaved := true }

/-- All sections with their entries. -/
def sections (ledger : Ledger) : List (LedgerSection × List String) :=
  LedgerSection.all.map fun part => (part, ledger.entries part)

/-- The number of entries of every section. -/
def counts (ledger : Ledger) : String :=
  ", ".intercalate (ledger.sections.map fun (part, entries) =>
    Decimal.writtenInt entries.length ++ " " ++ part.name)

/-- A short description of a ledger. -/
def describe (ledger : Ledger) : String :=
  "<ModuleRegistry " ++ ledger.module ++ ": " ++ ledger.counts ++ ">"

/-- A ledger as a document. -/
def document (ledger : Ledger) : Value :=
  .mapping ((.text "module", .text ledger.module) ::
    ledger.sections.map fun (part, entries) =>
      (.text part.name, .list (entries.map .text)))

/-- The text of the file that keeps a ledger. -/
def text (ledger : Ledger) : String :=
  Document.Json.written .ascii ledger.document

end Ledger

end Scaffold
