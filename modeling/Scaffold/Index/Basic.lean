import Scaffold.Document.Describe
import Scaffold.Violation

/-!
# Indexes

An index is requested for one or more columns of an entity's table.
-/

namespace Scaffold

/-- The kinds of indexes. -/
inductive IndexKind where
  | index | unique | primary | fulltext | spatial
  deriving DecidableEq, Repr

namespace IndexKind

/-- The spelling of a kind. -/
def name : IndexKind → String
  | index => "index"
  | unique => "unique"
  | primary => "primary"
  | fulltext => "fulltext"
  | spatial => "spatial"

/-- The method that creates an index of a kind. -/
def method : IndexKind → String
  | index => "index"
  | unique => "unique"
  | primary => "primary"
  | fulltext => "fullText"
  | spatial => "spatialIndex"

/-- Every kind of index. -/
def all : List IndexKind :=
  [index, unique, primary, fulltext, spatial]

/-- The kind of a spelling. -/
def ofName? (spelling : String) : Option IndexKind :=
  all.find? (·.name == spelling)

end IndexKind

/-- A requested index. -/
structure Index where
  columns : List String
  kind : IndexKind
  deriving DecidableEq, Repr

namespace Index

open Scaffold.Document (Entries Value)

/-- An index of more than one column. -/
def isComposite (index : Index) : Bool :=
  index.columns.length > 1

/-- A short description of an index. -/
def describe (index : Index) : String :=
  "<IndexSpec " ++ index.kind.name ++ "(" ++ ", ".intercalate index.columns ++ ")>"

/-- The name of an index in violations. -/
def subject (position : Nat) : String :=
  "indexes[" ++ Decimal.writtenInt position ++ "]"

/-- The texts of a list that holds nothing but texts that are not empty. -/
def columnTexts? : List Value → Option (List String)
  | [] => some []
  | .text column :: rest =>
      if column.isEmpty then none else (columnTexts? rest).map (column :: ·)
  | _ => none

/-- The columns of an index. -/
def readColumns (record : Entries) : Except Rule (List String) :=
  match Entries.get? record "columns" with
  | some (.list []) => .error .indexWithoutColumns
  | some (.list items) =>
      match columnTexts? items with
      | none => .error .indexColumnMalformed
      | some columns =>
          if columns.Nodup then .ok columns else .error (.indexColumnRepeated columns)
  | _ => .error .indexWithoutColumns

/-- The kind of an index, a plain one unless the record says otherwise. -/
def readKind (record : Entries) : Except Rule IndexKind :=
  match Entries.get? record "type" with
  | none => .ok .index
  | some value =>
      let found :=
        match value with
        | .text spelling => IndexKind.ofName? spelling
        | _ => none
      match found with
      | some kind => .ok kind
      | none => .error (.unknownIndexKind value.describe)

/-- Read an index from the record at a position of an entity's list. -/
def ofRecord (entity : Option String) (position : Nat) (record : Value) :
    Except Violation Index :=
  let failure := fun (rule : Rule) (field : Option String) =>
    (.error ⟨rule, entity, some (subject position), field⟩ : Except Violation Index)
  match record.content with
  | .mapping entries =>
      let isUnknown := fun (entry : Value × Value) =>
        entry.1.keyText != "columns" && entry.1.keyText != "type"
      match entries.find? isUnknown with
      | some (key, _) => failure (.indexFieldUnknown key.keyText) (some key.keyText)
      | none =>
          match readColumns entries, readKind entries with
          | .error rule, _ => failure rule (some "columns")
          | .ok _, .error rule => failure rule (some "type")
          | .ok columns, .ok kind => .ok ⟨columns, kind⟩
  | other => failure (.indexNotMapping other.kindName) none

end Index

end Scaffold
