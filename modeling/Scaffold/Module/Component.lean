import Scaffold.Document.Fault
import Scaffold.Text.Inflection

/-!
# Components

A component of a module document describes one entity: its name, and records of its attributes,
relations and indexes.  Reading a component collects every issue of its shape; the records are
looked at later, one by one.
-/

namespace Scaffold

open Scaffold.Document (Entries Fault Issue Step Value)

/-- One entity of a module as a document describes it. -/
structure Component where
  name : String
  attributes : List Value := []
  relations : List Value := []
  indexes : List Value := []

/-- The class name of the entity. -/
def Component.entity (component : Component) : String :=
  Text.studlyCase component.name

/-- The table of the entity. -/
def Component.table (component : Component) : String :=
  Text.tableName component.name

namespace Document

/-- A value with the issues found on the way to it; it counts only when there are none. -/
structure Checked (α : Type) where
  value : α
  issues : List Issue := []

/-- A value that does not fit its place. -/
def Checked.faulty {α : Type} (fallback : α) (path : List Step) (fault : Fault) : Checked α :=
  ⟨fallback, [⟨path, fault⟩]⟩

/-- The value, or all issues as those of a model. -/
def Checked.toExcept {α : Type} (model : String) (checked : Checked α) : Except ShapeError α :=
  match checked.issues with
  | [] => .ok checked.value
  | issues => .error ⟨model, issues⟩

/-- A value read by a reader that finds at most one fault. -/
def checkWith {α : Type} (fallback : α) (path : List Step) (read : Value → Except Fault α)
    (value : Value) : Checked α :=
  match read value with
  | .ok result => ⟨result, []⟩
  | .error fault => .faulty fallback path fault

/-- The items of a list, each read at its position. -/
def checkItems {α : Type} (path : List Step) (read : List Step → Value → Checked α)
    (position : Nat) : List Value → Checked (List α)
  | [] => ⟨[], []⟩
  | item :: rest =>
      let first := read (path ++ [.position position]) item
      let others := checkItems path read (position + 1) rest
      ⟨first.value :: others.value, first.issues ++ others.issues⟩

/-- A list whose items are read one by one. -/
def checkList {α : Type} (read : List Step → Value → Checked α) (path : List Step)
    (value : Value) : Checked (List α) :=
  match itemsOf? value.content with
  | some items => checkItems path read 0 items
  | none => .faulty [] path .notList

/-- The step to an entry of a mapping. -/
def entryStep : Value → Step
  | .text name => .field name
  | key => .key key

/-- The keys of a mapping that are no texts. -/
def keyIssues (path : List Step) (entries : Entries) : List Issue :=
  entries.filterMap fun (key, _) =>
    match textOf key with
    | .ok _ => none
    | .error fault => some ⟨path ++ [entryStep key, .keyItself], fault⟩

/-- A mapping with text keys and any values. -/
def checkRecord (path : List Step) (value : Value) : Checked Value :=
  match value.content with
  | .mapping entries => ⟨.mapping (withTextKeys entries), keyIssues path entries⟩
  | _ => .faulty .null path .notMapping

/-- A field of a model, which may have a value to fall back on. -/
def checkField {α : Type} (path : List Step) (entries : Entries) (name : String)
    (fallback : Option α) (absent : α) (read : List Step → Value → Checked α) : Checked α :=
  let place := path ++ [.field name]
  match Entries.get? entries name, fallback with
  | some value, _ => read place value
  | none, some value => ⟨value, []⟩
  | none, none => .faulty absent place .missing

/-- The entries of a model that are none of its fields. -/
def unknownFields (path : List Step) (fields : List String) (entries : Entries) : List Issue :=
  entries.filterMap fun (key, _) =>
    match key with
    | .text name => if fields.contains name then none else some ⟨path ++ [.field name], .unknownField⟩
    | key => some ⟨path ++ [.key key], .keyNotText⟩

end Document

open Document

/-- The records of one field of a component. -/
def Component.checkRecords (path : List Step) (entries : Entries) (field : String) :
    Checked (List Value) :=
  checkField path entries field (some []) [] (checkList checkRecord)

/-- Read a component of a document. -/
def Component.check (path : List Step) (value : Value) : Checked Component :=
  match value.content with
  | .mapping entries =>
      let name :=
        checkField path entries "name" none "" fun place => checkWith "" place (readText true)
      let attributes := checkRecords path entries "attributes"
      let relations := checkRecords path entries "relations"
      let indexes := checkRecords path entries "indexes"
      let unknown := unknownFields path ["name", "attributes", "relations", "indexes"] entries
      ⟨⟨name.value, attributes.value, relations.value, indexes.value⟩,
        name.issues ++ attributes.issues ++ relations.issues ++ indexes.issues ++ unknown⟩
  | _ => .faulty ⟨"", [], [], []⟩ path (.notInstance "ComponentSpec")

/-- Read a component that stands alone. -/
def Component.read (value : Value) : Except ShapeError Component :=
  (Component.check [] value).toExcept "ComponentSpec"

end Scaffold
