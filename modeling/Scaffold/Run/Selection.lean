import Scaffold.Keyed
import Scaffold.Text.Identifier
import Scaffold.Text.Inflection
import Scaffold.Text.WordCharacter
import Scaffold.Output.Entity

/-!
# Selections

A run may be asked for single files of entities.  Each request names a class, or a migration by its
table, and the entity is derived from that name.
-/

namespace Scaffold

/-- Kinds of files that can be asked for one by one, with the suffixes of their classes. -/
def selectableKinds : List (FileKind × String) :=
  [(.model, ""), (.controller, "Controller"), (.request, "Request"), (.service, "Service"),
    (.repository, "Repository"), (.migration, "")]

/-- The table of a migration that is named `create_…_table`. -/
def migrationTable? (name : String) : Option String :=
  let text := Text.withoutLineEnd name.toList
  let before := "create_".toList
  let after := "_table".toList
  if before.isPrefixOf text && after.isSuffixOf (text.drop before.length) then
    let table := (text.drop before.length).take (text.length - before.length - after.length)
    if !table.isEmpty && table.all Text.isUnicodeWordCharacter then some (String.ofList table)
    else none
  else none

/-- A class name without its suffix, if something stands before it. -/
def withoutSuffix (name suffix : String) : String :=
  let characters := name.toList
  if !suffix.isEmpty && suffix.toList.isSuffixOf characters && characters.length > suffix.length then
    String.ofList (Text.dropEnd characters suffix.length)
  else name

/-- The entity that a class or a migration belongs to. -/
def entityOf (kind : FileKind) (suffix value : String) : String :=
  let named := withoutSuffix (Text.studlyCase value) suffix
  match kind with
  | .migration => ((migrationTable? value).map Text.modelName).getD named
  | _ => named

/-- The entity that a class belongs to, by the name of its kind; none for an unknown kind. -/
def entityForComponent? (kind value : String) : Option String :=
  (selectableKinds.find? fun (known, _) => known.name == kind).map fun (known, suffix) =>
    entityOf known suffix value

/-- The files asked for, under their entities: class names under the names of their kinds. -/
abbrev Selection := Keyed (Keyed String)

namespace Selection

/-- Ask for one more file. -/
def add (selection : Selection) (kind : FileKind) (suffix value : String) : Selection :=
  let entity := entityOf kind suffix value
  let chosen := (Keyed.get? selection entity).getD []
  Keyed.put selection entity (Keyed.put chosen kind.name (Text.studlyCase value))

/-- The selection of the files that are asked for by kind; an empty name asks for nothing. -/
def ofRequests (requests : Keyed String) : Selection :=
  selectableKinds.foldl (fun selection (kind, suffix) =>
    match (Keyed.get? requests kind.name).filter (!·.isEmpty) with
    | some value => selection.add kind suffix value
    | none => selection) []

end Selection

end Scaffold
