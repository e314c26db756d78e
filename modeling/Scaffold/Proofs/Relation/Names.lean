import Scaffold.Proofs.Relation.Fields
import Scaffold.Proofs.Schema.Creation
import Scaffold.Proofs.Text.Identifier
import Scaffold.Proofs.Text.Separated
import Scaffold.Relation.Method

/-!
# Names of accepted records

Attributes, relations and placeholders give their names to methods, comments and columns.  The main
statement says which names these are, and that what is built from such a name has no character
beside those of identifiers and its own marks exactly when the name has no line feed at its end.
-/

namespace Scaffold

open Scaffold.Document (Entries Value)
open Scaffold.Text (IsWholeIdentifier)

/-- A name comes out of an accepted record. -/
inductive GivesName : String → Prop
  /-- The name of an attribute. -/
  | attribute {entity : Option String} {record : Value} {attr : Attribute}
      (accepted : Attribute.ofRecord entity record = .ok attr) : GivesName attr.name
  /-- The name of a relation. -/
  | relation {entity : Option String} {record : Value} {relation : Relation}
      (accepted : Relation.ofRecord entity record = .ok relation) : GivesName relation.name
  /-- The name of the relation behind a placeholder. -/
  | placeholder {entity : Option String} {attr : Attribute} {relation : Relation}
      (accepted : Relation.ofPlaceholder entity attr = .ok relation) : GivesName relation.name

/-! ## Which names there are -/

theorem Relation.isIdentifier_name
    {entity : Option String} {record : Value} {relation : Relation}
    (accepted : ofRecord entity record = .ok relation) :
    Text.isIdentifier relation.name = true := by
  rw [ofRecord] at accepted
  cases shape : record.content with
  | mapping entries =>
      rw [shape] at accepted
      simp only [readValues, bind_eq_ok_iff] at accepted
      obtain ⟨name, named, kind, -, -, -, -, -, model, -, foreignKey, -, localKey, -, ownerKey, -,
        morphName, -, table, -, foreignPivotKey, -, relatedPivotKey, -, made⟩ := accepted
      obtain rfl := Except.ok.inj made
      rw [readName] at named
      split at named
      · cases named
      · split_ifs at named with identifier
        obtain rfl := Except.ok.inj named
        exact identifier
  | _ =>
      rw [shape] at accepted
      cases accepted

theorem Relation.isIdentifier_name_of_placeholder
    {entity : Option String} {attr : Attribute} {relation : Relation}
    (accepted : ofPlaceholder entity attr = .ok relation) :
    Text.isIdentifier relation.name = true := by
  rw [ofPlaceholder] at accepted
  split_ifs at accepted
  exact isIdentifier_name accepted

/-- The record of a text column. -/
def columnEntries (name : String) : Entries :=
  [(.text "name", .text name), (.text "type", .text "string")]

/-- The attribute of a text column. -/
def columnAttribute (name : String) : Attribute where
  name
  type := .string

/-- A text column may have every name that is accepted. -/
theorem ofRecord_columnEntries
    (entity : Option String) {name : String} (identifier : Text.isIdentifier name = true) :
    Attribute.ofRecord entity (.mapping (columnEntries name)) = .ok (columnAttribute name) := by
  have given : Attribute.givenName? (columnEntries name) = some name :=
    Attribute.givenName?_cons identifier _
  exact Attribute.ofRecord_mapping_eq_ok_iff.mpr
    ⟨.string, name, rfl, rfl, rfl, ⟨by rw [given]; rfl, if_pos identifier⟩, rfl, rfl, rfl⟩

theorem givesName_iff {name : String} : GivesName name ↔ Text.isIdentifier name = true := by
  constructor
  · rintro (accepted | accepted | accepted)
    · exact Attribute.IsAccepted.isIdentifier ⟨_, _, accepted⟩
    · exact Relation.isIdentifier_name accepted
    · exact Relation.isIdentifier_name_of_placeholder accepted
  · intro identifier
    exact .attribute (ofRecord_columnEntries none identifier)

/-! ## What is built from a name -/

/-- The characters of a method's head: those of identifiers, a blank, parentheses and a colon. -/
def IsSignatureCharacter (c : Char) : Prop :=
  Text.isIdentifierPart c = true ∨ c ∈ [' ', '(', ')', ':']

instance : DecidablePred IsSignatureCharacter :=
  fun c => inferInstanceAs (Decidable (Text.isIdentifierPart c = true ∨ c ∈ [' ', '(', ')', ':']))

theorem RelationKind.isSignatureCharacter_className (kind : RelationKind) :
    ∀ c ∈ kind.className.toList, IsSignatureCharacter c := by
  rw [← List.forall_iff_forall_mem]
  cases kind <;> decide

namespace RelationMethod

variable {method : RelationMethod} {name : String}

theorem signature_characters_iff (given : GivesName name) (named : method.relation.name = name) :
    (∀ c ∈ method.signature.toList, IsSignatureCharacter c) ↔ IsWholeIdentifier name := by
  have accepted := givesName_iff.mp given
  have head : ∀ c ∈ "public function ".toList, IsSignatureCharacter c :=
    List.forall_iff_forall_mem.mp (by decide)
  have marks : ∀ c ∈ "(): ".toList, IsSignatureCharacter c :=
    List.forall_iff_forall_mem.mp (by decide)
  have spelled : method.signature = "public function " ++ name ++ "(): " ++ method.returnType := by
    rw [← named]
    rfl
  simp only [spelled, String.toList_append, List.forall_mem_append]
  constructor
  · rintro ⟨⟨⟨-, own⟩, -⟩, -⟩
    rw [Text.isWholeIdentifier_iff_of_isIdentifier accepted]
    exact fun ended => absurd (own _ (List.mem_of_getLast? ended)) (by decide)
  · intro whole
    exact ⟨⟨⟨head, fun c member => .inl (whole.characters c member)⟩, marks⟩,
      method.relation.kind.isSignatureCharacter_className⟩

/-- The three lines of the comment above a method. -/
def commentLines (method : RelationMethod) : List String :=
  ["/**", " * Get the " ++ method.relation.name ++ " associated with the " ++
    Text.nameOr method.entity "model" ++ ".", " */"]

theorem docblock_eq (method : RelationMethod) :
    method.docblock = (String.singleton '\n').intercalate method.commentLines := by
  have opening : "/**\n * Get the " = "/**" ++ "\n" ++ " * Get the " := by decide
  have closing : ".\n */" = "." ++ "\n" ++ " */" := by decide
  rw [commentLines, String.intercalate_cons_cons, String.intercalate_cons_cons,
    String.intercalate_singleton]
  change "/**\n * Get the " ++ _ ++ _ ++ _ ++ ".\n */" = "/**" ++ "\n" ++ (_ ++ "\n" ++ _)
  rw [opening, closing]
  simp only [String.append_assoc]

theorem docblock_lines_iff
    (given : GivesName name) (named : method.relation.name = name)
    (owner : '\n' ∉ (Text.nameOr method.entity "model").toList) :
    Text.parts '\n' method.docblock = method.commentLines ↔ IsWholeIdentifier name := by
  have accepted := givesName_iff.mp given
  have lines : (∀ line ∈ method.commentLines, '\n' ∉ line.toList) ↔ '\n' ∉ name.toList := by
    simp [commentLines, named, owner]
  rw [docblock_eq, Text.parts_intercalate_eq_iff, lines,
    Text.isWholeIdentifier_iff_of_isIdentifier accepted]
  constructor
  · exact fun clean ended => clean.2 (List.mem_of_getLast? ended)
  · intro plain
    refine ⟨List.cons_ne_nil _ _, ?_⟩
    exact ((Text.isWholeIdentifier_iff_of_isIdentifier accepted).mpr plain).not_mem_lineFeed

end RelationMethod

/-- An accepted name with an ending of parts of identifiers is whole exactly when the name is. -/
theorem Text.isWholeIdentifier_append_iff
    {name : String} (accepted : isIdentifier name = true) (ending : String)
    (parts : ∀ c ∈ ending.toList, isIdentifierPart c = true) :
    IsWholeIdentifier (name ++ ending) ↔ IsWholeIdentifier name := by
  constructor
  · intro whole
    rw [isWholeIdentifier_iff_of_isIdentifier accepted]
    intro ended
    refine whole.not_mem_lineFeed ?_
    rw [String.toList_append]
    exact List.mem_append_left _ (List.mem_of_getLast? ended)
  · intro whole
    obtain ⟨first, rest, shape, start, others⟩ := isWholeIdentifier_iff.mp whole
    refine isWholeIdentifier_iff.mpr ⟨first, rest ++ ending.toList, ?_, start, ?_⟩
    · rw [String.toList_append, shape, List.cons_append]
    · exact List.forall_mem_append.mpr ⟨others, parts⟩

/-- The columns of an attribute are whole identifiers, unless its name stands in them and is not. -/
theorem Attribute.created_whole_iff {attr : Attribute} (given : GivesName attr.name) :
    (∀ column ∈ attr.created, IsWholeIdentifier column) ↔
      (attr.TakesName → IsWholeIdentifier attr.name) := by
  have accepted := givesName_iff.mp given
  rw [Attribute.created, Attribute.TakesName]
  cases attr.type.creation with
  | pair =>
      have times : IsWholeIdentifier "created_at" ∧ IsWholeIdentifier "updated_at" :=
        ⟨(Text.isWholeIdentifier_iff_of_isIdentifier (by decide)).mpr (by decide),
          (Text.isWholeIdentifier_iff_of_isIdentifier (by decide)).mpr (by decide)⟩
      simpa [Creation.columns] using times
  | constraint => simp [Creation.columns]
  | own => simp [Creation.columns]
  | morph =>
      have typed := Text.isWholeIdentifier_append_iff accepted "_type"
        (List.forall_iff_forall_mem.mp (by decide))
      have keyed := Text.isWholeIdentifier_append_iff accepted "_id"
        (List.forall_iff_forall_mem.mp (by decide))
      simp [Creation.columns, typed, keyed]

/-! ## Accepted names -/

/--
The names of accepted records are the whole identifiers and these with one line feed behind.  Those
without it, and only they, give a method a head of identifiers, blanks, parentheses and a colon, a
comment of three lines, and an attribute columns that are whole identifiers.
-/
theorem givesName_characters {name : String} :
    (GivesName name ↔
      IsWholeIdentifier name ∨ ∃ whole, IsWholeIdentifier whole ∧ name = whole ++ "\n") ∧
    (GivesName name →
      (IsWholeIdentifier name ↔ name.toList.getLast? ≠ some '\n') ∧
      (∀ method : RelationMethod, method.relation.name = name →
        ((∀ c ∈ method.signature.toList, IsSignatureCharacter c) ↔ IsWholeIdentifier name) ∧
        ('\n' ∉ (Text.nameOr method.entity "model").toList →
          (Text.parts '\n' method.docblock = method.commentLines ↔ IsWholeIdentifier name))) ∧
      ∀ attr : Attribute, attr.name = name →
        ((∀ column ∈ attr.created, IsWholeIdentifier column) ↔
          (attr.TakesName → IsWholeIdentifier name))) := by
  refine ⟨givesName_iff.trans Text.isIdentifier_iff_whole, fun given => ?_⟩
  have accepted := givesName_iff.mp given
  refine ⟨Text.isWholeIdentifier_iff_of_isIdentifier accepted, fun method named => ?_, ?_⟩
  · exact ⟨method.signature_characters_iff given named, method.docblock_lines_iff given named⟩
  · rintro attr rfl
    exact Attribute.created_whole_iff given

/-- What a relation to an author says beside its name. -/
def authorDetails : Entries :=
  [(.text "type", .text "belongsTo"), (.text "model", .text "User")]

/-- The relation to an author. -/
def authorRelation (name : String) : Relation where
  name
  kind := .belongsTo
  model := some "User"

/-- The placeholder for a relation to an author. -/
def authorPlaceholder (name : String) : Attribute where
  name
  type := .relationship
  relationship := some authorDetails

/-- The method of the relation to an author of a post. -/
def authorMethod (name : String) : RelationMethod :=
  .ofRelation (some "Post") { module := "Blog" } (authorRelation name)

/-- The method of the author has a head that is one line. -/
theorem givesName_characters_author :
    GivesName "author" ∧ IsWholeIdentifier "author" ∧
      ∀ c ∈ (authorMethod "author").signature.toList, IsSignatureCharacter c := by
  have accepted : Relation.ofPlaceholder (some "Post") (authorPlaceholder "author") =
      .ok (authorRelation "author") := by rfl
  have given : GivesName "author" := .placeholder accepted
  obtain ⟨whole, methods, -⟩ := givesName_characters.2 given
  have isWhole : IsWholeIdentifier "author" := whole.mpr (by decide)
  exact ⟨given, isWhole, (methods (authorMethod "author") rfl).1.mpr isWhole⟩

/-- A line feed at the end of a name passes in all three ways, into a column and a method's head. -/
theorem givesName_lineFeed :
    Attribute.ofRecord (some "Post") (.mapping (columnEntries "title\n")) =
        .ok (columnAttribute "title\n") ∧
      Relation.ofRecord (some "Post")
          (.mapping ((.text "name", .text "author\n") :: authorDetails)) =
        .ok (authorRelation "author\n") ∧
      Relation.ofPlaceholder (some "Post") (authorPlaceholder "author\n") =
        .ok (authorRelation "author\n") ∧
      ¬ IsWholeIdentifier "title\n" ∧ ¬ IsWholeIdentifier "author\n" ∧
      (columnAttribute "title\n").created = ["title\n"] ∧
      (authorMethod "author\n").signature = "public function author\n(): BelongsTo" :=
  ⟨by rfl, by rfl, by rfl, fun whole => whole.not_mem_lineFeed (by decide),
    fun whole => whole.not_mem_lineFeed (by decide), by rfl, by decide⟩

end Scaffold
