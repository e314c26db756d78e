import Scaffold.Proofs.Php.Imports
import Scaffold.Proofs.Php.Tokens

/-!
# Files of classes

A file of a class has a namespace and imports in front of the body of its class, and public methods
within.  A name in the file stands for the class of that full name when a backslash is in front of
it, else for the import whose last segment is its first one, and for a class of the file's own
namespace when there is no such import.
-/

namespace Scaffold.Php

/-! ## Reading a file -/

/-- What is read of tokens, wherever it starts among them. -/
def readAll {α : Type} (read : List Token → Option α) : List Token → List α
  | [] => []
  | token :: rest => (read (token :: rest)).toList ++ readAll read rest

/-- The name of a statement that consists of a keyword and a name. -/
def statementAt? (keyword : String) : List Token → Option String
  | .word given :: .word name :: .mark ';' :: _ => if given = keyword then some name else none
  | _ => none

/-- The names of the statements of a keyword. -/
def statements (keyword : String) (tokens : List Token) : List String :=
  readAll (statementAt? keyword) tokens

/-- The name in front of a class constant. -/
def referenceAt? : List Token → Option String
  | .word name :: .mark ':' :: .mark ':' :: .word keyword :: _ =>
      if keyword = "class" then some name else none
  | _ => none

/-- The classes that code refers to, as it names them. -/
def references (tokens : List Token) : List String :=
  readAll referenceAt? tokens

/-- A method without parameters. -/
structure Method where
  name : String
  returnType : String
  /-- The classes that its body refers to, as it names them. -/
  references : List String
  deriving DecidableEq, Repr

/-- A public method: its head, and a body up to the first closing brace. -/
def methodAt? : List Token → Option Method
  | .word visibility :: .word keyword :: .word name :: .mark '(' :: .mark ')' :: .mark ':' ::
      .word returnType :: .mark '\x7b' :: rest =>
      if visibility = "public" ∧ keyword = "function" then
        some ⟨name, returnType, references (rest.takeWhile (· ≠ .mark '\x7d'))⟩
      else none
  | _ => none

/-- The public methods among tokens. -/
def methods (tokens : List Token) : List Method :=
  readAll methodAt? tokens

/-- A file of a class. -/
structure ClassFile where
  /-- The namespace of the file, if it has one. -/
  qualifier : Option String
  /-- The full names that the file imports. -/
  imports : List String
  /-- The public methods of the class. -/
  methods : List Method

/-- Read a file: the body of its class starts at the first brace. -/
def ClassFile.ofText (text : String) : ClassFile :=
  let head := (tokens text).takeWhile (· ≠ .mark '\x7b')
  { qualifier := (statements "namespace" head).head?
    imports := statements "use" head
    methods := Php.methods ((tokens text).dropWhile (· ≠ .mark '\x7b')) }

theorem ClassFile.ofText_eq
    {text : String} {head body : List Token} (spells : Spells text (head ++ .mark '\x7b' :: body))
    (above : .mark '\x7b' ∉ head) :
    ofText text = ⟨(statements "namespace" head).head?, statements "use" head,
      Php.methods (.mark '\x7b' :: body)⟩ := by
  have other : ∀ token ∈ head, decide (token ≠ .mark '\x7b') = true := by
    intro token member
    exact decide_eq_true fun same => above (same ▸ member)
  rw [ofText, spells.tokens_eq, List.takeWhile_append_of_pos other,
    List.dropWhile_append_of_pos other]
  simp

theorem statements_cons (keyword given name : String) (rest : List Token) :
    statements keyword (.word given :: .word name :: .mark ';' :: rest) =
      (if given = keyword then [name] else []) ++ statements keyword rest := by
  simp only [statements, readAll, statementAt?]
  split_ifs <;> rfl

/-- The tokens of an import. -/
def importTokens (name : String) : List Token :=
  [.word "use", .word name, .mark ';']

theorem spells_importLine
    {name : String} (nonempty : name ≠ "") (parts : ∀ c ∈ name.toList, isWordPart c = true) :
    Spells (importLine name ++ "\n") (importTokens name) := by
  have keyword : IsPiece "use" [.word "use"] :=
    isPiece_name (List.all_eq_true.mp (by decide : "use".toList.all isWordPart = true))
  have named := isPiece_name parts
  rw [wordOf_of_ne nonempty] at named
  have blank : Spells " " [] := by decide +kernel
  have close : Spells ";\n" [.mark ';'] := by decide +kernel
  have line : importLine name ++ "\n" = "use" ++ (" " ++ (name ++ ";\n")) := by
    have start : "use " = "use" ++ " " := rfl
    have stop : ";\n" = ";" ++ "\n" := rfl
    rw [importLine, start, stop]
    simp only [String.append_assoc]
  rw [line]
  exact keyword _ _ ((by decide : EndsWord " ").append _)
    (blank.append (named _ _ (by decide) close))

/-- The imports among tokens of lines are those that the lines make. -/
theorem statements_lines (keyword : String) (lines : List String) (rest : List Token) :
    statements keyword
        ((lines.flatMap fun line => (importedName? line).elim [] importTokens) ++ rest) =
      (if "use" = keyword then lines.filterMap importedName? else []) ++
        statements keyword rest := by
  induction lines with
  | nil => simp
  | cons line others hypothesis =>
      rw [List.flatMap_cons, List.append_assoc]
      cases imported : importedName? line with
      | none =>
          rw [List.filterMap_cons_none imported]
          exact hypothesis
      | some name =>
          have first := statements_cons keyword "use" name
            ((others.flatMap fun line => (importedName? line).elim [] importTokens) ++ rest)
          rw [List.filterMap_cons_some imported]
          refine first.trans ?_
          rw [hypothesis]
          split_ifs <;> rfl

/-! ## Names in a file -/

namespace ClassFile

/-- The full name of segments in a file; none when the first one could stand for several imports. -/
def resolveSegments (file : ClassFile) (first : String) (segments : List String) : Option String :=
  match file.imports.filter (shortName · = first) with
  | [] => some ("\\".intercalate (file.qualifier.toList ++ first :: segments))
  | [imported] => some ("\\".intercalate (imported :: segments))
  | _ => none

/-- The full name that a name in a file stands for. -/
def resolve (file : ClassFile) (name : String) : Option String :=
  match Text.parts '\\' name with
  | [] => none
  | first :: segments =>
      if first = "" then some ("\\".intercalate segments)
      else file.resolveSegments first segments

end ClassFile

theorem intercalate_parts (name : String) : "\\".intercalate (Text.parts '\\' name) = name := by
  have joined : ['\\'].intercalate (name.toList.splitOn '\\') = name.toList :=
    List.intercalate_splitOn '\\'
  rw [← String.toList_inj, String.toList_intercalate, Text.parts, List.map_map]
  simp [Function.comp_def, joined]

namespace ClassFile

variable {file : ClassFile} {name : String}

/-- A backslash in front of a name makes it a full name. -/
theorem resolve_full (file : ClassFile) (full : String) :
    file.resolve ("\\" ++ full) = some full := by
  have cut : Text.parts '\\' ("\\" ++ full) = "" :: Text.parts '\\' full :=
    Text.parts_append_separator '\\' "" full
  rw [resolve, cut]
  exact congrArg some (intercalate_parts full)

theorem resolve_of_clean (nonempty : name ≠ "") (clean : '\\' ∉ name.toList) :
    file.resolve name = file.resolveSegments name [] := by
  rw [resolve, Text.parts_of_not_mem clean]
  exact if_neg nonempty

/-- The one import of a short name is what it stands for. -/
theorem resolve_imported
    (nonempty : name ≠ "") (clean : '\\' ∉ name.toList) {fixed others : List String}
    (shape : file.imports = fixed ++ others) (apart : ∀ other ∈ fixed, shortName other ≠ name)
    (distinct : others.Nodup) {imported : String} (known : imported ∈ others)
    (short : shortName imported = name)
    (only : ∀ other ∈ others, shortName other = name → other = imported) :
    file.resolve name = some imported := by
  have none : fixed.filter (shortName · = name) = [] := by
    simpa using apart
  have one : others.filter (shortName · = name) = [imported] := by
    have same : ∀ other ∈ others, decide (shortName other = name) = decide (other = imported) :=
      fun other member => decide_eq_decide.mpr ⟨only other member, fun is => is ▸ short⟩
    rw [List.filter_congr same, List.filter_eq, List.count_eq_one_of_mem distinct known]
    rfl
  rw [resolve_of_clean nonempty clean, resolveSegments, shape, List.filter_append, none, one]
  rfl

/-- A short name without an import stands for a class of the file's namespace. -/
theorem resolve_own
    (nonempty : name ≠ "") (clean : '\\' ∉ name.toList)
    (none : ∀ other ∈ file.imports, shortName other ≠ name) {qualifier : String}
    (within : file.qualifier = some qualifier) :
    file.resolve name = some (qualifier ++ "\\" ++ name) := by
  have found : file.imports.filter (shortName · = name) = [] := by
    simpa using none
  rw [resolve_of_clean nonempty clean, resolveSegments, found, within]
  simp [String.intercalate_cons_of_ne_nil]

end ClassFile

end Scaffold.Php
