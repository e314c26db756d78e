import Mathlib.Data.List.Nodup
import Mathlib.Tactic.Tauto
import Scaffold.Proofs.Text.Separated

/-!
# Imports of a file

The lines before the first class or interface of a file import names from other namespaces.  The
file knows each of them by its last segment, and its own class or interface by the name after the
keyword.  These names must be apart, or the file does not load.
-/

namespace Scaffold.Php

/-- The name that a line declares as a class or an interface: the word after the keyword. -/
def declaredName? (line : String) : Option String :=
  match Text.parts ' ' line with
  | keyword :: name :: _ => if keyword = "class" ∨ keyword = "interface" then some name else none
  | _ => none

/-- The statement that imports a full name. -/
def importLine (name : String) : String :=
  "use " ++ name ++ ";"

/-- The full name that a line imports. -/
def importedName? (line : String) : Option String :=
  match line.toList.dropPrefix? "use ".toList with
  | some rest =>
      if rest.getLast? = some ';' then some (String.ofList rest.dropLast) else none
  | none => none

/-- The full names that the lines before the first declaration import. -/
def importedNames (text : String) : List String :=
  ((Text.parts '\n' text).takeWhile fun line => (declaredName? line).isNone).filterMap importedName?

/-- The name of the first class or interface that a file declares. -/
def declaredName (text : String) : Option String :=
  (Text.parts '\n' text).findSome? declaredName?

/-- The last segment of a full name, by which a file knows what it imports. -/
def shortName (name : String) : String :=
  (Text.parts '\\' name).getLast (Text.parts_ne_nil _ _)

/-- Short names of imports are apart from each other and from the name that a file declares. -/
def NamesApart (imported : List String) (declared : String) : Prop :=
  imported.Nodup ∧ declared ∉ imported

instance (imported : List String) (declared : String) : Decidable (NamesApart imported declared) :=
  inferInstanceAs (Decidable (_ ∧ _))

/-- What a file imports and declares has different short names. -/
def ImportsApart (text : String) : Prop :=
  ∃ declared, declaredName text = some declared ∧
    NamesApart ((importedNames text).map shortName) declared

/-! ## Lines -/

theorem declaredName?_word {keyword : String} (clean : ' ' ∉ keyword.toList)
    (other : keyword ≠ "class" ∧ keyword ≠ "interface") (rest : String) :
    declaredName? (keyword ++ " " ++ rest) = none := by
  obtain ⟨word, words, cut⟩ := List.exists_cons_of_ne_nil (Text.parts_ne_nil ' ' rest)
  have whole : Text.parts ' ' (keyword ++ " " ++ rest) = keyword :: word :: words := by
    rw [← cut, ← List.singleton_append, ← Text.parts_of_not_mem clean]
    exact Text.parts_append_separator ' ' keyword rest
  rw [declaredName?, whole]
  exact if_neg (by simp [other])

/-- A line that starts with a keyword and a name declares the name. -/
theorem declaredName?_declaration
    {keyword name : String} (isKeyword : keyword = "class" ∨ keyword = "interface")
    (clean : ' ' ∉ name.toList) {rest : String}
    (stops : rest = "" ∨ ∃ words, rest = " " ++ words) :
    declaredName? (keyword ++ " " ++ name ++ rest) = some name := by
  have noBlank : ' ' ∉ keyword.toList := by
    rcases isKeyword with rfl | rfl <;> decide
  have start : Text.parts ' ' (keyword ++ " " ++ name) = [keyword, name] := by
    have cut := Text.parts_append_separator ' ' keyword name
    rw [Text.parts_of_not_mem noBlank, Text.parts_of_not_mem clean] at cut
    exact cut
  have whole : ∃ words,
      Text.parts ' ' (keyword ++ " " ++ name ++ rest) = keyword :: name :: words := by
    rcases stops with rfl | ⟨words, rfl⟩
    · exact ⟨[], by rw [String.append_empty, start]⟩
    · refine ⟨Text.parts ' ' words, ?_⟩
      have cut := Text.parts_append_separator ' ' (keyword ++ " " ++ name) words
      rw [start] at cut
      rw [← String.append_assoc]
      exact cut
  obtain ⟨words, whole⟩ := whole
  rw [declaredName?, whole]
  exact if_pos isKeyword

theorem importedName?_importLine (name : String) :
    importedName? (importLine name) = some name := by
  have whole : (importLine name).toList = "use ".toList ++ (name.toList ++ [';']) := by
    simp [importLine, String.toList_append]
  rw [importedName?, whole, List.dropPrefix?_append_of_beq _ (beq_self_eq_true _)]
  simp

theorem declaredName?_importLine (name : String) : declaredName? (importLine name) = none := by
  have start : importLine name = "use" ++ " " ++ (name ++ ";") := by
    rw [importLine, String.append_assoc]
    rfl
  rw [start]
  exact declaredName?_word (by decide) (by decide) _

theorem importLine_injective : Function.Injective importLine := by
  intro first second same
  have names := congrArg importedName? same
  rw [importedName?_importLine, importedName?_importLine] at names
  exact Option.some.inj names

/-- What is read of a file whose first declaration stands behind given lines. -/
theorem read_of_parts
    {text declaration name : String} {lines rest : List String}
    (shape : Text.parts '\n' text = lines ++ declaration :: rest)
    (undeclared : ∀ line ∈ lines, declaredName? line = none)
    (declares : declaredName? declaration = some name) :
    importedNames text = lines.filterMap importedName? ∧ declaredName text = some name := by
  constructor
  · rw [importedNames, shape, List.takeWhile_append_of_pos, List.takeWhile_cons_of_neg,
      List.append_nil]
    · simp [declares]
    · simpa using undeclared
  · rw [declaredName, shape, List.findSome?_append, List.findSome?_eq_none_iff.mpr undeclared,
      Option.none_or, List.findSome?_cons, declares]

/-! ## Full names -/

theorem shortName_append {name : String} (clean : '\\' ∉ name.toList) (qualifier : String) :
    shortName (qualifier ++ "\\" ++ name) = name := by
  have cut : Text.parts '\\' (qualifier ++ "\\" ++ name) = Text.parts '\\' qualifier ++ [name] := by
    rw [← Text.parts_of_not_mem clean]
    exact Text.parts_append_separator _ qualifier name
  simp [shortName, cut]

/-- The short name of segments is the last one. -/
theorem shortName_intercalate {name : String} (clean : '\\' ∉ name.toList)
    {qualifier : List String} (nonempty : qualifier ≠ []) :
    shortName ("\\".intercalate (qualifier ++ [name])) = name := by
  rw [String.intercalate_append_of_ne_nil nonempty (List.cons_ne_nil _ _), String.intercalate_singleton]
  exact shortName_append clean _

/-- The segment before the last one of a full name. -/
def folderName? (name : String) : Option String :=
  (Text.parts '\\' name).reverse[1]?

theorem folderName?_append {folder name : String} (cleanFolder : '\\' ∉ folder.toList)
    (clean : '\\' ∉ name.toList) (qualifier : String) :
    folderName? (qualifier ++ "\\" ++ folder ++ "\\" ++ name) = some folder := by
  have cut : Text.parts '\\' (qualifier ++ "\\" ++ folder ++ "\\" ++ name) =
      Text.parts '\\' qualifier ++ [folder] ++ [name] := by
    rw [← Text.parts_of_not_mem clean, ← Text.parts_of_not_mem cleanFolder]
    exact (Text.parts_append_separator _ _ _).trans
      (congrArg (· ++ _) (Text.parts_append_separator _ _ _))
  simp [folderName?, cut]

/-! ## Names apart -/

theorem namesApart_nil (declared : String) : NamesApart [] declared :=
  ⟨List.nodup_nil, List.not_mem_nil⟩

theorem namesApart_cons_iff {name declared : String} {names : List String} :
    NamesApart (name :: names) declared ↔
      name ∉ names ∧ declared ≠ name ∧ NamesApart names declared := by
  simp only [NamesApart, List.nodup_cons, List.mem_cons, not_or]
  tauto

/-- Names stay apart with further ones when these have short names of their own. -/
theorem namesApart_append_iff
    {fixed names : List String} {declared : String} (nodup : names.Nodup) :
    NamesApart (fixed ++ names.map shortName) declared ↔
      NamesApart fixed declared ∧
        (∀ name ∈ names, shortName name ∉ fixed ∧ shortName name ≠ declared) ∧
        ∀ name ∈ names, ∀ other ∈ names, shortName name = shortName other → name = other := by
  rw [NamesApart, NamesApart, List.nodup_append, List.nodup_map_iff_inj_on nodup, List.mem_append,
    List.mem_map]
  constructor
  · rintro ⟨⟨fixedNodup, injective, disjoint⟩, declares⟩
    refine ⟨⟨fixedNodup, fun among => declares (.inl among)⟩, fun name member => ⟨?_, ?_⟩,
      injective⟩
    · exact fun among => disjoint _ among _ (List.mem_map_of_mem member) rfl
    · exact fun same => declares (.inr ⟨name, member, same⟩)
  · rintro ⟨⟨fixedNodup, outside⟩, fresh, injective⟩
    refine ⟨⟨fixedNodup, injective, ?_⟩, ?_⟩
    · rintro short among _ mapped rfl
      obtain ⟨name, member, rfl⟩ := List.mem_map.mp mapped
      exact (fresh name member).1 among
    · rintro (among | ⟨name, member, same⟩)
      · exact outside among
      · exact (fresh name member).2 same

end Scaffold.Php
