import Scaffold.Proofs.Output.Migration
import Scaffold.Proofs.Php.Imports
import Scaffold.Stub.Builtin
import Scaffold.Stub.Placeholder

/-!
# Heads of stubs

The stubs of an entity's files start alike: a namespace, imports that stand in the stub or are given,
a block of further imports, and a class or an interface of a given name.  So what a rendered file
imports and declares is read off the values that it is filled with, whatever stands below.
-/

namespace Scaffold.Stub

open Scaffold.Php (declaredName declaredName? importLine importedName? importedNames)

/-- The head of a stub, up to the name that it declares. -/
structure Head where
  /-- The stub has a namespace. -/
  namespaced : Bool := true
  /-- The full names that every file of the stub imports. -/
  fixed : List String
  /-- The keys of the full names that are imported behind them. -/
  given : List String := []
  /-- A block of further imports is filled in. -/
  hasBlock : Bool := false
  /-- The keyword of the declaration. -/
  keyword : String := "class"
  /-- The key of the declared name. -/
  declared : String
  /-- The line of the declaration goes on behind the name. -/
  goesOn : Bool := true

/-- A text of a stub outside placeholders. -/
def plain (text : String) : List Piece :=
  text.toList.map .plain

/-- A placeholder as the built-in stubs write it. -/
def slot (key : String) : Piece :=
  .slot key ("\x7b\x7b ".toList ++ key.toList ++ " \x7d\x7d".toList)

/-- The value of a key. -/
def valueOf (values : Keyed String) (key : String) : String :=
  (Keyed.get? values key).getD ""

namespace Head

variable (head : Head) (values : Keyed String)

/-- The lines above the declaration. -/
def lines : List (List Piece) :=
  [plain "<?php", []] ++
    (if head.namespaced then [plain "namespace " ++ slot "namespace" :: plain ";", []] else []) ++
    head.fixed.map (fun name => plain "use " ++ plain name ++ plain ";") ++
    head.given.map (fun key => plain "use " ++ slot key :: plain ";") ++
    (if head.hasBlock then [[slot "imports"]] else []) ++ [[]]

/-- The pieces of a head. -/
def pieces : List Piece :=
  head.lines.flatMap (· ++ plain "\n") ++
    (plain head.keyword ++ plain " " ++ slot head.declared ::
      plain (if head.goesOn then " " else "\n"))

/-- The keys of a head. -/
def keys : List String :=
  (if head.namespaced then ["namespace"] else []) ++ head.given ++
    (if head.hasBlock then ["imports"] else []) ++ [head.declared]

/-- The lines above the declaration with values in place of the placeholders. -/
def filledLines : List String :=
  ["<?php", ""] ++
    (if head.namespaced then ["namespace " ++ valueOf values "namespace" ++ ";", ""] else []) ++
    head.fixed.map importLine ++ head.given.map (fun key => importLine (valueOf values key)) ++
    (if head.hasBlock then [valueOf values "imports"] else []) ++ [""]

end Head

/-- The heads of the stubs that the files of an entity are rendered from. -/
def entityHeads : Keyed Head :=
  [("model",
      { fixed := ["Illuminate\\Database\\Eloquent\\Factories\\HasFactory",
          "Illuminate\\Database\\Eloquent\\Model"]
        hasBlock := true
        declared := "modelName" }),
    ("migration",
      { namespaced := false
        fixed := ["Illuminate\\Database\\Migrations\\Migration",
          "Illuminate\\Database\\Schema\\Blueprint", "Illuminate\\Support\\Facades\\Schema"]
        declared := "className" }),
    ("controller",
      { fixed := ["Illuminate\\Http\\JsonResponse", "Illuminate\\Routing\\Controller"]
        given := ["requestClass", "serviceInterfaceClass"]
        declared := "controllerName" }),
    ("request",
      { fixed := ["Illuminate\\Foundation\\Http\\FormRequest"], declared := "requestName" }),
    ("service-interface",
      { fixed := ["Illuminate\\Database\\Eloquent\\Collection"]
        given := ["modelClass"]
        keyword := "interface"
        declared := "serviceInterfaceName"
        goesOn := false }),
    ("service",
      { fixed := ["Illuminate\\Database\\Eloquent\\Collection"]
        given := ["modelClass", "repositoryInterfaceClass", "serviceInterfaceClass"]
        declared := "serviceName" }),
    ("repository-interface",
      { fixed := ["Illuminate\\Database\\Eloquent\\Collection"]
        given := ["modelClass"]
        keyword := "interface"
        declared := "repositoryInterfaceName"
        goesOn := false }),
    ("repository",
      { fixed := ["Illuminate\\Database\\Eloquent\\Collection"]
        given := ["modelClass", "repositoryInterfaceClass"]
        declared := "repositoryName" }),
    ("factory",
      { fixed := ["Illuminate\\Database\\Eloquent\\Factories\\Factory"]
        given := ["modelClass"]
        hasBlock := true
        declared := "factoryName" }),
    ("seeder",
      { fixed := ["Illuminate\\Database\\Seeder"]
        given := ["modelClass"]
        declared := "seederName" }),
    ("test",
      { fixed := ["Illuminate\\Foundation\\Testing\\RefreshDatabase", "Tests\\TestCase"]
        given := ["modelClass"]
        declared := "testName" })]

theorem isPrefix_cut_ofLines {pieces : List Piece} {lines : List String}
    (checked : pieces.isPrefixOf (cut (['\n'].intercalate (lines.map String.toList) ++ ['\n']))) :
    pieces <+: cut (ofLines lines).toList := by
  rw [toList_ofLines]
  exact List.isPrefixOf_iff_prefix.mp checked

/-- Every built-in stub of an entity has its head. -/
theorem isPrefix_cut_of_mem {pair : String × Head} (member : pair ∈ entityHeads) :
    ∃ stub, Keyed.get? builtin pair.1 = some stub ∧ pair.2.pieces <+: cut stub.toList := by
  simp only [entityHeads, List.mem_cons, List.not_mem_nil, or_false] at member
  rcases member with rfl | rfl | rfl | rfl | rfl | rfl | rfl | rfl | rfl | rfl | rfl
  all_goals exact ⟨_, rfl, isPrefix_cut_ofLines (by decide +kernel)⟩

/-! ## Filling a head -/

theorem flatMap_plain (values : Keyed String) (text : String) :
    (plain text).flatMap (Piece.filled values) = text.toList := by
  rw [plain, List.flatMap_map]
  exact List.flatMap_singleton' _

namespace Head

variable {head : Head} {values : Keyed String}

/-- The values give every key of a head. -/
def IsFilledBy (head : Head) (values : Keyed String) : Prop :=
  ∀ key ∈ head.keys, (Keyed.get? values key).isSome = true

theorem IsFilledBy.filled_slot (filledBy : head.IsFilledBy values) {key : String}
    (member : key ∈ head.keys) : (slot key).filled values = (valueOf values key).toList := by
  obtain ⟨value, given⟩ := Option.isSome_iff_exists.mp (filledBy key member)
  rw [slot, Piece.filled, valueOf, given]
  rfl

/-- The lines above the declaration as they are filled. -/
theorem IsFilledBy.map_lines (filledBy : head.IsFilledBy values) :
    head.lines.map (fun line => line.flatMap (Piece.filled values)) =
      (head.filledLines values).map String.toList := by
  have start : [plain "<?php", []].map (fun line => line.flatMap (Piece.filled values)) =
      ["<?php", ""].map String.toList := by
    simp [flatMap_plain]
  have namespaces : (if head.namespaced then
        [plain "namespace " ++ slot "namespace" :: plain ";", []] else []).map
          (fun line => line.flatMap (Piece.filled values)) =
      (if head.namespaced then ["namespace " ++ valueOf values "namespace" ++ ";", ""]
        else []).map String.toList := by
    split_ifs with namespaced
    · have among : "namespace" ∈ head.keys := by simp [keys, namespaced]
      simp [flatMap_plain, filledBy.filled_slot among, String.toList_append]
    · rfl
  have fixed : (head.fixed.map fun name => plain "use " ++ plain name ++ plain ";").map
        (fun line => line.flatMap (Piece.filled values)) =
      (head.fixed.map importLine).map String.toList := by
    simp [flatMap_plain, importLine, Function.comp_def, String.toList_append]
  have given : (head.given.map fun key => plain "use " ++ slot key :: plain ";").map
        (fun line => line.flatMap (Piece.filled values)) =
      (head.given.map fun key => importLine (valueOf values key)).map String.toList := by
    rw [List.map_map, List.map_map]
    refine List.map_congr_left fun key member => ?_
    have among : key ∈ head.keys := by simp [keys, member]
    simp [flatMap_plain, filledBy.filled_slot among, importLine, String.toList_append]
  have block : (if head.hasBlock then [[slot "imports"]] else []).map
        (fun line => line.flatMap (Piece.filled values)) =
      (if head.hasBlock then [valueOf values "imports"] else []).map String.toList := by
    split_ifs with hasBlock
    · have among : "imports" ∈ head.keys := by simp [keys, hasBlock]
      simp [filledBy.filled_slot among]
    · rfl
  simp only [lines, filledLines, List.map_append, start, namespaces, fixed, given, block]
  rfl

/-- A filled stub starts with the lines of its head, and its declaration follows. -/
theorem IsFilledBy.exists_fill (filledBy : head.IsFilledBy values) {stub : String}
    (isHead : head.pieces <+: cut stub.toList) :
    ∃ rest : String, (fill values stub).toList =
      ((head.filledLines values).map String.toList).flatMap (· ++ ['\n']) ++
        (head.keyword ++ " " ++ valueOf values head.declared ++
          (if head.goesOn then " " else "\n") ++ rest).toList := by
  obtain ⟨others, whole⟩ := isHead
  refine ⟨String.ofList (others.flatMap (Piece.filled values)), ?_⟩
  have among : head.declared ∈ head.keys := by simp [keys]
  have above : (head.lines.flatMap (· ++ plain "\n")).flatMap (Piece.filled values) =
      ((head.filledLines values).map String.toList).flatMap (· ++ ['\n']) := by
    rw [← filledBy.map_lines, List.flatMap_map, List.flatMap_assoc]
    refine List.flatMap_congr fun line _ => ?_
    rw [List.flatMap_append, flatMap_plain]
    rfl
  rw [fill, String.toList_ofList, ← whole, pieces, List.flatMap_append, List.flatMap_append, above]
  simp only [List.flatMap_append, List.flatMap_cons, flatMap_plain, filledBy.filled_slot among,
    String.toList_append, String.toList_ofList, List.append_assoc]

/-! ## Reading a filled head -/

/-- The values of a head stay within their lines. -/
structure IsClean (head : Head) (values : Keyed String) : Prop where
  keyword : head.keyword = "class" ∨ head.keyword = "interface"
  namespaced : head.namespaced = true → '\n' ∉ (valueOf values "namespace").toList
  fixed : ∀ name ∈ head.fixed, '\n' ∉ name.toList
  given : ∀ key ∈ head.given, '\n' ∉ (valueOf values key).toList
  block : head.hasBlock = true →
    ∀ line ∈ Text.parts '\n' (valueOf values "imports"), declaredName? line = none
  declared : ' ' ∉ (valueOf values head.declared).toList ∧
    '\n' ∉ (valueOf values head.declared).toList

/-- The lines of the block of imports. -/
def blockLines (head : Head) (values : Keyed String) : List String :=
  if head.hasBlock then Text.parts '\n' (valueOf values "imports") else []

/-- The lines above the declaration, with the block line by line. -/
def readLines (head : Head) (values : Keyed String) : List String :=
  ["<?php", ""] ++
    (if head.namespaced then ["namespace " ++ valueOf values "namespace" ++ ";", ""] else []) ++
    head.fixed.map importLine ++ head.given.map (fun key => importLine (valueOf values key)) ++
    head.blockLines values ++ [""]

theorem parts_importLine {name : String} (clean : '\n' ∉ name.toList) :
    Text.parts '\n' (importLine name) = [importLine name] := by
  refine Text.parts_of_not_mem ?_
  simp [importLine, clean]

theorem IsClean.flatMap_filledLines (clean : head.IsClean values) :
    (head.filledLines values).flatMap (Text.parts '\n') = head.readLines values := by
  have single {lines : List String} (each : ∀ line ∈ lines, Text.parts '\n' line = [line]) :
      lines.flatMap (Text.parts '\n') = lines := by
    rw [List.flatMap_congr each]
    exact List.flatMap_singleton' lines
  have start : ["<?php", ""].flatMap (Text.parts '\n') = ["<?php", ""] := by decide
  have last : [""].flatMap (Text.parts '\n') = [""] := by decide
  have namespaces : (if head.namespaced then
        ["namespace " ++ valueOf values "namespace" ++ ";", ""] else []).flatMap (Text.parts '\n') =
      if head.namespaced then ["namespace " ++ valueOf values "namespace" ++ ";", ""] else [] := by
    refine single ?_
    split_ifs with namespaced
    · refine List.forall_mem_cons.mpr ⟨Text.parts_of_not_mem ?_, by decide⟩
      simp [clean.namespaced namespaced]
    · exact nofun
  have fixed : (head.fixed.map importLine).flatMap (Text.parts '\n') =
      head.fixed.map importLine :=
    single (List.forall_mem_map.mpr fun name member => parts_importLine (clean.fixed name member))
  have given : (head.given.map fun key => importLine (valueOf values key)).flatMap
        (Text.parts '\n') = head.given.map fun key => importLine (valueOf values key) :=
    single (List.forall_mem_map.mpr fun key member => parts_importLine (clean.given key member))
  have block : (if head.hasBlock then [valueOf values "imports"] else []).flatMap
        (Text.parts '\n') = head.blockLines values := by
    rw [blockLines]
    split_ifs <;> simp
  simp only [filledLines, readLines, List.flatMap_append, start, last, namespaces, fixed, given,
    block]

theorem declaredName?_namespace (name : String) :
    declaredName? ("namespace " ++ name ++ ";") = none := by
  have start : "namespace " ++ name ++ ";" = "namespace" ++ " " ++ (name ++ ";") := by
    rw [← String.append_assoc]
    rfl
  rw [start]
  exact Php.declaredName?_word (by decide) (by decide) _

theorem importedName?_namespace (name : String) :
    importedName? ("namespace " ++ name ++ ";") = none := by
  have start : ("namespace " ++ name ++ ";").toList =
      'n' :: ("amespace ".toList ++ name.toList ++ [';']) := by
    rw [String.toList_append, String.toList_append]
    rfl
  rw [importedName?, start]
  rfl

/-- No line above the declaration declares anything. -/
theorem IsClean.undeclared (clean : head.IsClean values) :
    ∀ line ∈ head.readLines values, declaredName? line = none := by
  simp only [readLines, List.forall_mem_append, List.forall_mem_map]
  refine ⟨⟨⟨⟨⟨by decide, ?_⟩, ?_⟩, ?_⟩, ?_⟩, by decide⟩
  · split_ifs
    · exact List.forall_mem_cons.mpr ⟨declaredName?_namespace _, by decide⟩
    · exact nofun
  · exact fun name _ => Php.declaredName?_importLine name
  · exact fun key _ => Php.declaredName?_importLine _
  · rw [blockLines]
    split_ifs with hasBlock
    · exact clean.block hasBlock
    · exact nofun

/-- The imports of a head: those of the stub, those that are given and those of the block. -/
theorem filterMap_readLines :
    (head.readLines values).filterMap importedName? =
      head.fixed ++ head.given.map (valueOf values) ++
        (head.blockLines values).filterMap importedName? := by
  have imported {α : Type} (names : List α) (name : α → String) :
      (names.map fun one => importLine (name one)).filterMap importedName? = names.map name := by
    rw [List.filterMap_map, ← congrFun List.filterMap_eq_map]
    exact List.filterMap_congr fun one _ => Php.importedName?_importLine _
  have start : ["<?php", ""].filterMap importedName? = [] := by decide
  have last : [""].filterMap importedName? = [] := by decide
  have namespaces : (if head.namespaced then
      ["namespace " ++ valueOf values "namespace" ++ ";", ""] else []).filterMap importedName? =
        [] := by
    split_ifs
    · rw [List.filterMap_cons_none (importedName?_namespace _)]
      decide
    · rfl
  simp only [readLines, List.filterMap_append, start, last, namespaces, imported, List.nil_append,
    List.append_nil, List.map_id']

/-- The line of the declaration declares the name that is given. -/
theorem IsClean.exists_declaration (clean : head.IsClean values) (rest : String) :
    ∃ declaration others, Text.parts '\n' (head.keyword ++ " " ++ valueOf values head.declared ++
        (if head.goesOn then " " else "\n") ++ rest) = declaration :: others ∧
      declaredName? declaration = some (valueOf values head.declared) := by
  have within : '\n' ∉ (head.keyword ++ " " ++ valueOf values head.declared).toList := by
    have keyword : '\n' ∉ head.keyword.toList := by
      rcases clean.keyword with same | same <;> rw [same] <;> decide
    simp [String.toList_append, keyword, clean.declared.2]
  split_ifs
  · obtain ⟨line, others, cut⟩ := List.exists_cons_of_ne_nil (Text.parts_ne_nil '\n' rest)
    refine ⟨_, others, Text.parts_append_of_not_mem (by simpa using within) cut, ?_⟩
    rw [String.append_assoc]
    exact Php.declaredName?_declaration clean.keyword clean.declared.1 (.inr ⟨line, rfl⟩)
  · refine ⟨_, Text.parts '\n' rest, ?_, Php.declaredName?_declaration clean.keyword
      clean.declared.1 (.inl rfl)⟩
    have cut := Text.parts_append_separator '\n'
      (head.keyword ++ " " ++ valueOf values head.declared) rest
    rw [Text.parts_of_not_mem within] at cut
    rw [String.append_empty]
    exact cut

/-- The lines of a file are those of its head, its declaration and others. -/
theorem IsFilledBy.exists_parts (filledBy : head.IsFilledBy values) (clean : head.IsClean values)
    {stub : String} (isHead : head.pieces <+: cut stub.toList) :
    ∃ declaration others,
      Text.parts '\n' (fill values stub) = head.readLines values ++ declaration :: others ∧
        declaredName? declaration = some (valueOf values head.declared) := by
  obtain ⟨rest, whole⟩ := filledBy.exists_fill isHead
  have lines := Text.parts_of_terminated whole
  obtain ⟨declaration, others, cut, declares⟩ := clean.exists_declaration rest
  rw [clean.flatMap_filledLines, cut] at lines
  exact ⟨declaration, others, lines, declares⟩

/-- What a file imports and declares is what its stub is filled with. -/
theorem IsFilledBy.read (filledBy : head.IsFilledBy values) (clean : head.IsClean values)
    {stub : String} (isHead : head.pieces <+: cut stub.toList) :
    importedNames (fill values stub) = head.fixed ++ head.given.map (valueOf values) ++
        (head.blockLines values).filterMap importedName? ∧
      declaredName (fill values stub) = some (valueOf values head.declared) := by
  obtain ⟨declaration, others, lines, declares⟩ := filledBy.exists_parts clean isHead
  rw [← filterMap_readLines]
  exact Php.read_of_parts lines clean.undeclared declares

end Head

end Scaffold.Stub
