import Scaffold.Proofs.Output.ImportBlocks
import Scaffold.Proofs.Relation.Reading

/-!
# The file of a model is read back

The built-in stub of a model has a namespace, two imports and the block of imports in front of the
class, and the methods of the relations at the end of the class.  Read as code, the rendered file
has the namespace of models, the imports of stub and block, and one public method for each relation.
-/

namespace Scaffold

open Scaffold.Php (ClassFile EndsWord IsPiece Spells Token importTokens importedName? isPiece_name
  isWordPart readAll statements wordOf)
open Scaffold.Stub (Piece cut fill plain slot)

/-! ## The stub -/

namespace Stub

/-- The pieces of the stub of a model above the body of its class. -/
def modelHeadPieces : List Piece :=
  plain "<?php\n\nnamespace " ++ slot "namespace" ::
    (plain ";\n\nuse Illuminate\\Database\\Eloquent\\Factories\\HasFactory;\n" ++
      plain "use Illuminate\\Database\\Eloquent\\Model;\n" ++ slot "imports" ::
    (plain "\n" ++ plain "\nclass " ++ slot "modelName" :: plain " extends Model\n"))

/-- The pieces of the stub of a model from the body of its class on. -/
def modelBodyPieces : List Piece :=
  plain "\x7b\n    use HasFactory;\n\n    protected $table = " ++ plain "'" ++ slot "table" ::
    (plain "'" ++ plain ";\n\n    " ++ slot "fillable" ::
    (plain "\n\n    protected static function newFactory(): " ++ slot "factoryName" ::
    (plain "\n    \x7b\n        return " ++ slot "factoryName" ::
    (plain "::new();\n    \x7d\n" ++ slot "relationships" :: (plain "\n" ++ plain "\x7d\n")))))

theorem cut_modelStub : cut modelStub.toList = modelHeadPieces ++ modelBodyPieces := by
  rw [modelStub, toList_ofLines]
  decide +kernel

end Stub

namespace Descriptor

variable {config : Config} {name : String} {descriptor : Descriptor}

/-- The text of a model above the body of its class. -/
def modelHead (config : Config) (name : String) (descriptor : Descriptor) : String :=
  "<?php\n\nnamespace " ++ (config.namespaceOf [descriptor.module, "Models"] ++
    (";\n\nuse Illuminate\\Database\\Eloquent\\Factories\\HasFactory;\n" ++
      "use Illuminate\\Database\\Eloquent\\Model;\n" ++
    (Text.joinLines (descriptor.modelBlock config name) ++ "\n" ++
    ("\nclass " ++ (name ++ " extends Model\n")))))

/-- The text of a model from the body of its class on. -/
def modelBody (descriptor : Descriptor) : String :=
  "\x7b\n    use HasFactory;\n\n    protected $table = " ++ ("'" ++ descriptor.table ++ "'" ++
    (";\n\n    " ++ (descriptor.fillableDeclaration ++
    ("\n\n    protected static function newFactory(): " ++ (descriptor.entity ++ "Factory" ++
    ("\n    \x7b\n        return " ++ (descriptor.entity ++ "Factory" ++
    ("::new();\n    \x7d\n" ++ (descriptor.relationshipBlock ++ "\n" ++ "\x7d\n")))))))))

theorem content_modelPlan (config : Config) (name : String) (descriptor : Descriptor) :
    (descriptor.modelPlan config name).content =
      descriptor.modelHead config (Text.nameOr (some name) descriptor.entity) ++
        descriptor.modelBody := by
  have stub : (Keyed.get? Stub.builtin (descriptor.modelPlan config name).stub).getD "" =
      Stub.modelStub := rfl
  have value {key text : String}
      (given : Keyed.get? (descriptor.modelPlan config name).values key = some text) :
      (slot key).filled (descriptor.modelPlan config name).values = text.toList := by
    rw [slot, Piece.filled, given]
  have namespaces := @value "namespace" _ rfl
  have imports := @value "imports" _ rfl
  have model := @value "modelName" _ rfl
  have table := @value "table" _ rfl
  have fillable := @value "fillable" _ rfl
  have factory := @value "factoryName" _ rfl
  have relationships := @value "relationships" _ rfl
  rw [FilePlan.content, stub, ← String.toList_inj, fill, String.toList_ofList, Stub.cut_modelStub,
    Stub.modelHeadPieces, Stub.modelBodyPieces]
  unfold modelHead modelBody
  simp only [List.flatMap_append, List.flatMap_cons, Stub.flatMap_plain, namespaces, imports, model,
    table, fillable, factory, relationships, String.toList_append, List.append_assoc]
  rfl

/-- The names in the file of a model can stand in code. -/
structure HasPlainModel (config : Config) (name : String) (descriptor : Descriptor) : Prop where
  qualifier : ∀ c ∈ (config.namespaceOf [descriptor.module, "Models"]).toList, isWordPart c = true
  model : ∀ c ∈ name.toList, isWordPart c = true
  entity : ∀ c ∈ descriptor.entity.toList, isWordPart c = true
  table : ∀ c ∈ descriptor.table.toList, c ≠ '\\' ∧ c ≠ '\''
  block : ∀ line ∈ descriptor.modelBlock config name,
    Spells (line ++ "\n") ((importedName? line).elim [] importTokens)
  methods : ∀ method ∈ descriptor.methods, method.IsPlain

/-- The tokens of the lines in a block of imports. -/
def blockTokens (lines : List String) : List Token :=
  lines.flatMap fun line => (importedName? line).elim [] importTokens

/-- The tokens of a model above the body of its class. -/
def headTokens (config : Config) (name : String) (descriptor : Descriptor) : List Token :=
  .mark '<' :: .mark '?' :: .word "php" ::
    .word "namespace" :: .word (config.namespaceOf [descriptor.module, "Models"]) :: .mark ';' ::
    .word "use" :: .word "Illuminate\\Database\\Eloquent\\Factories\\HasFactory" :: .mark ';' ::
    .word "use" :: .word "Illuminate\\Database\\Eloquent\\Model" :: .mark ';' ::
    (blockTokens (descriptor.modelBlock config name) ++
      .word "class" :: (wordOf name ++ [.word "extends", .word "Model"]))

/-- The tokens of a model behind the attributes that may be filled, up to its relations. -/
def makerTokens (descriptor : Descriptor) : List Token :=
  [.mark ';', .word "protected", .word "static", .word "function", .word "newFactory", .mark '(',
    .mark ')', .mark ':', .word (descriptor.entity ++ "Factory"), .mark '\x7b', .word "return",
    .word (descriptor.entity ++ "Factory"), .mark ':', .mark ':', .word "new", .mark '(', .mark ')',
    .mark ';', .mark '\x7d']

/-- The tokens of a model in the body of its class. -/
def bodyTokens (descriptor : Descriptor) : List Token :=
  .word "use" :: .word "HasFactory" :: .mark ';' ::
    .word "protected" :: .mark '$' :: .word "table" :: .mark '=' :: .literal :: .mark ';' ::
    .word "protected" :: .mark '$' :: .word "fillable" :: .mark '=' :: .mark '[' ::
    (RelationArgument.allTokens (descriptor.fillable.map .text) ++ .mark ']' ::
      (descriptor.makerTokens ++
        (descriptor.methods.flatMap RelationMethod.tokens ++ [.mark '\x7d'])))

theorem spells_relationshipBlock (plain : ∀ method ∈ descriptor.methods, method.IsPlain) :
    Spells (descriptor.relationshipBlock ++ "\n")
      (descriptor.methods.flatMap RelationMethod.tokens) := by
  have each (methods : List RelationMethod) (plain : ∀ method ∈ methods, method.IsPlain) :
      Spells (Text.terminated (methods.flatMap RelationMethod.lines))
        (methods.flatMap RelationMethod.tokens) := by
    induction methods with
    | nil => decide +kernel
    | cons method rest hypothesis =>
        rw [List.forall_mem_cons] at plain
        rw [List.flatMap_cons, List.flatMap_cons, Text.terminated_append]
        exact (RelationMethod.spells_lines plain.1).append (hypothesis plain.2)
  have block : descriptor.relationshipBlock =
      Text.joinLines (descriptor.methods.flatMap RelationMethod.lines) := rfl
  rw [block]
  by_cases none : descriptor.methods = []
  · rw [none]
    decide +kernel
  · rw [Text.joinLines_append_lineEnd]
    · exact each _ plain
    · obtain ⟨method, rest, shape⟩ := List.exists_cons_of_ne_nil none
      rw [shape]
      exact List.cons_ne_nil _ _

theorem modelBlock_ne_nil (config : Config) (name : String) (descriptor : Descriptor) :
    descriptor.modelBlock config name ≠ [] :=
  List.ne_nil_of_mem (mem_modelBlock_iff.mpr (.inl rfl))

theorem spells_modelHead (plain : descriptor.HasPlainModel config name) :
    Spells (descriptor.modelHead config name) (descriptor.headTokens config name) := by
  have nonempty : config.namespaceOf [descriptor.module, "Models"] ≠ "" := by
    rw [Config.namespaceOf, String.intercalate_cons_cons]
    simp
  have start : Spells "<?php\n\nnamespace "
      [.mark '<', .mark '?', .word "php", .word "namespace"] := by
    decide +kernel
  have fixed : Spells (";\n\nuse Illuminate\\Database\\Eloquent\\Factories\\HasFactory;\n" ++
        "use Illuminate\\Database\\Eloquent\\Model;\n")
      (.mark ';' :: importTokens "Illuminate\\Database\\Eloquent\\Factories\\HasFactory" ++
        importTokens "Illuminate\\Database\\Eloquent\\Model") := by
    decide +kernel
  have keyword : Spells "\nclass " [.word "class"] := by decide +kernel
  have parent : Spells " extends Model\n" [.word "extends", .word "Model"] := by decide +kernel
  have lines : Spells (Text.joinLines (descriptor.modelBlock config name) ++ "\n")
      (blockTokens (descriptor.modelBlock config name)) := by
    rw [Text.joinLines_append_lineEnd]
    · exact Php.spells_terminated plain.block
    · exact modelBlock_ne_nil config name descriptor
  have qualifier := isPiece_name plain.qualifier
  rw [Php.wordOf_of_ne nonempty] at qualifier
  have ends : EndsWord (";\n\nuse Illuminate\\Database\\Eloquent\\Factories\\HasFactory;\n" ++
      "use Illuminate\\Database\\Eloquent\\Model;\n") := by
    decide +kernel
  have declared := keyword.append (isPiece_name plain.model _ _ (by decide) parent)
  have whole := start.append
    (qualifier _ _ (ends.append _) (fixed.append (lines.append declared)))
  simp only [importTokens, List.cons_append, List.nil_append] at whole
  unfold modelHead headTokens
  exact whole

/-- The declaration of the attributes that may be filled is made of literals and marks. -/
theorem spells_fillableDeclaration (descriptor : Descriptor) :
    Spells descriptor.fillableDeclaration
      (.word "protected" :: .mark '$' :: .word "fillable" :: .mark '=' :: .mark '[' ::
        (RelationArgument.allTokens (descriptor.fillable.map .text) ++
          [.mark ']', .mark ';'])) := by
  have start : Spells "protected $fillable = ["
      [.word "protected", .mark '$', .word "fillable", .mark '=', .mark '['] := by
    decide +kernel
  have stop : Spells "];" [.mark ']', .mark ';'] := by decide +kernel
  have plain : ∀ argument ∈ descriptor.fillable.map RelationArgument.text, argument.IsPlain :=
    List.forall_mem_map.mpr fun _ _ => trivial
  have items : (descriptor.fillable.map Php.Scalar.text).map Php.Scalar.literal =
      (descriptor.fillable.map RelationArgument.text).map (·.spelled) := by
    rw [List.map_map, List.map_map]
    rfl
  have spelled : descriptor.fillableDeclaration = "protected $fillable = " ++
      ("[" ++ ", ".intercalate ((descriptor.fillable.map Php.Scalar.text).map Php.Scalar.literal) ++
        "]") ++ ";" := rfl
  have line : descriptor.fillableDeclaration = "protected $fillable = [" ++
      (", ".intercalate ((descriptor.fillable.map RelationArgument.text).map (·.spelled)) ++
        "];") := by
    have opening : "protected $fillable = [" = "protected $fillable = " ++ "[" := rfl
    have closing : "];" = "]" ++ ";" := rfl
    rw [spelled, items, opening, closing]
    simp only [String.append_assoc]
  have whole := start.append
    (RelationArgument.isPiece_intercalate plain _ _ (by decide) stop)
  rw [line]
  exact whole

theorem spells_modelBody (plain : descriptor.HasPlainModel config name) :
    Spells descriptor.modelBody (.mark '\x7b' :: descriptor.bodyTokens) := by
  have start : Spells "\x7b\n    use HasFactory;\n\n    protected $table = "
      [.mark '\x7b', .word "use", .word "HasFactory", .mark ';', .word "protected", .mark '$',
        .word "table", .mark '='] := by
    decide +kernel
  have table := Php.spells_string descriptor.table
  rw [Php.string_eq_of_plain plain.table] at table
  have next : Spells ";\n\n    " [.mark ';'] := by decide +kernel
  have maker : Spells "\n\n    protected static function newFactory(): "
      [.word "protected", .word "static", .word "function", .word "newFactory", .mark '(',
        .mark ')', .mark ':'] := by
    decide +kernel
  have opened : Spells "\n    \x7b\n        return " [.mark '\x7b', .word "return"] := by
    decide +kernel
  have made : Spells "::new();\n    \x7d\n" [.mark ':', .mark ':', .word "new", .mark '(',
      .mark ')', .mark ';', .mark '\x7d'] := by
    decide +kernel
  have closed : Spells "\x7d\n" [.mark '\x7d'] := by decide +kernel
  have factory : IsPiece (descriptor.entity ++ "Factory")
      [.word (descriptor.entity ++ "Factory")] := by
    have parts : ∀ c ∈ (descriptor.entity ++ "Factory").toList, isWordPart c = true := by
      rw [String.toList_append, List.forall_mem_append]
      exact ⟨plain.entity, List.all_eq_true.mp (by decide)⟩
    have nonempty : descriptor.entity ++ "Factory" ≠ "" := by simp
    rw [← Php.wordOf_of_ne nonempty]
    exact isPiece_name parts
  have methods := (spells_relationshipBlock plain.methods).append closed
  have whole := start.append (table.append (next.append
    ((spells_fillableDeclaration descriptor).append (maker.append
      (factory _ _ ((by decide : EndsWord "\n    \x7b\n        return ").append _) (opened.append
        (factory _ _ ((by decide : EndsWord "::new();\n    \x7d\n").append _)
          (made.append methods))))))))
  simp only [List.cons_append, List.nil_append, List.append_assoc] at whole
  unfold modelBody bodyTokens makerTokens
  exact whole

/-! ## Reading the tokens -/

theorem not_mem_headTokens : .mark '\x7b' ∉ descriptor.headTokens config name := by
  have block : .mark '\x7b' ∉ blockTokens (descriptor.modelBlock config name) := by
    rw [blockTokens, List.mem_flatMap]
    rintro ⟨line, -, member⟩
    cases imported : importedName? line <;> simp [imported, importTokens] at member
  have own : .mark '\x7b' ∉ wordOf name := by
    rw [wordOf]
    split_ifs <;> simp
  simp [headTokens, block, own]

theorem statements_headTokens (keyword : String) :
    statements keyword (descriptor.headTokens config name) =
      (if "namespace" = keyword then [config.namespaceOf [descriptor.module, "Models"]] else []) ++
        (if "use" = keyword then
          "Illuminate\\Database\\Eloquent\\Factories\\HasFactory" ::
            "Illuminate\\Database\\Eloquent\\Model" ::
              (descriptor.modelBlock config name).filterMap importedName?
        else []) := by
  have declaration : statements keyword
      (.word "class" :: (wordOf name ++ [.word "extends", .word "Model"])) = [] := by
    by_cases empty : name = "" <;> simp [wordOf, empty, statements, readAll, Php.statementAt?]
  have start (next : String) (rest : List Token) :
      statements keyword
          (.mark '<' :: .mark '?' :: .word "php" :: .word "namespace" :: .word next :: rest) =
        statements keyword (.word "namespace" :: .word next :: rest) := rfl
  rw [headTokens, start, Php.statements_cons, Php.statements_cons, Php.statements_cons, blockTokens,
    Php.statements_lines, declaration]
  split_ifs <;> simp_all

theorem methods_bodyTokens (descriptor : Descriptor) :
    Php.methods (.mark '\x7b' :: descriptor.bodyTokens) =
      descriptor.methods.map RelationMethod.read := by
  have relations (methods : List RelationMethod) :
      Php.methods (methods.flatMap RelationMethod.tokens ++ [.mark '\x7d']) =
        methods.map RelationMethod.read := by
    induction methods with
    | nil => rfl
    | cons method rest hypothesis =>
        rw [List.flatMap_cons, List.append_assoc, RelationMethod.methods_tokens, hypothesis]
        rfl
  have fillable := @RelationArgument.readAll_allTokens _ Php.methodAt? (fun _ => [])
    (fun _ _ => rfl) (fun argument c others _ => argument.methods_tokens c others) ']' (by decide)
    (descriptor.fillable.map .text) (descriptor.makerTokens ++
      (descriptor.methods.flatMap RelationMethod.tokens ++ [.mark '\x7d']))
  rw [← relations]
  refine Eq.trans ?_ (fillable.trans ?_)
  · simp [bodyTokens, Php.methods, readAll, Php.methodAt?]
  · simp [makerTokens, Php.methods, readAll, Php.methodAt?]

/-- The classes that every model imports. -/
def baseImports : List String :=
  ["Illuminate\\Database\\Eloquent\\Factories\\HasFactory",
    "Illuminate\\Database\\Eloquent\\Model"]

/-- The file of a model as it is read. -/
def modelFile (config : Config) (name : String) (descriptor : Descriptor) : ClassFile where
  qualifier := some (config.namespaceOf [descriptor.module, "Models"])
  imports := baseImports ++ (descriptor.modelBlock config name).filterMap importedName?
  methods := descriptor.methods.map RelationMethod.read

/-- The file of a model is read as what its descriptor says. -/
theorem ofText_modelPlan
    (plain : descriptor.HasPlainModel config (Text.nameOr (some name) descriptor.entity)) :
    ClassFile.ofText (descriptor.modelPlan config name).content =
      descriptor.modelFile config (Text.nameOr (some name) descriptor.entity) := by
  have spells := (spells_modelHead plain).append (spells_modelBody plain)
  rw [content_modelPlan, ClassFile.ofText_eq spells not_mem_headTokens, statements_headTokens,
    statements_headTokens, methods_bodyTokens]
  rfl

end Descriptor

end Scaffold
