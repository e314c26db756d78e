import Scaffold.Output.Entity
import Scaffold.Proofs.Php.ClassFile
import Scaffold.Proofs.Relation.Binding
import Scaffold.Proofs.Relation.Names

/-!
# Relation methods are read back

The lines of a relation method are a comment, a head and a body of one statement.  Read as code they
are a public method of the relation's name, without a line feed at its end, that returns the class
of the relation's kind and refers to the class of its target, if it has one.
-/

namespace Scaffold

open Scaffold.Php (EndsWord IsPiece Scanner Spells Token isPiece_name isWordPart readAll wordOf)

/-! ## Arguments -/

/-- The name under which a model refers to the class of a target. -/
def Target.reference (target : Target) : String :=
  match target.scope with
  | .neighbour _ fullName | .application fullName => "\\" ++ fullName
  | .sibling _ _ | .unknown _ _ => target.name

theorem Target.classReference_eq (target : Target) :
    target.classReference = target.reference ++ "::class" := by
  rw [classReference, reference]
  cases target.scope <;> rfl

namespace RelationArgument

/-- The names in an argument are made of the characters of names. -/
def IsPlain : RelationArgument → Prop
  | .target found => ∀ c ∈ found.reference.toList, isWordPart c = true
  | .text _ => True
  | .named parameter _ => ∀ c ∈ parameter.toList, isWordPart c = true

/-- The tokens of an argument. -/
def tokens : RelationArgument → List Token
  | .target found => wordOf found.reference ++ [.mark ':', .mark ':', .word "class"]
  | .text _ => [.literal]
  | .named parameter _ => wordOf parameter ++ [.mark ':', .literal]

/-- The class that an argument refers to. -/
def references : RelationArgument → List String
  | .target found => if found.reference = "" then [] else [found.reference]
  | .text _ | .named _ _ => []

theorem isPiece_spelled {argument : RelationArgument} (plain : argument.IsPlain) :
    IsPiece argument.spelled argument.tokens := by
  cases argument with
  | target found =>
      have colons : Spells "::" [.mark ':', .mark ':'] := by decide +kernel
      have keyword := colons.append_isPiece
        (isPiece_name (List.all_eq_true.mp (by decide : "class".toList.all isWordPart = true)))
      rw [spelled, found.classReference_eq]
      exact (isPiece_name plain).append (by decide) keyword
  | text value => exact (Php.spells_string value).isPiece
  | named parameter value =>
      have colon : Spells ": " [.mark ':'] := by decide +kernel
      have behind := colon.append (Php.spells_string value)
      rw [spelled, String.append_assoc]
      exact (isPiece_name plain).append ((by decide : EndsWord ": ").append _) behind.isPiece

/-- The tokens of the arguments of a call. -/
def allTokens (arguments : List RelationArgument) : List Token :=
  [Token.mark ','].intercalate (arguments.map tokens)

theorem allTokens_cons_cons (argument next : RelationArgument) (others : List RelationArgument) :
    allTokens (argument :: next :: others) =
      tokens argument ++ [.mark ','] ++ allTokens (next :: others) :=
  List.intercalate_cons_of_ne_nil (List.cons_ne_nil _ _)

theorem isPiece_intercalate
    {arguments : List RelationArgument} (plain : ∀ argument ∈ arguments, argument.IsPlain) :
    IsPiece (", ".intercalate (arguments.map (·.spelled))) (allTokens arguments) := by
  induction arguments with
  | nil => exact (show Spells "" [] by decide +kernel).isPiece
  | cons argument rest hypothesis =>
      rw [List.forall_mem_cons] at plain
      cases rest with
      | nil => simpa [allTokens] using isPiece_spelled plain.1
      | cons next others =>
          have comma : Spells ", " [.mark ','] := by decide +kernel
          have behind := comma.append_isPiece (hypothesis plain.2)
          have ends : EndsWord ", " := by decide
          have whole := (isPiece_spelled plain.1).append (ends.append _) behind
          have more : (next :: others).map (·.spelled) ≠ [] := List.cons_ne_nil _ _
          rw [List.map_cons, String.intercalate_cons_of_ne_nil more, String.append_assoc,
            allTokens_cons_cons, List.append_assoc]
          exact whole

/-- What is read of the arguments of a call is what is read of each of them. -/
theorem readAll_allTokens
    {α : Type} {read : List Token → Option α} {found : RelationArgument → List α}
    (marks : ∀ c rest, read (.mark c :: rest) = none)
    (each : ∀ argument c rest, c ≠ ':' → readAll read (tokens argument ++ .mark c :: rest) =
      found argument ++ readAll read (.mark c :: rest))
    {close : Char} (other : close ≠ ':') (arguments : List RelationArgument) (rest : List Token) :
    readAll read (allTokens arguments ++ .mark close :: rest) =
      arguments.flatMap found ++ readAll read rest := by
  have skip (c : Char) (others : List Token) :
      readAll read (.mark c :: others) = readAll read others := by
    rw [readAll, marks]
    rfl
  induction arguments with
  | nil => exact skip close rest
  | cons argument others hypothesis =>
      cases others with
      | nil =>
          rw [allTokens, List.map_singleton, List.intercalate_singleton,
            each argument close rest other, skip, List.flatMap_singleton]
      | cons next others =>
          rw [allTokens_cons_cons, List.append_assoc, List.append_assoc, List.singleton_append,
            each argument ',' _ (by decide), skip, hypothesis, ← List.append_assoc]
          rfl

theorem not_mem_allTokens (arguments : List RelationArgument) :
    .mark '\x7d' ∉ allTokens arguments := by
  have each (argument : RelationArgument) : .mark '\x7d' ∉ argument.tokens := by
    cases argument with
    | target found => by_cases empty : found.reference = "" <;> simp [tokens, wordOf, empty]
    | text value => simp [tokens]
    | named parameter value => by_cases empty : parameter = "" <;> simp [tokens, wordOf, empty]
  intro member
  rcases Text.mem_of_mem_intercalate member with impossible | ⟨part, among, within⟩
  · cases impossible
  · obtain ⟨argument, -, rfl⟩ := List.mem_map.mp among
    exact each argument within

theorem references_tokens (argument : RelationArgument) (c : Char) (rest : List Token)
    (other : c ≠ ':') :
    Php.references (argument.tokens ++ .mark c :: rest) =
      argument.references ++ Php.references (.mark c :: rest) := by
  cases argument with
  | target found =>
      by_cases empty : found.reference = "" <;>
        simp [tokens, references, wordOf, empty, Php.references, readAll, Php.referenceAt?, other]
  | text value => rfl
  | named parameter value =>
      by_cases empty : parameter = "" <;>
        simp [tokens, references, wordOf, empty, Php.references, readAll, Php.referenceAt?]

theorem methods_tokens (argument : RelationArgument) (c : Char) (rest : List Token) :
    Php.methods (argument.tokens ++ .mark c :: rest) = Php.methods (.mark c :: rest) := by
  cases argument with
  | target found =>
      by_cases empty : found.reference = "" <;>
        simp [tokens, wordOf, empty, Php.methods, readAll, Php.methodAt?]
  | text value => rfl
  | named parameter value =>
      by_cases empty : parameter = "" <;>
        simp [tokens, wordOf, empty, Php.methods, readAll, Php.methodAt?]

end RelationArgument

/-! ## Methods -/

namespace RelationMethod

/-- The lines of a method in its model. -/
def lines (method : RelationMethod) : List String :=
  "" :: Text.indentLines 4 (Text.lines method.docblock) ++
    [indentation 1 ++ method.signature, indentation 1 ++ "\x7b", indentation 2 ++ method.body,
      indentation 1 ++ "\x7d"]

/-- The name of a method without a line feed at its end. -/
def wholeName (method : RelationMethod) : String :=
  String.ofList (Text.withoutLineEnd method.relation.name.toList)

/-- The names of a method can stand in code. -/
structure IsPlain (method : RelationMethod) : Prop where
  name : Text.isIdentifier method.relation.name = true
  owner : '/' ∉ (Text.nameOr method.entity "model").toList
  arguments : ∀ argument ∈ method.arguments, argument.IsPlain

/-- The tokens of the statement of a method. -/
def bodyTokens (method : RelationMethod) : List Token :=
  [.word "return", .mark '$', .word "this", .mark '-', .mark '>', .word method.relation.kind.name,
    .mark '('] ++ RelationArgument.allTokens method.arguments ++ [.mark ')', .mark ';']

/-- The tokens of a method. -/
def tokens (method : RelationMethod) : List Token :=
  [.word "public", .word "function", .word method.wholeName, .mark '(', .mark ')', .mark ':',
    .word method.returnType, .mark '\x7b'] ++ method.bodyTokens ++ [.mark '\x7d']

/-- What is read of a method. -/
def read (method : RelationMethod) : Php.Method where
  name := method.wholeName
  returnType := method.returnType
  references := method.arguments.flatMap RelationArgument.references

variable {method : RelationMethod}

/-- The comment above a method gives no token. -/
theorem spells_docblock (plain : method.IsPlain) :
    Spells (Text.terminated (Text.indentLines 4 (Text.lines method.docblock))) [] := by
  obtain ⟨middle, unclosed, cut⟩ : ∃ middle : List String, (∀ line ∈ middle, '/' ∉ line.toList) ∧
      Text.lines method.docblock = ["/**"] ++ middle ++ [" */"] := by
    let text := " * Get the " ++ method.relation.name ++ " associated with the " ++
      Text.nameOr method.entity "model" ++ "."
    have clean : '/' ∉ text.toList := by
      have own : '/' ∉ method.relation.name.toList := fun within =>
        absurd (Text.isIdentifierPart_or_eq_lineFeed plain.name within) (by decide)
      simp [text, own, plain.owner]
    refine ⟨Text.parts '\n' text,
      fun line member within => clean (Text.mem_of_mem_parts member within), ?_⟩
    have whole : method.docblock = "/**" ++ "\n" ++ text ++ "\n" ++ " */" := by
      rw [docblock_eq, commentLines, String.intercalate_cons_cons, String.intercalate_cons_cons,
        String.intercalate_singleton]
      simp only [text, String.append_assoc]
      rfl
    have first : Text.parts '\n' "/**" = ["/**"] := Text.parts_of_not_mem (by decide)
    have last : Text.parts '\n' " */" = [" */"] := Text.parts_of_not_mem (by decide)
    calc
      _ = Text.parts '\n' ("/**" ++ "\n" ++ text ++ "\n" ++ " */") := by
        rw [Text.lines_eq_parts, whole]
      _ = Text.parts '\n' ("/**" ++ "\n" ++ text) ++ Text.parts '\n' " */" :=
        Text.parts_append_separator '\n' _ " */"
      _ = Text.parts '\n' "/**" ++ Text.parts '\n' text ++ Text.parts '\n' " */" :=
        congrArg (· ++ _) (Text.parts_append_separator '\n' "/**" text)
      _ = _ := by rw [first, last]
  have indented : ∀ line ∈ Text.indentLines 4 middle, '/' ∉ line.toList := by
    rw [Text.indentLines, List.forall_mem_map]
    intro line member within
    rcases Text.mem_of_mem_indentLine within with impossible | within
    · cases impossible
    · exact unclosed line member within
  have split : Text.indentLines 4 (Text.lines method.docblock) =
      [Text.indentLine 4 "/**"] ++ Text.indentLines 4 middle ++ [Text.indentLine 4 " */"] := by
    rw [cut, Text.indentLines, List.map_append, List.map_append]
    rfl
  have opened : Scanner.code.run (Text.terminated [Text.indentLine 4 "/**"]).toList =
      (.block, []) := by
    decide +kernel
  have closed : Scanner.block.run (Text.terminated [Text.indentLine 4 " */"]).toList =
      (.code, []) := by
    decide +kernel
  have inside := Scanner.run_trans opened (Scanner.run_block_terminated indented)
  rw [Spells, split, Text.terminated_append, Text.terminated_append, String.toList_append,
    String.toList_append]
  exact Scanner.run_trans inside closed

theorem isWordPart_of_isIdentifierPart {c : Char} (part : Text.isIdentifierPart c = true) :
    isWordPart c = true := by
  rw [Text.isIdentifierPart] at part
  rw [isWordPart, Php.isNamePart, part, Bool.true_or, Bool.true_or]

/-- A name is read up to a line feed at its end. -/
theorem name_eq_wholeName (named : Text.isIdentifier method.relation.name = true) :
    Text.IsWholeIdentifier method.wholeName ∧
      ∃ behind ∈ ["", "\n"], method.relation.name = method.wholeName ++ behind := by
  rcases Text.isIdentifier_iff_whole.mp named with isWhole | ⟨whole, isWhole, same⟩
  · have kept : method.wholeName = method.relation.name := by
      have plain := (Text.isWholeIdentifier_iff_of_isIdentifier named).mp isWhole
      simp [wholeName, Text.withoutLineEnd, plain]
    rw [kept]
    exact ⟨isWhole, "", List.mem_cons_self, String.append_empty.symm⟩
  · have cut : method.wholeName = whole := by
      simp [wholeName, Text.withoutLineEnd, same]
    rw [cut]
    exact ⟨isWhole, "\n", List.mem_cons_of_mem _ List.mem_cons_self, same⟩

theorem spells_signature (named : Text.isIdentifier method.relation.name = true) :
    Spells (indentation 1 ++ method.signature ++ "\n")
      [.word "public", .word "function", .word method.wholeName, .mark '(', .mark ')', .mark ':',
        .word method.returnType] := by
  obtain ⟨whole, behind, among, split⟩ := name_eq_wholeName named
  have keywords : Spells (indentation 1 ++ "public function ")
      [.word "public", .word "function"] := by
    decide +kernel
  have name := isPiece_name fun c member =>
    isWordPart_of_isIdentifierPart (whole.characters c member)
  have between : Spells (behind ++ "(): ") [.mark '(', .mark ')', .mark ':'] ∧
      EndsWord (behind ++ "(): ") := by
    rcases List.mem_pair.mp among with rfl | rfl <;> decide +kernel
  have type : Spells (method.returnType ++ "\n") [.word method.returnType] := by
    rw [returnType]
    cases method.relation.kind <;> decide +kernel
  have spells := keywords.append
    (name _ _ (between.2.append _) (between.1.append type))
  have line : indentation 1 ++ method.signature ++ "\n" = indentation 1 ++ "public function " ++
      (method.wholeName ++ (behind ++ "(): " ++ (method.returnType ++ "\n"))) := by
    have spelled : method.signature =
        "public function " ++ method.relation.name ++ "(): " ++ method.returnType := rfl
    rw [spelled, split]
    simp only [String.append_assoc]
  rw [Php.wordOf_of_ne whole.nonempty] at spells
  rw [line]
  exact spells

theorem spells_body (plain : ∀ argument ∈ method.arguments, argument.IsPlain) :
    Spells (indentation 2 ++ method.body ++ "\n") method.bodyTokens := by
  have start : Spells (indentation 2 ++ "return $this->" ++ method.relation.kind.name ++ "(")
      [.word "return", .mark '$', .word "this", .mark '-', .mark '>',
        .word method.relation.kind.name, .mark '('] := by
    cases method.relation.kind <;> decide +kernel
  have stop : Spells ");\n" [.mark ')', .mark ';'] := by decide +kernel
  have spells := start.append
    (RelationArgument.isPiece_intercalate plain _ _ (by decide) stop)
  have line : indentation 2 ++ method.body ++ "\n" =
      indentation 2 ++ "return $this->" ++ method.relation.kind.name ++ "(" ++
        (", ".intercalate (method.arguments.map (·.spelled)) ++ ");\n") := by
    have spelled : method.body = "return $this->" ++ method.relation.kind.name ++ "(" ++
        ", ".intercalate (method.arguments.map (·.spelled)) ++ ");" := rfl
    have ending : ");\n" = ");" ++ "\n" := rfl
    rw [spelled, ending]
    simp only [String.append_assoc]
  rw [line, bodyTokens, List.append_assoc]
  exact spells

/-- The lines of a method are read as its tokens. -/
theorem spells_lines (plain : method.IsPlain) :
    Spells (Text.terminated method.lines) method.tokens := by
  have blank : Spells (Text.terminated [""]) [] := by decide +kernel
  have opened : Spells (indentation 1 ++ "\x7b" ++ "\n") [.mark '\x7b'] := by decide +kernel
  have closed : Spells (indentation 1 ++ "\x7d" ++ "\n") [.mark '\x7d'] := by decide +kernel
  have empty : Spells "" [] := by decide +kernel
  have code := (spells_signature plain.name).append
    (opened.append ((spells_body plain.arguments).append (closed.append empty)))
  have split : method.lines = [""] ++ Text.indentLines 4 (Text.lines method.docblock) ++
      [indentation 1 ++ method.signature, indentation 1 ++ "\x7b", indentation 2 ++ method.body,
        indentation 1 ++ "\x7d"] := rfl
  rw [split, Text.terminated_append, Text.terminated_append]
  exact (blank.append (spells_docblock plain)).append code

/-- A method is read as it was written, and what follows it is read on its own. -/
theorem methods_tokens (method : RelationMethod) (rest : List Token) :
    Php.methods (method.tokens ++ rest) = method.read :: Php.methods rest := by
  have body : .mark '\x7d' ∉ method.bodyTokens := by
    simp [bodyTokens, RelationArgument.not_mem_allTokens]
  have inside : ∀ token ∈ method.bodyTokens, decide (token ≠ .mark '\x7d') = true := by
    intro token member
    refine decide_eq_true fun same => body ?_
    rwa [same] at member
  have taken : (method.bodyTokens ++ .mark '\x7d' :: rest).takeWhile (· ≠ .mark '\x7d') =
      method.bodyTokens := by
    rw [List.takeWhile_append_of_pos inside]
    simp
  have shape (behind : List Token) : method.bodyTokens ++ behind =
      [.word "return", .mark '$', .word "this", .mark '-', .mark '>',
        .word method.relation.kind.name, .mark '('] ++
        (RelationArgument.allTokens method.arguments ++
          .mark ')' :: ([.mark ';'] ++ behind)) := by
    simp [bodyTokens]
  have referred : Php.references method.bodyTokens =
      method.arguments.flatMap RelationArgument.references := by
    have called := RelationArgument.readAll_allTokens (fun _ _ => rfl)
      RelationArgument.references_tokens (by decide : ')' ≠ ':') method.arguments [.mark ';']
    rw [← List.append_nil method.bodyTokens, shape, List.append_nil]
    refine Eq.trans ?_ (called.trans (List.append_nil _))
    simp [Php.references, readAll, Php.referenceAt?]
  have further : Php.methods (method.bodyTokens ++ .mark '\x7d' :: rest) = Php.methods rest := by
    have called := @RelationArgument.readAll_allTokens _ Php.methodAt? (fun _ => [])
      (fun _ _ => rfl) (fun argument c others _ => argument.methods_tokens c others)
      ')' (by decide) method.arguments ([.mark ';'] ++ .mark '\x7d' :: rest)
    rw [shape]
    refine Eq.trans ?_ (called.trans ?_)
    · simp [Php.methods, readAll, Php.methodAt?]
    · simp [Php.methods, readAll, Php.methodAt?]
  have head : method.tokens ++ rest = .word "public" :: .word "function" ::
      .word method.wholeName :: .mark '(' :: .mark ')' :: .mark ':' :: .word method.returnType ::
        .mark '\x7b' :: (method.bodyTokens ++ .mark '\x7d' :: rest) := by
    simp [tokens]
  have first : Php.methodAt? (method.tokens ++ rest) = some method.read := by
    rw [head, Php.methodAt?, if_pos ⟨rfl, rfl⟩, taken, referred]
    rfl
  rw [head] at first ⊢
  rw [Php.methods, readAll, first, ← further]
  simp [Php.methods, readAll, Php.methodAt?]

end RelationMethod

end Scaffold
