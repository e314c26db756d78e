import Scaffold.Keyed
import Scaffold.Proofs.Keyed
import Scaffold.Proofs.Php.ArgumentList

/-!
# Binding arguments to parameters

The arguments of a call are bound to the parameters of its method: those by position to the
parameters in their order, and those by name, which come last, to the parameters that they name.  A
call is no call when an argument by position follows one by name, when there are more of them than
parameters, or when a parameter is unknown or bound before.
-/

namespace Scaffold.Php

/-! ## Reading an argument -/

/-- An expression that stands as an argument. -/
inductive Expression where
  | null
  | text (value : String)
  | classReference (spelling : String)
  deriving DecidableEq, Repr

/-- An argument of a call, by the name of a parameter or by position. -/
structure Argument where
  parameter : Option String
  value : Expression
  deriving DecidableEq, Repr

/-- A character of a name in code. -/
def isNamePart (c : Char) : Bool :=
  c.isAlphanum || c == '_' || 128 ≤ c.toNat

/-- Read an expression: a string literal, null, or the reference of a class. -/
def readExpression (spelling : List Char) : Option Expression :=
  match spelling with
  | '\'' :: rest =>
      match readQuoted rest with
      | some (text, []) => some (.text (String.ofList text))
      | _ => none
  | _ =>
      if spelling = "null".toList then some .null
      else if "::class".toList.isSuffixOf spelling then
        some (.classReference (String.ofList spelling))
      else none

/-- Read an argument: a name with a single colon behind it makes it one by name. -/
def readArgument (spelling : String) : Option Argument :=
  match spelling.toList.dropWhile isNamePart with
  | ':' :: ' ' :: rest =>
      (readExpression rest).map
        (⟨some (String.ofList (spelling.toList.takeWhile isNamePart)), ·⟩)
  | _ => (readExpression spelling.toList).map (⟨none, ·⟩)

theorem readExpression_string (text : String) :
    readExpression (string text).toList = some (.text text) := by
  rw [toList_string, readExpression, readQuoted_flatMap_escaped]
  dsimp only
  rw [String.ofList_toList]

theorem readArgument_string (text : String) :
    readArgument (string text) = some ⟨none, .text text⟩ := by
  have start : (string text).toList.dropWhile isNamePart = (string text).toList := by
    rw [toList_string, List.dropWhile_cons_of_neg (by decide)]
  rw [readArgument, start, readExpression_string]
  rw [toList_string]
  rfl

theorem readArgument_named
    {parameter : String} (name : ∀ c ∈ parameter.toList, isNamePart c = true) (text : String) :
    readArgument (parameter ++ ": " ++ string text) = some ⟨some parameter, .text text⟩ := by
  have spelled : (parameter ++ ": " ++ string text).toList =
      parameter.toList ++ ':' :: ' ' :: (string text).toList := by
    simp
  rw [readArgument, spelled, List.dropWhile_append_of_pos name,
    List.takeWhile_append_of_pos name]
  simp [List.dropWhile_cons_of_neg, List.takeWhile_cons_of_neg, isNamePart, readExpression_string]

/-- An argument by name stands as one argument. -/
theorem IsArgument.named
    {parameter : String} (some : parameter ≠ "")
    (name : ∀ c ∈ parameter.toList, isNamePart c = true) (text : String) :
    IsArgument (parameter ++ ": " ++ Php.string text) where
  starts := by
    have notNil : parameter.toList ≠ [] := by simpa using some
    obtain ⟨c, rest, shape⟩ := List.exists_cons_of_ne_nil notNil
    refine ⟨c, rest ++ ": ".toList ++ (Php.string text).toList, by simp [shape], ?_⟩
    rintro rfl
    exact absurd (name ' ' (by simp [shape])) (by decide)
  leads := by
    have plain : ∀ c ∈ parameter.toList ++ ": ".toList, c ∉ ['\'', '[', '(', ']', ')', ','] := by
      rw [List.forall_mem_append]
      refine ⟨fun c member mark => ?_, List.all_iff_forall_prop.mp (by decide)⟩
      have marks : ∀ c ∈ ['\'', '[', '(', ']', ')', ','], isNamePart c = false :=
        List.all_iff_forall_prop.mp (by decide)
      exact absurd (name c member) (by simp [marks c mark])
    rw [String.toList_append, String.toList_append]
    exact (Leads.of_plain plain).append (.of_string text)

theorem readExpression_classReference
    {spelling : String} (start : spelling.toList.head? ≠ some '\'')
    (ends : "::class".toList <:+ spelling.toList) :
    readExpression spelling.toList = some (.classReference spelling) := by
  have notNull : spelling.toList ≠ "null".toList := by
    intro null
    rw [null] at ends
    exact absurd ends (by decide)
  rw [readExpression.eq_def]
  split
  · rename_i quoted
    rw [quoted] at start
    exact absurd rfl start
  · rw [if_neg notNull, if_pos (List.isSuffixOf_iff_suffix.mpr ends), String.ofList_toList]

/-- The reference of a class under its full name is an argument by position. -/
theorem readArgument_fullClass (fullName : String) :
    readArgument ("\\" ++ fullName ++ "::class") =
      some ⟨none, .classReference ("\\" ++ fullName ++ "::class")⟩ := by
  have spelled : ("\\" ++ fullName ++ "::class").toList =
      '\\' :: (fullName.toList ++ "::class".toList) := by
    simp
  have read : readExpression ("\\" ++ fullName ++ "::class").toList =
      some (.classReference ("\\" ++ fullName ++ "::class")) := by
    refine readExpression_classReference ?_ ?_
    · simp [spelled]
    · rw [spelled]
      exact ⟨'\\' :: fullName.toList, rfl⟩
  rw [readArgument, read, spelled, List.dropWhile_cons_of_neg (by decide)]
  rfl

/-- The reference of a class under its short name is an argument by position. -/
theorem readArgument_shortClass {name : String} (named : ∀ c ∈ name.toList, isNamePart c = true) :
    readArgument (name ++ "::class") = some ⟨none, .classReference (name ++ "::class")⟩ := by
  have spelled : (name ++ "::class").toList = name.toList ++ "::class".toList := by simp
  have read : readExpression (name ++ "::class").toList =
      some (.classReference (name ++ "::class")) := by
    refine readExpression_classReference ?_ ?_
    · rw [spelled]
      cases shape : name.toList with
      | nil => decide
      | cons c rest =>
          rintro ⟨⟩
          exact absurd (named '\'' (by simp [shape])) (by decide)
    · rw [spelled]
      exact ⟨name.toList, rfl⟩
  rw [readArgument, read, spelled, List.dropWhile_append_of_pos named]
  rfl

/-! ## Binding -/

/-- Bind the arguments behind the first one by name. -/
def bindNamed (parameters : List String) (bound : Keyed Expression) :
    List Argument → Option (Keyed Expression)
  | [] => some bound
  | ⟨none, _⟩ :: _ => none
  | ⟨some parameter, value⟩ :: rest =>
      if parameter ∈ parameters ∧ parameter ∉ Keyed.keys bound then
        bindNamed parameters (bound ++ [(parameter, value)]) rest
      else none

/-- Bind arguments by position to the parameters that are next, and those behind them by name. -/
def bindNext (parameters : List String) (next : List String) (bound : Keyed Expression) :
    List Argument → Option (Keyed Expression)
  | ⟨none, value⟩ :: rest =>
      match next with
      | parameter :: next => bindNext parameters next (bound ++ [(parameter, value)]) rest
      | [] => none
  | arguments => bindNamed parameters bound arguments

/-- The parameters of a method that the arguments of a call bind, with their values. -/
def bind (parameters : List String) (arguments : List Argument) : Option (Keyed Expression) :=
  bindNext parameters parameters [] arguments

section Binding

variable {parameters : List String} {bound : Keyed Expression}

/-- Arguments by name bind the parameters that they name. -/
theorem bindNamed_eq_some
    {given : Keyed Expression} (known : ∀ parameter ∈ Keyed.keys given, parameter ∈ parameters)
    (distinct : (Keyed.keys (bound ++ given)).Nodup) :
    bindNamed parameters bound (given.map fun (parameter, value) => ⟨some parameter, value⟩) =
      some (bound ++ given) := by
  induction given generalizing bound with
  | nil => simp [bindNamed]
  | cons pair rest hypothesis =>
      obtain ⟨parameter, value⟩ := pair
      have regrouped : bound ++ (parameter, value) :: rest =
          (bound ++ [(parameter, value)]) ++ rest := by
        simp
      have fresh : parameter ∉ Keyed.keys bound := by
        rw [Keyed.keys, List.map_append, List.map_cons, List.nodup_middle] at distinct
        exact fun member => (List.nodup_cons.mp distinct).1 (List.mem_append_left _ member)
      rw [List.map_cons, bindNamed, if_pos ⟨known parameter (by simp [Keyed.keys]), fresh⟩,
        hypothesis (fun other member => known other (List.mem_cons_of_mem _ member))
          (regrouped ▸ distinct), regrouped]

theorem bindNext_named (next : List String) (given : Keyed Expression) :
    bindNext parameters next bound
        (given.map fun (parameter, value) => ⟨some parameter, value⟩) =
      bindNamed parameters bound
        (given.map fun (parameter, value) => ⟨some parameter, value⟩) := by
  cases given <;> simp [bindNext]

/-- Arguments by position bind the parameters that are next. -/
theorem bindNext_positional
    (given : Keyed Expression) (next : List String) (rest : List Argument) :
    bindNext parameters (Keyed.keys given ++ next) bound
        (given.map (fun (_, value) => ⟨none, value⟩) ++ rest) =
      bindNext parameters next (bound ++ given) rest := by
  induction given generalizing bound with
  | nil => simp [Keyed.keys]
  | cons pair others hypothesis =>
      simp only [Keyed.keys, List.map_cons, List.cons_append] at hypothesis ⊢
      rw [bindNext, hypothesis, List.append_assoc, List.singleton_append]

theorem isSome_parameter_of_bindNamed
    {arguments : List Argument} {result : Keyed Expression}
    (binds : bindNamed parameters bound arguments = some result) :
    ∀ argument ∈ arguments, argument.parameter.isSome = true := by
  fun_induction bindNamed parameters bound arguments with
  | case1 => exact nofun
  | case2 => cases binds
  | case3 bound parameter value rest fits hypothesis =>
      exact List.forall_mem_cons.mpr ⟨rfl, hypothesis binds⟩
  | case4 => cases binds

/-- Where a call binds, no argument by position follows one by name. -/
theorem pairwise_of_bindNext
    {next : List String} {arguments : List Argument} {result : Keyed Expression}
    (binds : bindNext parameters next bound arguments = some result) :
    arguments.Pairwise fun earlier later =>
      earlier.parameter.isSome = true → later.parameter.isSome = true := by
  fun_induction bindNext parameters next bound arguments with
  | case1 bound value rest parameter next hypothesis =>
      exact List.pairwise_cons.mpr ⟨nofun, hypothesis binds⟩
  | case2 => cases binds
  | case3 =>
      have each := isSome_parameter_of_bindNamed binds
      exact List.pairwise_of_forall_mem_list fun _ _ later member _ => each later member

end Binding

end Scaffold.Php
