import Scaffold.Proofs.Php.Literal

/-!
# Argument lists are read back

A reader of generated code cuts the text between the parentheses of a call at the commas, but not
within string literals or brackets.  The literals of scalars and the arrays of strings pass it as
single arguments, whatever their texts hold, so that the arguments of a call are read back as they
were written.
-/

namespace Scaffold.Php

/-! ## The reader -/

/--
Where a reader of code stands, with the number of open brackets: outside of literals, in a string
literal, or in a string literal behind a backslash.
-/
inductive Spot where
  | code (depth : Nat)
  | literal (depth : Nat)
  | escape (depth : Nat)
  deriving DecidableEq

/-- The place behind a character. -/
def Spot.next : Spot → Char → Spot
  | .code depth, c =>
      if c = '\'' then .literal depth
      else if c = '[' ∨ c = '(' then .code (depth + 1)
      else if c = ']' ∨ c = ')' then .code (depth - 1)
      else .code depth
  | .literal depth, c =>
      if c = '\\' then .escape depth
      else if c = '\'' then .code depth
      else .literal depth
  | .escape depth, _ => .literal depth

/--
Cut the text behind an opening parenthesis at the commas outside of literals and brackets, up to the
closing parenthesis: the pieces, and what follows the parenthesis.
-/
def cut (spot : Spot) : List Char → Option (List (List Char) × List Char)
  | [] => none
  | c :: rest =>
      if spot = .code 0 ∧ c = ')' then some ([[]], rest)
      else if spot = .code 0 ∧ c = ',' then
        (cut spot rest).map fun (pieces, rest) => ([] :: pieces, rest)
      else
        (cut (spot.next c) rest).map fun (pieces, rest) => (pieces.modifyHead (c :: ·), rest)

/-- A piece without the blanks before it. -/
def trimmed (piece : List Char) : String :=
  String.ofList (piece.dropWhile (· == ' '))

/-- Read the arguments of a call behind its opening parenthesis, and what follows the call. -/
def readArguments (text : List Char) : Option (List String × List Char) :=
  (cut (.code 0) text).map fun (pieces, rest) =>
    (if pieces = [[]] then [] else pieces.map trimmed, rest)

/-! ## Texts that belong to one argument -/

/-- A text leads a reader from one place to another within one argument. -/
inductive Leads : Spot → List Char → Spot → Prop
  | done {spot : Spot} : Leads spot [] spot
  | step {spot stop : Spot} {c : Char} {text : List Char}
      (inside : spot = .code 0 → c ≠ ')' ∧ c ≠ ',') (leads : Leads (spot.next c) text stop) :
      Leads spot (c :: text) stop

namespace Leads

variable {start middle stop : Spot} {text other : List Char} {depth : Nat}

theorem append (first : Leads start text middle) (second : Leads middle other stop) :
    Leads start (text ++ other) stop := by
  induction first with
  | done => exact second
  | step inside _ hypothesis => exact .step inside (hypothesis second)

theorem cut_append (leads : Leads start text stop) (rest : List Char) :
    cut start (text ++ rest) =
      (cut stop rest).map fun (pieces, rest) => (pieces.modifyHead (text ++ ·), rest) := by
  induction leads with
  | done =>
      simp only [List.nil_append]
      cases cut _ rest with
      | none => rfl
      | some found => cases found with | mk pieces after => cases pieces <;> rfl
  | step inside _ hypothesis =>
      rw [List.cons_append, cut, if_neg fun ends => (inside ends.1).1 ends.2,
        if_neg fun ends => (inside ends.1).2 ends.2, hypothesis]
      cases cut _ rest with
      | none => rfl
      | some found => cases found with | mk pieces after => cases pieces <;> rfl

/-- Only the code outside every bracket has characters that end an argument. -/
theorem step_within {c : Char} (within : start ≠ .code 0) (leads : Leads (start.next c) text stop) :
    Leads start (c :: text) stop :=
  .step (fun outside => absurd outside within) leads

/-- Characters without a meaning between arguments stay within one. -/
theorem of_plain (plain : ∀ c ∈ text, c ∉ ['\'', '[', '(', ']', ')', ',']) :
    Leads (.code depth) text (.code depth) := by
  induction text with
  | nil => exact .done
  | cons c text hypothesis =>
      obtain ⟨first, others⟩ := List.forall_mem_cons.mp plain
      simp only [List.mem_cons, List.not_mem_nil, or_false, not_or] at first
      obtain ⟨quote, bracket, parenthesis, closing, close, comma⟩ := first
      refine .step (fun _ => ⟨close, comma⟩) ?_
      rw [Spot.next, if_neg quote, if_neg (not_or.mpr ⟨bracket, parenthesis⟩),
        if_neg (not_or.mpr ⟨closing, close⟩)]
      exact hypothesis others

theorem of_number (number : ∀ c ∈ text, Decimal.IsNumberCharacter c) :
    Leads (.code depth) text (.code depth) := by
  refine of_plain fun c member mark => ?_
  have marks : ∀ c ∈ ['\'', '[', '(', ']', ')', ','], ¬ Decimal.IsNumberCharacter c :=
    List.all_iff_forall_prop.mp (by decide)
  exact marks c mark (number c member)

theorem of_escaped (text : List Char) :
    Leads (.literal depth) (text.flatMap escaped) (.literal depth) := by
  induction text with
  | nil => exact .done
  | cons c text hypothesis =>
      rw [List.flatMap_cons, escaped]
      refine append ?_ hypothesis
      split_ifs with mark
      -- The backslash takes its character along, so the apostrophe does not end the literal.
      · exact step_within (by simp) (step_within (by simp [Spot.next]) .done)
      · simp only [Bool.or_eq_true, beq_iff_eq, not_or] at mark
        refine step_within (by simp) ?_
        rw [Spot.next, if_neg mark.1, if_neg mark.2]
        exact .done

theorem of_string (text : String) : Leads (.code depth) (string text).toList (.code depth) := by
  rw [toList_string]
  have opening : Leads (.code depth) ['\''] (.literal depth) :=
    .step (fun _ => by decide) .done
  have closing : Leads (.literal depth) ['\''] (.code depth) := step_within (by simp) .done
  exact opening.append ((of_escaped text.toList).append closing)

theorem of_scalar (scalar : Scalar) :
    Leads (.code depth) scalar.literal.toList (.code depth) := by
  cases scalar with
  | null => exact of_plain (List.all_iff_forall_prop.mp (by decide))
  | bool value => cases value <;> exact of_plain (List.all_iff_forall_prop.mp (by decide))
  | int value => exact of_number (Decimal.isNumberCharacter_writtenInt value)
  | double value => exact of_number (Decimal.isNumberCharacter_writtenDouble value)
  | text value => exact of_string value

/-- Within brackets a comma does not end an argument. -/
theorem intercalate {texts : List (List Char)}
    (each : ∀ text ∈ texts, Leads (.code (depth + 1)) text (.code (depth + 1))) :
    Leads (.code (depth + 1)) ([',', ' '].intercalate texts) (.code (depth + 1)) := by
  induction texts with
  | nil => exact .done
  | cons text others hypothesis =>
      obtain ⟨first, later⟩ := List.forall_mem_cons.mp each
      by_cases last : others = []
      · rw [last, List.intercalate_singleton]
        exact first
      · rw [List.intercalate_cons_of_ne_nil last, List.append_assoc]
        have comma : Leads (.code (depth + 1)) [',', ' '] (.code (depth + 1)) :=
          step_within (by simp) (step_within (by simp [Spot.next]) .done)
        exact first.append (comma.append (hypothesis later))

theorem of_array (items : List Scalar) :
    Leads (.code depth) (array items).toList (.code depth) := by
  have opening : Leads (.code depth) ['['] (.code (depth + 1)) := .step (fun _ => by decide) .done
  have closing : Leads (.code (depth + 1)) [']'] (.code depth) := step_within (by simp) .done
  have inner : Leads (.code (depth + 1)) (", ".intercalate (items.map Scalar.literal)).toList
      (.code (depth + 1)) := by
    rw [String.toList_intercalate]
    refine intercalate fun text member => ?_
    obtain ⟨literal, among, rfl⟩ := List.mem_map.mp member
    obtain ⟨scalar, -, rfl⟩ := List.mem_map.mp among
    exact of_scalar scalar
  rw [toList_array]
  exact opening.append (inner.append closing)

end Leads

/-! ## Arguments -/

/-- A text that can stand as one argument. -/
structure IsArgument (text : String) : Prop where
  starts : ∃ c rest, text.toList = c :: rest ∧ c ≠ ' '
  leads : Leads (.code 0) text.toList (.code 0)

namespace IsArgument

theorem string (text : String) : IsArgument (string text) :=
  ⟨⟨_, _, toList_string text, by decide⟩, .of_string text⟩

theorem of_number
    {text : String} (some : text.toList ≠ [])
    (number : ∀ c ∈ text.toList, Decimal.IsNumberCharacter c) : IsArgument text where
  starts := by
    obtain ⟨c, rest, shape⟩ := List.exists_cons_of_ne_nil some
    refine ⟨c, rest, shape, ?_⟩
    rintro rfl
    exact absurd (number ' ' (by simp [shape])) (by decide)
  leads := .of_number number

theorem int (value : Int) : IsArgument (Decimal.writtenInt value) :=
  of_number (Decimal.writtenInt_ne_nil value) (Decimal.isNumberCharacter_writtenInt value)

theorem scalar (scalar : Scalar) : IsArgument scalar.literal := by
  cases scalar with
  | null => exact ⟨⟨'n', _, rfl, by decide⟩, .of_scalar .null⟩
  | bool value =>
      cases value with
      | false => exact ⟨⟨'f', _, rfl, by decide⟩, .of_scalar (.bool false)⟩
      | true => exact ⟨⟨'t', _, rfl, by decide⟩, .of_scalar (.bool true)⟩
  | int value => exact int value
  | double value =>
      exact of_number (Decimal.writtenDouble_ne_nil value)
        (Decimal.isNumberCharacter_writtenDouble value)
  | text value => exact string value

theorem array (items : List Scalar) : IsArgument (array items) where
  starts := ⟨_, _, toList_array items, by decide⟩
  leads := .of_array items

variable {text : String}

theorem trimmed_toList (argument : IsArgument text) : trimmed text.toList = text := by
  obtain ⟨c, rest, shape, noBlank⟩ := argument.starts
  rw [trimmed, shape, List.dropWhile_cons_of_neg (by simpa using noBlank), ← shape,
    String.ofList_toList]

/-- An argument behind a comma is read without the blank before it. -/
theorem trimmed_blank (argument : IsArgument text) : trimmed (' ' :: text.toList) = text := by
  rw [trimmed, List.dropWhile_cons_of_pos (by decide), ← trimmed, argument.trimmed_toList]

end IsArgument

/-- The pieces of an argument list: behind each comma there is a blank. -/
def piecesOf : List String → List (List Char)
  | [] => [[]]
  | first :: others => first.toList :: others.map fun other => ' ' :: other.toList

theorem cut_intercalate
    {arguments : List String} (each : ∀ argument ∈ arguments, IsArgument argument)
    (rest : List Char) :
    cut (.code 0) ((", ".intercalate arguments).toList ++ ')' :: rest) =
      some (piecesOf arguments, rest) := by
  induction arguments with
  | nil => rfl
  | cons first others hypothesis =>
      obtain ⟨isArgument, later⟩ := List.forall_mem_cons.mp each
      cases others with
      | nil =>
          rw [String.intercalate_singleton, isArgument.leads.cut_append]
          simp [cut, piecesOf]
      | cons second others =>
          have blank : Leads (.code 0) [' '] (.code 0) :=
            .of_plain (List.all_iff_forall_prop.mp (by decide))
          rw [String.intercalate_cons_cons, String.toList_append, String.toList_append,
            List.append_assoc, List.append_assoc, isArgument.leads.cut_append]
          have comma : cut (.code 0)
              (", ".toList ++ ((", ".intercalate (second :: others)).toList ++ ')' :: rest)) =
              some ([] :: (piecesOf (second :: others)).modifyHead (' ' :: ·), rest) := by
            change (cut (.code 0) ([' '] ++ _)).map _ = _
            rw [blank.cut_append, hypothesis later]
            rfl
          rw [comma]
          simp [piecesOf]

/-- The arguments of a call are read back as they were written. -/
theorem readArguments_intercalate
    {arguments : List String} (each : ∀ argument ∈ arguments, IsArgument argument)
    (rest : List Char) :
    readArguments ((", ".intercalate arguments).toList ++ ')' :: rest) =
      some (arguments, rest) := by
  rw [readArguments, cut_intercalate each, Option.map_some]
  cases arguments with
  | nil => rfl
  | cons first others =>
      obtain ⟨isArgument, later⟩ := List.forall_mem_cons.mp each
      have read : ((others.map fun other => ' ' :: other.toList).map trimmed) = others := by
        rw [List.map_map]
        exact (List.map_congr_left fun other member => (later other member).trimmed_blank).trans
          (List.map_id others)
      obtain ⟨c, tail, shape, -⟩ := isArgument.starts
      have notEmpty : piecesOf (first :: others) ≠ [[]] := by
        rw [piecesOf, shape]
        simp
      dsimp only
      rw [if_neg notEmpty, piecesOf, List.map_cons, isArgument.trimmed_toList, read]

end Scaffold.Php
