import Mathlib.Data.Bool.AllAny
import Scaffold.Php.Literal
import Scaffold.Proofs.Text.ClassName

/-!
# Literals are read back

A string literal ends at its own closing apostrophe, whatever follows it, and gives back its text.
An integer is read back from its digits, of whatever size it is.  The literals of numbers and the
words of the other scalars hold no character that has a meaning between the arguments of a call.
-/

namespace Scaffold

namespace Decimal

/-! ## Written integers -/

theorem isDigit_of_mem_naturalDigits {n : Nat} {c : Char} (member : c ∈ naturalDigits n) :
    c.isDigit = true :=
  Nat.isDigit_of_mem_toDigits (by decide) (by decide) member

theorem head?_naturalDigits_ne_zero {n : Nat} (positive : n ≠ 0) :
    (naturalDigits n).head? ≠ some '0' := by
  rw [naturalDigits]
  induction n using Nat.strongRecOn with
  | ind n hypothesis =>
      by_cases small : n < 10
      · rw [Nat.toDigits_of_lt_base small]
        have digits : ∀ n < 10, n ≠ 0 → [Nat.digitChar n].head? ≠ some '0' := by decide
        exact digits n small positive
      · have large : 10 ≤ n := Nat.not_lt.mp small
        rw [Nat.toDigits_of_base_le (by decide) large,
          List.head?_append_of_ne_nil _ Nat.toDigits_ne_nil]
        apply hypothesis
        · omega
        · omega

/-- Digits that spell a number in the decimal system: a zero comes first only where it is alone. -/
structure IsDecimal (digits : List Char) : Prop where
  notNil : digits ≠ []
  each : digits.all Char.isDigit = true
  first : digits.head? = some '0' → digits = ['0']

instance : DecidablePred IsDecimal := fun digits =>
  decidable_of_iff
    (digits ≠ [] ∧ digits.all Char.isDigit = true ∧ (digits.head? = some '0' → digits = ['0']))
    ⟨fun ⟨notNil, each, first⟩ => ⟨notNil, each, first⟩,
      fun ⟨notNil, each, first⟩ => ⟨notNil, each, first⟩⟩

theorem isDecimal_naturalDigits (n : Nat) : IsDecimal (naturalDigits n) where
  notNil := Nat.toDigits_ne_nil
  each := List.all_eq_true.mpr fun _ => isDigit_of_mem_naturalDigits
  first zero := by
    by_cases positive : n = 0
    · rw [positive]
      rfl
    · exact absurd zero (head?_naturalDigits_ne_zero positive)

/-- The number that digits spell. -/
def naturalOf? (digits : List Char) : Option Nat :=
  if IsDecimal digits then some (Nat.ofDigitChars 10 digits 0) else none

/-- The integer that a word spells, with a minus in front where it is negative. -/
def integerOf? : List Char → Option Int
  | '-' :: digits => (naturalOf? digits).map fun n : Nat => -(n : Int)
  | digits => (naturalOf? digits).map fun n : Nat => (n : Int)

theorem naturalOf?_naturalDigits (n : Nat) : naturalOf? (naturalDigits n) = some n := by
  rw [naturalOf?, if_pos (isDecimal_naturalDigits n), naturalDigits, Nat.ofDigitChars_ten_toDigits]

theorem integerOf?_writtenInt (value : Int) :
    integerOf? (writtenInt value).toList = some value := by
  rw [writtenInt, String.toList_ofList]
  split_ifs with negative
  · rw [List.singleton_append, integerOf?, naturalOf?_naturalDigits, Option.map_some]
    congr 1
    omega
  · rw [List.nil_append, integerOf?.eq_def]
    split
    · rename_i digits shape
      have sign : '-' ∈ naturalDigits value.natAbs := by rw [shape]; exact List.mem_cons_self
      exact absurd (isDigit_of_mem_naturalDigits sign) (by decide)
    · rw [naturalOf?_naturalDigits, Option.map_some]
      congr 1
      omega

theorem writtenInt_injective : Function.Injective writtenInt := by
  intro left right same
  have read := congrArg (fun word => integerOf? word.toList) same
  simpa only [integerOf?_writtenInt, Option.some.injEq] using read

theorem writtenNatural_injective : Function.Injective fun n : Nat => writtenInt n :=
  fun _ _ same => Int.ofNat.inj (writtenInt_injective same)

/-! ## Characters of numbers -/

/-- The characters of a written number. -/
def IsNumberCharacter (c : Char) : Prop :=
  c.isAlphanum = true ∨ c = '-' ∨ c = '+' ∨ c = '.'

instance : DecidablePred IsNumberCharacter :=
  fun c => inferInstanceAs (Decidable (c.isAlphanum = true ∨ c = '-' ∨ c = '+' ∨ c = '.'))

theorem isNumberCharacter_replicate (count : Nat) :
    ∀ c ∈ List.replicate count '0', IsNumberCharacter c := by
  intro c member
  rw [(List.mem_replicate.mp member).2]
  decide

theorem isNumberCharacter_naturalDigits (n : Nat) :
    ∀ c ∈ naturalDigits n, IsNumberCharacter c := by
  intro c member
  have digit : c.isDigit = true := isDigit_of_mem_naturalDigits member
  exact .inl (by rw [Char.isAlphanum, digit, Bool.or_true])

theorem isNumberCharacter_sign (negative : Bool) :
    ∀ c ∈ (if negative then ['-'] else []), IsNumberCharacter c := by
  cases negative <;> exact List.all_iff_forall_prop.mp (by decide)

theorem isNumberCharacter_writtenInt (value : Int) :
    ∀ c ∈ (writtenInt value).toList, IsNumberCharacter c := by
  rw [writtenInt, String.toList_ofList, List.forall_mem_append]
  refine ⟨?_, isNumberCharacter_naturalDigits _⟩
  simpa using isNumberCharacter_sign (decide (value < 0))

theorem isNumberCharacter_positional
    {digits : List Char} (each : ∀ c ∈ digits, IsNumberCharacter c) (first : Int) :
    ∀ c ∈ positional digits first, IsNumberCharacter c := by
  have padded (count : Nat) :
      ∀ c ∈ digits ++ List.replicate count '0', IsNumberCharacter c :=
    List.forall_mem_append.mpr ⟨each, isNumberCharacter_replicate count⟩
  rw [positional]
  split_ifs
  · simp only [List.forall_mem_cons, List.forall_mem_append]
    exact ⟨by decide, by decide, isNumberCharacter_replicate _, each⟩
  · simp only [List.forall_mem_cons, List.forall_mem_append]
    refine ⟨fun c member => padded _ c (List.mem_of_mem_take member), by decide, ?_⟩
    split_ifs
    · exact List.all_iff_forall_prop.mp (by decide)
    · exact fun c member => padded _ c (List.mem_of_mem_drop member)

theorem isNumberCharacter_scientific
    {digits : List Char} (each : ∀ c ∈ digits, IsNumberCharacter c) (width : Nat) (first : Int) :
    ∀ c ∈ scientific width digits first, IsNumberCharacter c := by
  rw [scientific.eq_def]
  simp only [paddedNatural, List.forall_mem_cons, List.forall_mem_append]
  refine ⟨?_, by decide, ?_, isNumberCharacter_replicate _, isNumberCharacter_naturalDigits _⟩
  · split
    · exact List.all_iff_forall_prop.mp (by decide)
    · exact each
    · simp only [List.forall_mem_cons] at each ⊢
      exact ⟨each.1, by decide, each.2⟩
  · split_ifs <;> decide

theorem isNumberCharacter_writtenDouble (number : Double) :
    ∀ c ∈ (writtenDouble number).toList, IsNumberCharacter c := by
  cases number with
  | nan => exact List.all_iff_forall_prop.mp (by decide)
  | infinite negative => cases negative <;> exact List.all_iff_forall_prop.mp (by decide)
  | finite negative significand exponent =>
      rw [writtenDouble, Style.write, String.toList_ofList, List.forall_mem_append]
      refine ⟨isNumberCharacter_sign negative, ?_⟩
      split_ifs
      · exact List.all_iff_forall_prop.mp (by decide)
      · rw [Style.digits]
        split
        dsimp only
        split_ifs
        · exact isNumberCharacter_positional (isNumberCharacter_naturalDigits _) _
        · exact isNumberCharacter_scientific (isNumberCharacter_naturalDigits _) _ _

theorem writtenInt_ne_nil (value : Int) : (writtenInt value).toList ≠ [] := by
  rw [writtenInt, String.toList_ofList]
  exact List.append_ne_nil_of_right_ne_nil _ Nat.toDigits_ne_nil

theorem writtenDouble_ne_nil (number : Double) : (writtenDouble number).toList ≠ [] := by
  cases number with
  | nan => decide
  | infinite negative => cases negative <;> decide
  | finite negative significand exponent =>
      rw [writtenDouble, Style.write, String.toList_ofList]
      apply List.append_ne_nil_of_right_ne_nil
      split_ifs
      · decide
      · rw [Style.digits]
        split
        dsimp only
        split_ifs
        · rw [positional]
          split_ifs <;> simp
        · simp [scientific.eq_def]

end Decimal

namespace Php

/-- Read a string literal behind its opening apostrophe: its text, and what follows the literal. -/
def readQuoted : List Char → Option (List Char × List Char)
  | [] => none
  | '\'' :: rest => some ([], rest)
  | '\\' :: '\\' :: rest => (readQuoted rest).map fun (text, rest) => ('\\' :: text, rest)
  | '\\' :: '\'' :: rest => (readQuoted rest).map fun (text, rest) => ('\'' :: text, rest)
  | c :: rest => (readQuoted rest).map fun (text, rest) => (c :: text, rest)

theorem readQuoted_escaped (c : Char) (rest : List Char) :
    readQuoted (escaped c ++ rest) =
      (readQuoted rest).map fun (text, rest) => (c :: text, rest) := by
  rw [escaped]
  split_ifs with isMark
  · simp only [Bool.or_eq_true, beq_iff_eq] at isMark
    rcases isMark with rfl | rfl <;> rfl
  · simp only [Bool.or_eq_true, beq_iff_eq, not_or] at isMark
    rw [List.singleton_append, readQuoted.eq_def]
    split <;> simp_all

theorem readQuoted_flatMap_escaped (text rest : List Char) :
    readQuoted (text.flatMap escaped ++ '\'' :: rest) = some (text, rest) := by
  induction text with
  | nil => rfl
  | cons c text hypothesis =>
      rw [List.flatMap_cons, List.append_assoc, readQuoted_escaped, hypothesis, Option.map_some]

theorem toList_string (text : String) :
    (string text).toList = '\'' :: (text.toList.flatMap escaped ++ ['\'']) := by
  rw [string, String.toList_ofList]

theorem toList_array (items : List Scalar) :
    (array items).toList =
      '[' :: ((", ".intercalate (items.map Scalar.literal)).toList ++ [']']) := by
  rw [array, String.toList_append, String.toList_append]
  rfl

theorem string_injective : Function.Injective string := by
  intro left right same
  have read := congrArg (fun literal => readQuoted literal.toList.tail) same
  simp only [toList_string, List.tail_cons, readQuoted_flatMap_escaped, Option.some.injEq,
    Prod.mk.injEq, String.toList_inj, and_true] at read
  exact read

end Php

end Scaffold
