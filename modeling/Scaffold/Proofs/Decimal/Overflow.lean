import Mathlib.Algebra.Order.Ring.Nat
import Scaffold.Factory.Expression

/-!
# Quotients beyond the largest double

A quotient of natural numbers has no nearest double exactly when it is at least halfway from the
largest double to the next power of two.  For the largest number of a decimal column this is a
question of its digits alone: it has no nearest double exactly when more than 308 digits stand before
the point.
-/

namespace Scaffold.Decimal

/-- Halfway from the largest double to the next power of two. -/
def overflowBound : Nat :=
  (2 ^ 54 - 1) * 2 ^ 970

theorem roundHalfEven_eq_carry_iff
    {numerator denominator : Nat} (positive : 0 < denominator)
    (fits : numerator < 2 ^ 53 * denominator) :
    roundHalfEven numerator denominator = 2 ^ 53 ↔ (2 ^ 54 - 1) * denominator ≤ 2 * numerator := by
  have below : numerator / denominator < 2 ^ 53 := (Nat.div_lt_iff_lt_mul positive).mpr fits
  have split := Nat.div_add_mod numerator denominator
  have rest := Nat.mod_lt numerator positive
  rw [roundHalfEven]
  generalize numerator / denominator = whole at *
  generalize numerator % denominator = left at *
  constructor
  · intro carried
    obtain rfl : whole = 2 ^ 53 - 1 := by
      split_ifs at carried <;> omega
    split_ifs at carried <;> omega
  · intro enough
    obtain rfl : whole = 2 ^ 53 - 1 := by
      by_contra other
      have small : denominator * whole ≤ denominator * (2 ^ 53 - 2) :=
        Nat.mul_le_mul_left denominator (by omega)
      omega
    split_ifs <;> omega

theorem scaleByTwo_of_nonneg (numerator denominator exponent : Nat) :
    scaleByTwo numerator denominator exponent = (numerator, denominator * 2 ^ exponent) := by
  rw [scaleByTwo, if_pos (by omega)]
  rfl

/-- How the exponent of a large quotient is chosen. -/
theorem quotientExponent_of_le
    {numerator denominator exponent : Nat}
    (estimate : numerator.log2 = denominator.log2 + 52 + exponent) (large : 971 ≤ exponent) :
    quotientExponent numerator denominator =
      if numerator / (denominator * 2 ^ exponent) < 2 ^ 52 then (exponent : Int) - 1
      else exponent := by
  have same : (numerator.log2 : Int) - denominator.log2 - (significandBits - 1 : Nat) = exponent := by
    rw [significandBits]
    omega
  rw [quotientExponent, same, scaleByTwo_of_nonneg]
  dsimp only
  rw [leastExponent]
  have power : power 2 (significandBits - 1) = 2 ^ 52 := rfl
  rw [power]
  split_ifs <;> omega

theorem quotientExponent_of_lt
    {numerator denominator : Nat} (small : numerator.log2 < denominator.log2 + 52 + 971) :
    quotientExponent numerator denominator ≤ 970 := by
  rw [quotientExponent, significandBits, leastExponent]
  split
  dsimp only
  split_ifs <;> omega

theorem ofQuotient?_of_exponent
    (negative : Bool) {numerator denominator exponent : Nat} (some : numerator ≠ 0)
    (chosen : quotientExponent numerator denominator = exponent) :
    Double.ofQuotient? negative numerator denominator = none ↔
      972 ≤ exponent ∨
        exponent = 971 ∧ roundHalfEven numerator (denominator * 2 ^ exponent) = 2 ^ 53 := by
  rw [Double.ofQuotient?, if_neg some, chosen]
  dsimp only
  rw [scaleByTwo_of_nonneg]
  dsimp only
  have power : power 2 significandBits = 2 ^ 53 := rfl
  rw [power, greatestExponent]
  by_cases carried : roundHalfEven numerator (denominator * 2 ^ exponent) = 2 ^ 53
  · rw [if_pos carried]
    dsimp only
    split_ifs with beyond <;> simp <;> omega
  · rw [if_neg carried]
    dsimp only
    split_ifs with beyond <;> simp <;> omega

theorem ofQuotient?_ne_none
    (negative : Bool) {numerator denominator : Nat}
    (chosen : quotientExponent numerator denominator ≤ 970) :
    Double.ofQuotient? negative numerator denominator ≠ none := by
  have within : greatestExponent = 971 := rfl
  rw [Double.ofQuotient?, within]
  dsimp only
  split_ifs with zero carried beyond beyond
  · simp
  · dsimp only at beyond
    omega
  · simp
  · dsimp only at beyond
    omega
  · simp

/-- The exponent of a large quotient gives it a significand of 53 bits. -/
theorem exists_exponent
    {numerator denominator : Nat} (some : numerator ≠ 0) (positive : denominator ≠ 0)
    (large : denominator.log2 + 52 + 971 ≤ numerator.log2) :
    ∃ exponent : Nat, quotientExponent numerator denominator = exponent ∧ 970 ≤ exponent ∧
      2 ^ 52 * (denominator * 2 ^ exponent) ≤ numerator ∧
        numerator < 2 ^ 53 * (denominator * 2 ^ exponent) := by
  obtain ⟨size, estimate⟩ : ∃ size, numerator.log2 = denominator.log2 + 52 + (size + 1) :=
    ⟨numerator.log2 - denominator.log2 - 53, by omega⟩
  have unit : 0 < denominator * 2 ^ (size + 1) := Nat.mul_pos (by omega) (Nat.two_pow_pos _)
  have chosen := quotientExponent_of_le estimate (by omega)
  split_ifs at chosen with less
  · refine ⟨size, by omega, by omega, ?_, ?_⟩
    · calc 2 ^ 52 * (denominator * 2 ^ size)
          ≤ 2 ^ 52 * (2 ^ (denominator.log2 + 1) * 2 ^ size) :=
            Nat.mul_le_mul_left _ (Nat.mul_le_mul_right _ Nat.lt_log2_self.le)
        _ = 2 ^ numerator.log2 := by
            rw [estimate, ← Nat.pow_add, ← Nat.pow_add]
            congr 1
            omega
        _ ≤ numerator := Nat.log2_self_le some
    · rw [Nat.div_lt_iff_lt_mul unit, Nat.pow_succ] at less
      calc numerator < 2 ^ 52 * (denominator * (2 ^ size * 2)) := less
        _ = 2 ^ 53 * (denominator * 2 ^ size) := by
            rw [← Nat.mul_assoc denominator]
            omega
  · refine ⟨size + 1, by omega, by omega, ?_, ?_⟩
    · exact (Nat.le_div_iff_mul_le unit).mp (by omega)
    · calc numerator < 2 ^ (numerator.log2 + 1) := Nat.lt_log2_self
        _ = 2 ^ 53 * (2 ^ denominator.log2 * 2 ^ (size + 1)) := by
            rw [estimate, ← Nat.pow_add, ← Nat.pow_add]
            congr 1
            omega
        _ ≤ 2 ^ 53 * (denominator * 2 ^ (size + 1)) :=
            Nat.mul_le_mul_left _ (Nat.mul_le_mul_right _ (Nat.log2_self_le positive))

/-- A quotient has no nearest double exactly when it reaches the bound. -/
theorem ofQuotient?_eq_none_iff
    (negative : Bool) {numerator denominator : Nat} (positive : denominator ≠ 0) :
    Double.ofQuotient? negative numerator denominator = none ↔
      denominator * overflowBound ≤ numerator := by
  have half : 2 ^ 1023 ≤ overflowBound := by decide +kernel
  by_cases small : numerator.log2 < denominator.log2 + 52 + 971
  · refine iff_of_false (ofQuotient?_ne_none negative (quotientExponent_of_lt small)) ?_
    rw [Nat.not_le]
    calc numerator < 2 ^ (numerator.log2 + 1) := Nat.lt_log2_self
      _ ≤ 2 ^ (denominator.log2 + 1023) := Nat.pow_le_pow_right (by decide) (by omega)
      _ = 2 ^ denominator.log2 * 2 ^ 1023 := pow_add 2 denominator.log2 1023
      _ ≤ denominator * overflowBound := Nat.mul_le_mul (Nat.log2_self_le positive) half
  · have some : numerator ≠ 0 := by
      rintro rfl
      exact small (by rw [Nat.log2_zero]; omega)
    obtain ⟨exponent, chosen, least, full, fits⟩ := exists_exponent some positive (by omega)
    rw [ofQuotient?_of_exponent negative some chosen]
    by_cases beyond : 972 ≤ exponent
    · refine iff_of_true (.inl beyond) ?_
      calc denominator * overflowBound ≤ denominator * (2 ^ 52 * 2 ^ 972) :=
            Nat.mul_le_mul_left _ (by decide +kernel)
        _ ≤ denominator * (2 ^ 52 * 2 ^ exponent) :=
            Nat.mul_le_mul_left _ (Nat.mul_le_mul_left _ (Nat.pow_le_pow_right (by decide) beyond))
        _ = 2 ^ 52 * (denominator * 2 ^ exponent) := Nat.mul_left_comm ..
        _ ≤ numerator := full
    · obtain rfl | rfl : exponent = 970 ∨ exponent = 971 := by omega
      · refine iff_of_false (by omega) ?_
        rw [Nat.not_le]
        calc numerator < 2 ^ 53 * (denominator * 2 ^ 970) := fits
          _ = denominator * (2 ^ 53 * 2 ^ 970) := Nat.mul_left_comm ..
          _ ≤ denominator * overflowBound := Nat.mul_le_mul_left _ (by decide +kernel)
      · have carries := roundHalfEven_eq_carry_iff
          (Nat.mul_pos (Nat.pos_of_ne_zero positive) (pow_pos Nat.two_pos 971)) fits
        have double : (2 ^ 54 - 1) * (denominator * 2 ^ 971) = 2 * (denominator * overflowBound) := by
          rw [overflowBound, pow_succ 2 970]
          generalize 2 ^ 970 = unit
          rw [← Nat.mul_assoc denominator, Nat.mul_left_comm denominator]
          generalize denominator * unit = product
          omega
        rw [carries, double]
        omega

/-- The largest number with given digits overflows when more than 308 of them are before the point. -/
theorem largestNumber?_eq_none_iff (total places : Nat) :
    Factory.largestNumber? total places = none ↔ places + 308 < total := by
  have power (digits : Nat) : Decimal.power 10 digits = 10 ^ digits := rfl
  have positive (digits : Nat) : 0 < 10 ^ digits := Nat.pow_pos (by decide)
  rw [Factory.largestNumber?, power, power, ofQuotient?_eq_none_iff false (positive places).ne']
  constructor
  · intro reaches
    by_contra few
    have less : 10 ^ total - 1 < 10 ^ places * overflowBound := by
      calc 10 ^ total - 1 < 10 ^ total := Nat.sub_lt (positive total) (by decide)
        _ ≤ 10 ^ (places + 308) := Nat.pow_le_pow_right (by decide) (by omega)
        _ = 10 ^ places * 10 ^ 308 := Nat.pow_add ..
        _ ≤ 10 ^ places * overflowBound := Nat.mul_le_mul_left _ (by decide +kernel)
    omega
  · intro many
    have more : 10 ^ places * overflowBound < 10 ^ total := by
      calc 10 ^ places * overflowBound < 10 ^ places * 10 ^ 309 :=
            Nat.mul_lt_mul_of_pos_left (by decide +kernel) (positive places)
        _ = 10 ^ (places + 309) := (Nat.pow_add ..).symm
        _ ≤ 10 ^ total := Nat.pow_le_pow_right (by decide) many
    omega

end Scaffold.Decimal
